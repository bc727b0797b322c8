import DiceNotation.Proofs.Stack.Depth

/-!
# Values in range

What the operations of a compiled text compute, with a sampler that is fair in its answers: a value in
the signed 64-bit range, or one of the failures that are the roll's own (`Program.run_inRange`). The
literals are in range since the text compiled, sums, products and the like are checked, and so a number
of sides is a bound that the sampler has to answer.
-/

namespace DiceNotation

open Rolling

/-! ## Literals -/

/-- The numbers in the postfix form of a tree are in range and not negative when its literals are not
too large. -/
theorem Derivation.num_mem_code {s : Nonterminal} (t : Derivation s) (h : ∀ l ∈ t.yield, l.Fits) {v : Int}
    (hv : Op.num v ∈ t.code) : 0 ≤ v ∧ v ≤ maxLiteral := by
  induction t with
  | number ds =>
    obtain rfl : v = digitsValue ds := by simpa [code] using hv
    have hfits := (h ⟨.number, ds⟩ (List.mem_singleton.2 rfl) rfl).2
    exact ⟨Int.natCast_nonneg _, Int.ofNat_le.2 hfits⟩
  | paren b ih =>
    rw [yield, List.forall_mem_cons, List.forall_mem_append] at h
    exact ih h.2.1 hv
  | bare p ih => exact ih h hv
  | die p ih =>
    rw [yield, List.forall_mem_cons] at h
    rcases List.mem_cons.1 hv with hone | hv
    · -- One die is written without its number.
      obtain rfl := Op.num.inj hone
      decide
    · exact ih h.2 (by simpa using hv)
  | dice p q ihp ihq =>
    rw [yield, List.forall_mem_append, List.forall_mem_cons] at h
    rcases List.mem_append.1 hv with hv | hv
    · exact ihp h.1 hv
    · exact ihq h.2.2 (by simpa using hv)
  | plain b ih => exact ih h hv
  | negated b ih =>
    rw [yield, List.forall_mem_cons] at h
    exact ih h.2 (by simpa [code] using hv)
  | single x ih => exact ih h hv
  | joined x op _ y ihx ihy =>
    rw [yield, List.forall_mem_append, List.forall_mem_cons] at h
    rcases List.mem_append.1 hv with hv | hv
    · exact ihx h.1 hv
    · exact ihy h.2.2 (by simpa using hv)

/-- A text that compiles is the admitted tree of its lexemes, and its program is that of the tree. -/
theorem exists_admitted_of_compile {text : String} {p : Program} (h : compile text = .ok p) :
    ∃ t : Derivation (.chain .sum), t.yield = lexemes text.toList ∧ t.Admitted 0 ∧
      p = t.expr.program := by
  obtain ⟨e, hparse, rfl⟩ := compile_eq_ok_iff.1 h
  have hg : ∀ l ∈ lexemes text.toList, l.Genuine := fun l hl => Lexeme.genuine_of_mem_lexemes hl
  obtain ⟨t, hy, ha, rfl⟩ := (parseLexemes_eq_ok_iff hg).1 hparse
  exact ⟨t, hy, ha, rfl⟩

/-! ## Single computations -/

/-- A failure that the roll is to blame for, and not the sampler or the stack. -/
def Failure.IsRoll (e : Failure) : Prop :=
  ∃ error, e = .roll error

variable {σ : Type}

/-- A checked number is in range. -/
theorem inRange_of_checked {v w : Int} (h : checked v = .ok w) : InRange w := by
  unfold checked at h
  split at h
  · next hv =>
    cases h
    exact hv
  · cases h

/-- Arithmetic is checked. -/
theorem inRange_of_apply {op : Arith} {l r v : Int} (h : op.apply l r = .ok v) : InRange v := by
  cases op with
  | add => exact inRange_of_checked h
  | sub => exact inRange_of_checked h
  | mul => exact inRange_of_checked h
  | div =>
    unfold Arith.apply at h
    dsimp only at h
    split at h
    · cases h
    · exact inRange_of_checked h

/-- A positive number in range is a bound. -/
theorem isBound_of_inRange {n : Int} (h0 : 0 < n) (h : InRange n) : IsBound n := by
  have hmax : n ≤ 0x7FFFFFFFFFFFFFFF := h.2
  have hcount : (wordCount : Int) = 0x10000000000000000 := rfl
  exact ⟨h0, by omega⟩

/-- Asked for a number below `n`, a sampler fails in some ways only. -/
def Sampler.FailsAs (S : Sampler σ) (n : Int) (fails : Failure → Prop) : Prop :=
  ∀ s e, (S.sample n s).1 = .error e → fails (.sample e)

/-- A fair sampler does not fail where it is asked for a number below a bound. -/
theorem Sampler.Fair.failsAs {S : Sampler σ} (hS : S.Fair) {n : Int} (hn : IsBound n)
    (fails : Failure → Prop) : S.FailsAs n fails := by
  intro s e he
  obtain ⟨v, hv, -, -⟩ := hS.answer n s hn
  rw [hv] at he
  cases he

section

variable {S : Sampler σ} {fails : Failure → Prop} (hroll : ∀ e, fails (.roll e))

include hroll

/-- What arithmetic gives is in range, and what it refuses is refused to the roll. -/
theorem lift_inRange {r : Except RollError Int} (h : ∀ v, r = .ok v → InRange v) :
    (lift r : Rolling σ Int).Ensures InRange fails := by
  cases r with
  | ok v => exact ensures_pure (h v rfl)
  | error e => exact ensures_throw (hroll e)

/-- Faces that are added up from a total in range make a total in range, whatever they are. -/
theorem addFaces_inRange {sides : Int} (hsample : S.FailsAs sides fails) (n : Nat) {total : Int}
    (htotal : InRange total) : Ensures (ExceptT.mk (addFaces S sides n total)) InRange fails := by
  induction n generalizing total with
  | zero => exact fun _ => htotal
  | succ n ih =>
    intro s
    show Meets _ _ (addFaces S sides (n + 1) total s).1
    unfold addFaces
    rcases hS : S.sample sides s with ⟨e | v, s'⟩
    · exact hsample s e (congrArg Prod.fst hS)
    · dsimp only
      cases hsum : checked (total + 1 + v) with
      | error e => exact hroll e
      | ok total' => exact ih (inRange_of_checked hsum) s'

/-- Dice make a sum in range. They ask the sampler for a number only if they have sides. -/
theorem rollDice_inRange (times limit : Int) {sides : Int}
    (hsample : 0 < sides → S.FailsAs sides fails) :
    (rollDice S times sides limit).Ensures InRange fails := by
  have hzero : InRange 0 := by decide
  unfold rollDice
  split_ifs with htimes hnegative hlimit hnone
  · exact ensures_throw (hroll _)
  · exact ensures_throw (hroll _)
  · exact ensures_throw (hroll _)
  · exact ensures_pure hzero
  · -- Neither the number of dice nor that of sides is zero or less here.
    have hpos : 0 < sides := by omega
    exact addFaces_inRange hroll (hsample hpos) _ hzero

/-- An operation computes a value in range, if it is no number that is put on the stack as it is. -/
theorem Op.value_inRange (limit : Int) {op : Op} {stack : List Int} (hpops : op.pops ≤ stack.length)
    (hsample : ∀ sides ∈ stack, 0 < sides → S.FailsAs sides fails) :
    (op.value S limit stack).Ensures (fun v => op = .num v ∨ InRange v) fails := by
  have hright : ∀ {x : Rolling σ Int}, x.Ensures InRange fails →
      x.Ensures (fun v => op = .num v ∨ InRange v) fails :=
    fun hx => hx.mono (fun _ => .inr) fun _ => id
  cases op with
  | num v => exact ensures_pure (.inl rfl)
  | arith op =>
    match stack, hpops with
    | r :: l :: stack, _ => exact hright (lift_inRange hroll fun v hv => inRange_of_apply hv)
  | neg =>
    match stack, hpops with
    | v :: stack, _ => exact hright (lift_inRange hroll fun w hw => inRange_of_checked hw)
  | dice =>
    match stack, hpops with
    | sides :: times :: stack, _ =>
      exact hright (rollDice_inRange hroll times limit (hsample sides List.mem_cons_self))

end

/-! ## Programs -/

/-- The numbers of a compiled program are in range and not negative. -/
theorem num_mem_ops_of_compile {text : String} {p : Program} (h : compile text = .ok p) {v : Int}
    (hv : Op.num v ∈ p.ops) : 0 ≤ v ∧ v ≤ maxValue := by
  obtain ⟨t, -, ha, rfl⟩ := exists_admitted_of_compile h
  -- The literals of the program are those of the tree.
  have hcode : Op.num v ∈ t.code := t.code_expr ▸ hv
  exact t.num_mem_code ha.1 hcode

/-- So they may be put on the stack as they are. -/
theorem inRange_of_num_mem_ops {text : String} {p : Program} (h : compile text = .ok p) {v : Int}
    (hv : Op.num v ∈ p.ops) : InRange v := by
  obtain ⟨h0, hmax⟩ := num_mem_ops_of_compile h hv
  exact inRange_of_nonneg h0 hmax

/-- What a text compiles to gives a value in range, or fails as a roll. -/
theorem Program.run_inRange {S : Sampler σ} (hS : S.Fair) {text : String} {p : Program}
    (h : compile text = .ok p) (limit : Int) : (p.run S limit).Ensures InRange Failure.IsRoll := by
  have hvalue : ∀ op ∈ p.ops, ∀ stack : List Int, op.pops ≤ stack.length → (∀ v ∈ stack, InRange v) →
      (op.value S limit stack).Ensures InRange Failure.IsRoll := by
    intro op hop stack hpops hstack
    have hsample : ∀ sides ∈ stack, 0 < sides → S.FailsAs sides Failure.IsRoll :=
      fun sides hsides h0 => hS.failsAs (isBound_of_inRange h0 (hstack sides hsides)) _
    refine (op.value_inRange (fun e => ⟨e, rfl⟩) limit hpops hsample).mono ?_ fun _ => id
    rintro v (rfl | hv)
    · exact inRange_of_num_mem_ops h hop
    · exact hv
  obtain ⟨e, hparse, rfl⟩ := compile_eq_ok_iff.1 h
  have hpeak : peak 0 e.program.ops ≤ e.program.stackSize := by
    show peak 0 e.code ≤ e.depth
    rw [e.peak_code, Int.zero_add]
  have hend : 0 < depthAfter 0 e.program.ops := by
    show 0 < depthAfter 0 e.code
    rw [e.depthAfter_code]
    decide
  -- A text asks for a stack that there is, so nothing fails for want of one.
  have halloc : ∀ a, allocationError? e.program.stackSize = some a → Failure.IsRoll (.allocation a) := by
    intro a ha
    rw [allocationError?_of_parse hparse] at ha
    cases ha
  exact e.program.ensures_run S halloc
    (e.program.compute_ensures S limit hvalue (e.supplied_code (le_refl 0)) hpeak hend)

end DiceNotation
