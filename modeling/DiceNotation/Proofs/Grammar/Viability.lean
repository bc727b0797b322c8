import DiceNotation.Proofs.Grammar.Acceptor

/-!
# The beginnings of texts

The acceptor passes exactly the beginnings of texts: tokens that a text of the grammar begins with
(`Viable`) are those that it does not get stuck on (`Acceptor.Passes.viable_append_singleton_iff`), and
the text may end where the acceptor says so (`Acceptor.Passes.viable_finish_iff`).

One half is that the acceptor passes the trees of the grammar whose runs close in one piece
(`Derivation.passedBy`), with no more runs open than the groups of the tree nest. The other half is that
a text can be completed from wherever the acceptor is. `Acceptor.Completes` says what such a completion
looks like; it goes back over one step of the acceptor (`Completes.step`), so over all of them to the
start of the text, where it is a tree.
-/

namespace DiceNotation

open Paren

/-! ## Trees -/

/-- Whether the letter of dice may stand behind an expression, where none stands before it: the last
operand in it is no roll. -/
def Expr.rollable : Expr → Bool
  | literal _ => true
  | group _ _ => true
  | die _ => false
  | dice _ _ => false
  | negate e => e.rollable
  | arith _ _ r => r.rollable

/-- A group can be rolled. -/
@[simp] theorem Expr.rollable_wrap (e : Expr) : e.wrap.rollable = true := by
  rcases e.wrap_cases with ⟨n, a, rfl, he⟩ | ⟨-, he⟩ <;> rw [he] <;> rfl

/-- A primary can be rolled. -/
theorem Derivation.rollable_primary (t : Derivation .primary) : t.expr.rollable = true := by
  cases t with
  | number ds => rfl
  | paren b => exact b.expr.rollable_wrap

/-- Where the trees of a nonterminal can start. -/
def Nonterminal.Enters : Nonterminal → Phase → Prop
  | primary, p => p.Awaits
  | dice, p => p.Awaits ∧ p ≠ .sides
  | signed, p => p.Starts
  | chain _, p => p.Starts

/-- What an operator joins starts where a chain does. -/
theorem Level.enters_operand {l : Level} {p : Phase} (h : p.Starts) : l.operand.Enters p := by
  cases l <;> exact h

namespace Derivation

open Acceptor

variable {s : Nonterminal}

/-- A tree that stands on the left starts the whole. -/
theorem getElem?_tokens_append (t : Derivation s) (us : List Token) :
    (t.tokens ++ us)[0]? = t.tokens[0]? :=
  List.getElem?_append_left t.tokens_pos

/-- The two ways in which the acceptor passes a tree: as an operand at the phase `p`, and, if it is a
group, as the inner part of a run that is open. -/
structure PassedBy (t : Derivation s) : Prop where
  /-- The acceptor passes an operand, besides a group right behind a parenthesis. -/
  operand : ∀ (p : Phase) (runs : List OpenRun) (room : Nat), s.Enters p →
    (p = .opened → t.tokens[0]? ≠ some .openParen) → runs.length + t.expr.nesting ≤ room →
    Passes room ⟨p, runs⟩ t.tokens ⟨.complete 0 (p.rollable && t.expr.rollable), runs⟩
  /-- The acceptor passes a group as a part of a run, the rest of which is left to close. -/
  group : t.expr.IsGroup → ∀ (r : OpenRun) (runs : List OpenRun) (room : Nat),
    runs.length + t.expr.nesting ≤ room →
    Passes room ⟨.opened, r :: runs⟩ t.tokens ⟨.complete (r.extra + 1) r.rollable, runs⟩

/-- What is no group is only passed as an operand. -/
theorem PassedBy.of_operand {t : Derivation s} (hgroup : ¬ t.expr.IsGroup)
    (h : ∀ (p : Phase) (runs : List OpenRun) (room : Nat), s.Enters p →
      (p = .opened → t.tokens[0]? ≠ some .openParen) → runs.length + t.expr.nesting ≤ room →
      Passes room ⟨p, runs⟩ t.tokens ⟨.complete 0 (p.rollable && t.expr.rollable), runs⟩) :
    t.PassedBy :=
  ⟨h, fun hg => absurd hg hgroup⟩

/-- Behind the parenthesis that opens the pair, the acceptor passes the rest of it. -/
theorem PassedBy.passes_pair {b : Derivation (.chain .sum)} (h : b.PassedBy)
    (hrun : b.tokens[0]? = some .openParen → b.expr.IsGroup) (r : OpenRun) (runs : List OpenRun)
    {room : Nat} (hroom : runs.length + b.expr.wrap.nesting ≤ room) :
    Passes room ⟨.opened, r :: runs⟩ (b.tokens ++ [.closeParen])
      ⟨.complete r.extra r.rollable, runs⟩ := by
  by_cases hopen : b.tokens[0]? = some .openParen
  · -- The body is the inner part of the same run.
    have hgroup := hrun hopen
    rw [Expr.nesting_wrap_of_isGroup hgroup] at hroom
    exact (h.group hgroup r runs room hroom).append (.single .closesMore (by dsimp only; omega))
  · have hgroup := b.not_isGroup_of_not_open hopen
    rw [Expr.nesting_wrap_of_not_isGroup hgroup] at hroom
    have hbody := h.operand .opened (r :: runs) room trivial (fun _ => hopen)
      (by rw [List.length_cons]; omega)
    exact hbody.append (.single .closes (by dsimp only; omega))

/-- The acceptor passes the trees whose runs close in one piece. -/
theorem passedBy (t : Derivation s) (h : t.RunsClosed) : t.PassedBy := by
  induction t with
  | number ds =>
    refine .of_operand (by rintro ⟨n, body, he⟩; cases he) fun p runs room hp _ hroom => ?_
    have hstep : TokenStep ⟨p, runs⟩ .number ⟨.complete 0 p.rollable, runs⟩ := .number hp
    rw [tokens_number, expr, Expr.rollable, Bool.and_true]
    exact .single hstep (by dsimp only; omega)
  | paren b ih =>
    have hb := ih h.1
    have hpos : 0 < b.expr.wrap.nesting := by
      obtain ⟨n, body, he⟩ := b.expr.isGroup_wrap
      rw [he]
      exact Nat.succ_pos _
    refine ⟨fun p runs room hp hfirst hroom => ?_, fun _ r runs room hroom => ?_⟩
    · have hne : p ≠ .opened := fun hp => hfirst hp (by rw [tokens_paren]; rfl)
      have hpair := hb.passes_pair h.2 ⟨0, p.rollable⟩ runs hroom
      rw [tokens_paren, expr, Expr.rollable_wrap, Bool.and_true]
      exact .cons (.opens hp hne) (by rw [expr] at hroom; rw [List.length_cons]; omega) hpair
    · -- The pair makes the run one longer, and so leaves one more to close behind it.
      have hpair := hb.passes_pair h.2 ⟨r.extra + 1, r.rollable⟩ runs hroom
      rw [tokens_paren]
      exact .cons .opensMore (by rw [expr] at hroom; rw [List.length_cons]; omega) hpair
  | bare p ih =>
    have hp := ih h
    exact ⟨fun ph runs room hph hfirst hroom => hp.operand ph runs room hph.1 hfirst hroom,
      hp.group⟩
  | die p ih =>
    have hp := ih h
    refine .of_operand (by rintro ⟨n, body, he⟩; cases he) fun ph runs room hph _ hroom => ?_
    have hsides := hp.operand .sides runs room trivial (fun hne => by cases hne) hroom
    rw [tokens_die, expr, Expr.rollable, Bool.and_false]
    exact .cons (.die hph.1 hph.2) (by dsimp only; omega) hsides
  | dice p q ihp ihq =>
    have hp := ihp h.1
    have hq := ihq h.2
    refine .of_operand (by rintro ⟨n, body, he⟩; cases he) fun ph runs room hph hfirst hroom => ?_
    rw [tokens_dice, getElem?_tokens_append] at hfirst
    rw [expr, Expr.nesting] at hroom
    have htimes := hp.operand ph runs room hph.1 hfirst (by omega)
    have hsides := hq.operand .sides runs room trivial (fun hne => by cases hne) (by omega)
    -- The letter of dice may follow, as the operand before it is a primary.
    rw [Phase.rollable_of_ne_sides hph.2, p.rollable_primary] at htimes
    rw [tokens_dice, expr, Expr.rollable, Bool.and_false]
    exact htimes.append (.cons .roll (by dsimp only; omega) hsides)
  | plain b ih =>
    have hb := ih h
    exact ⟨fun ph runs room hph hfirst hroom =>
      hb.operand ph runs room ⟨hph.awaits, hph.ne_sides⟩ hfirst hroom, hb.group⟩
  | negated b ih =>
    have hb := ih h
    refine .of_operand (by rintro ⟨n, body, he⟩; cases he) fun ph runs room hph _ hroom => ?_
    have hbody := hb.operand .signed runs room ⟨trivial, by decide⟩ (fun hne => by cases hne) hroom
    rw [tokens_negated, expr, Expr.rollable, Phase.rollable_of_ne_sides hph.ne_sides]
    exact .cons (.minus hph) (by dsimp only; omega) hbody
  | single x ih =>
    have hx := ih h
    exact ⟨fun ph runs room hph hfirst hroom =>
      hx.operand ph runs room (Level.enters_operand hph) hfirst hroom, hx.group⟩
  | joined x op level y ihx ihy =>
    have hx := ihx h.1
    have hy := ihy h.2
    refine .of_operand (by rintro ⟨n, body, he⟩; cases he) fun ph runs room hph hfirst hroom => ?_
    rw [tokens_joined, getElem?_tokens_append] at hfirst
    rw [expr, Expr.nesting] at hroom
    have hleft := hx.operand ph runs room hph hfirst (by omega)
    have hright := hy.operand .operand runs room (Level.enters_operand trivial)
      (fun hne => by cases hne) (by omega)
    rw [tokens_joined, expr, Expr.rollable, Phase.rollable_of_ne_sides hph.ne_sides]
    exact hleft.append (.cons (.operator rfl) (by dsimp only; omega) hright)

end Derivation

/-! ## Chains that start with an operand -/

namespace Derivation

/-- An operand and an operator of its level before a chain make the chain longer. -/
theorem exists_prepend {l : Level} {x : Derivation l.operand} (hx : x.RunsClosed) {op : Arith}
    (h : op.level = l) : ∀ y : Derivation (.chain l), y.RunsClosed →
      ∃ y' : Derivation (.chain l), y'.RunsClosed ∧ y'.tokens = x.tokens ++ (op.token :: y.tokens)
  | .single y, hy => ⟨.joined (.single x) op h y, ⟨hx, hy⟩, tokens_joined _ op h y⟩
  | .joined w op' h' z, hy => by
    obtain ⟨w', hw', htokens⟩ := exists_prepend hx h w hy.1
    refine ⟨.joined w' op' h' z, ⟨hw', hy.2⟩, ?_⟩
    rw [tokens_joined, tokens_joined, htokens, List.append_assoc, List.cons_append]

/-- An operand and an operator of products before a sum make its first product longer. -/
theorem exists_prepend_product {x : Derivation .signed} (hx : x.RunsClosed) {op : Arith}
    (h : op.level = .product) : ∀ b : Derivation (.chain .sum), b.RunsClosed →
      ∃ b' : Derivation (.chain .sum), b'.RunsClosed ∧ b'.tokens = x.tokens ++ (op.token :: b.tokens)
  | .single y, hy => by
    obtain ⟨y', hy', htokens⟩ := exists_prepend (l := .product) hx h y hy
    exact ⟨.single y', hy', htokens⟩
  | .joined w op' h' z, hy => by
    obtain ⟨w', hw', htokens⟩ := exists_prepend_product hx h w hy.1
    refine ⟨.joined w' op' h' z, ⟨hw', hy.2⟩, ?_⟩
    rw [tokens_joined, tokens_joined, htokens, List.append_assoc, List.cons_append]

/-- The tokens of a run of parentheses stand on either side of those of the body. -/
theorem tokens_parens (b : Derivation (.chain .sum)) (d : Nat) :
    (parens b d).tokens = List.replicate (d + 1) .openParen ++
      (b.tokens ++ List.replicate (d + 1) .closeParen) := by
  rw [tokens, yield_parens, List.map_append, List.map_append, List.map_replicate, List.map_replicate]
  rfl

end Derivation

namespace Acceptor

/-- What may follow a primary in its operand: the sides of dice, if it can be rolled. -/
inductive Rolls : Bool → List Token → Prop
  /-- There may be no dice. -/
  | nothing {b : Bool} : Rolls b []
  /-- The letter of dice and the sides follow a number of dice. -/
  | sides {p : Derivation .primary} (closed : p.RunsClosed) : Rolls true (.dice :: p.tokens)

/-- What may follow an operand in its sum: an operator and the rest of the sum. -/
inductive Joins : List Token → Prop
  /-- There may be no operator. -/
  | nothing : Joins []
  /-- An operator joins what follows. -/
  | operator (op : Arith) {b : Derivation (.chain .sum)} (closed : b.RunsClosed) :
    Joins (op.token :: b.tokens)

/-- What may follow where nothing but the open runs is left to complete. -/
inductive Closes : List OpenRun → List Token → Prop
  /-- Without open runs there is nothing to close. -/
  | nothing : Closes [] []
  /-- The innermost run is completed and closed, and then the others. -/
  | run {r : OpenRun} {runs : List OpenRun} {us vs ws : List Token} (rolls : Rolls r.rollable us)
    (joins : Joins vs) (closes : Closes runs ws) :
    Closes (r :: runs) (List.replicate (r.extra + 1) .closeParen ++ (us ++ (vs ++ ws)))

/-- An operand and what may follow it in its sum are a sum. -/
theorem Joins.exists_sum {x : Derivation .signed} (hx : x.RunsClosed) {us : List Token}
    (h : Joins us) :
    ∃ b : Derivation (.chain .sum), b.RunsClosed ∧ b.tokens = x.tokens ++ us := by
  cases h with
  | nothing =>
    exact ⟨.single (l := .sum) (.single (l := .product) x), hx, (List.append_nil _).symm⟩
  | @operator op b hb =>
    cases hlevel : op.level with
    | sum =>
      let y : Derivation (.chain .product) := .single (l := .product) x
      exact Derivation.exists_prepend (l := .sum) (x := y) hx hlevel b hb
    | product => exact Derivation.exists_prepend_product hx hlevel b hb

/-- A primary and what may follow it in its operand are dice. -/
theorem Rolls.exists_dice {p : Derivation .primary} (hp : p.RunsClosed) {b : Bool} {us : List Token}
    (h : Rolls b us) : ∃ d : Derivation .dice, d.RunsClosed ∧ d.tokens = p.tokens ++ us := by
  cases h with
  | nothing => exact ⟨.bare p, hp, (List.append_nil _).symm⟩
  | @sides q hq => exact ⟨.dice p q, ⟨hp, hq⟩, Derivation.tokens_dice p q⟩

/-- Tokens that complete a text from where the acceptor is. -/
def Completes (q : Acceptor) (us : List Token) : Prop :=
  match q.phase with
  | .opened => ∃ (k : Nat) (b : Derivation (.chain .sum)) (ws : List Token), b.RunsClosed ∧
      b.tokens[0]? ≠ some .openParen ∧ Closes q.runs ws ∧
      us = List.replicate k .openParen ++ (b.tokens ++ (List.replicate k .closeParen ++ ws))
  | .operand => ∃ (b : Derivation (.chain .sum)) (ws : List Token), b.RunsClosed ∧
      Closes q.runs ws ∧ us = b.tokens ++ ws
  | .signed => ∃ (d : Derivation .dice) (vs ws : List Token), d.RunsClosed ∧ Joins vs ∧
      Closes q.runs ws ∧ us = d.tokens ++ (vs ++ ws)
  | .sides => ∃ (p : Derivation .primary) (vs ws : List Token), p.RunsClosed ∧ Joins vs ∧
      Closes q.runs ws ∧ us = p.tokens ++ (vs ++ ws)
  | .complete left b => ∃ us' vs ws : List Token, Rolls b us' ∧ Joins vs ∧ Closes q.runs ws ∧
      us = List.replicate left .closeParen ++ (us' ++ (vs ++ ws))

namespace Completes

variable {p : Phase} {runs : List OpenRun} {us vs ws : List Token}

/-- A signed operand goes on to complete a text. -/
theorem of_signed (hp : p.Starts) {x : Derivation .signed} (hx : x.RunsClosed)
    (hfirst : p = .opened → x.tokens[0]? ≠ some .openParen) (hvs : Joins vs) (hws : Closes runs ws) :
    Completes ⟨p, runs⟩ (x.tokens ++ (vs ++ ws)) := by
  obtain ⟨b, hb, htokens⟩ := hvs.exists_sum hx
  cases p with
  | opened =>
    have hopen := hfirst rfl
    rw [← x.getElem?_tokens_append vs, ← htokens] at hopen
    refine ⟨0, b, ws, hb, hopen, hws, ?_⟩
    rw [htokens, List.append_assoc]
    rfl
  | operand => exact ⟨b, ws, hb, hws, by rw [htokens, List.append_assoc]⟩
  | signed => exact absurd hp id
  | sides => exact absurd hp id
  | complete left b => exact absurd hp id

/-- Dice go on to complete a text, besides behind the letter of dice. -/
theorem of_dice (hp : p.Awaits) (hsides : p ≠ .sides) {d : Derivation .dice} (hd : d.RunsClosed)
    (hfirst : p = .opened → d.tokens[0]? ≠ some .openParen) (hvs : Joins vs) (hws : Closes runs ws) :
    Completes ⟨p, runs⟩ (d.tokens ++ (vs ++ ws)) := by
  cases p with
  | opened => exact of_signed (p := .opened) (x := .plain d) trivial hd hfirst hvs hws
  | operand => exact of_signed (p := .operand) (x := .plain d) trivial hd hfirst hvs hws
  | signed => exact ⟨d, vs, ws, hd, hvs, hws, rfl⟩
  | sides => exact absurd rfl hsides
  | complete left b => exact absurd hp id

/-- A primary goes on to complete a text. -/
theorem of_primary (hp : p.Awaits) {x : Derivation .primary} (hx : x.RunsClosed)
    (hfirst : p = .opened → x.tokens[0]? ≠ some .openParen) (hus : Rolls p.rollable us)
    (hvs : Joins vs) (hws : Closes runs ws) :
    Completes ⟨p, runs⟩ (x.tokens ++ (us ++ (vs ++ ws))) := by
  by_cases hsides : p = .sides
  · -- Sides are not rolled again.
    subst hsides
    cases hus
    exact ⟨x, vs, ws, hx, hvs, hws, rfl⟩
  · obtain ⟨d, hd, htokens⟩ := hus.exists_dice hx
    have hopen : p = .opened → d.tokens[0]? ≠ some .openParen := by
      rw [htokens, x.getElem?_tokens_append]
      exact hfirst
    rw [← List.append_assoc, ← htokens]
    exact of_dice hp hsides hd hopen hvs hws

/-- What completes a text behind a token completes it with the token before it. -/
theorem step {q q' : Acceptor} {t : Token} (h : q'.Completes us) (hstep : TokenStep q t q') :
    q.Completes (t :: us) := by
  cases hstep with
  | number hp =>
    obtain ⟨us', vs, ws, hus, hvs, hws, rfl⟩ := h
    exact of_primary (x := .number []) hp trivial (fun _ => by simp) hus hvs hws
  | opens hp hfirst =>
    obtain ⟨k, b, ws, hb, hopen, hws, rfl⟩ := h
    cases hws with
    | @run r runs us' vs ws hus hvs hws =>
      -- The new run is closed before what its group goes on with, so it is a primary.
      have hclosed := Derivation.runsClosed_parens (b.not_isGroup_of_not_open hopen) hopen hb k
      have h := of_primary hp hclosed (fun hp => absurd hp hfirst) hus hvs hws
      rw [Derivation.tokens_parens, List.replicate_succ (n := k), List.replicate_succ' (n := k)] at h
      simp only [List.cons_append, List.append_assoc] at h
      exact h
  | @opensMore r runs =>
    obtain ⟨k, b, ws, hb, hopen, hws, rfl⟩ := h
    cases hws with
    | run hus hvs hws =>
      -- The last parenthesis that closes the longer run belongs to the one that has opened now.
      refine ⟨k + 1, b, _, hb, hopen, .run (r := r) hus hvs hws, ?_⟩
      rw [List.replicate_succ (n := k), List.replicate_succ' (n := k),
        List.replicate_succ (n := r.extra + 1)]
      simp only [List.cons_append, List.append_assoc, List.nil_append]
  | die hp hfirst =>
    obtain ⟨x, vs, ws, hx, hvs, hws, rfl⟩ := h
    exact of_dice (d := .die x) hp hfirst hx (fun _ => by simp) hvs hws
  | minus hp =>
    obtain ⟨d, vs, ws, hd, hvs, hws, rfl⟩ := h
    exact of_signed (x := .negated d) hp hd (fun _ => by simp) hvs hws
  | roll =>
    obtain ⟨x, vs, ws, hx, hvs, hws, rfl⟩ := h
    exact ⟨.dice :: x.tokens, vs, ws, .sides hx, hvs, hws, rfl⟩
  | @operator op t b runs heq =>
    subst heq
    obtain ⟨x, ws, hx, hws, rfl⟩ := h
    exact ⟨[], op.token :: x.tokens, ws, .nothing, .operator op hx, hws, rfl⟩
  | closes =>
    obtain ⟨us', vs, ws, hus, hvs, hws, rfl⟩ := h
    exact ⟨[], [], _, .nothing, .nothing, .run hus hvs hws, rfl⟩
  | closesMore =>
    obtain ⟨us', vs, ws, hus, hvs, hws, rfl⟩ := h
    exact ⟨us', vs, ws, hus, hvs, hws, rfl⟩

/-- What completes a text behind some tokens completes it with the tokens before it. -/
theorem passes {q q' : Acceptor} {room : Nat} {ts : List Token} (h : q'.Completes us)
    (hp : Passes room q ts q') : q.Completes (ts ++ us) := by
  induction hp with
  | nil => exact h
  | cons step fits rest ih => exact (ih h).step step

end Completes

/-- Open runs can be closed. -/
theorem exists_closes (runs : List OpenRun) : ∃ ws, Closes runs ws := by
  induction runs with
  | nil => exact ⟨[], .nothing⟩
  | cons r runs ih =>
    obtain ⟨ws, hws⟩ := ih
    exact ⟨_, .run (r := r) .nothing .nothing hws⟩

/-- A text can be completed from wherever the acceptor is. -/
theorem exists_completes (q : Acceptor) : ∃ us, q.Completes us := by
  obtain ⟨p, runs⟩ := q
  obtain ⟨ws, hws⟩ := exists_closes runs
  by_cases hp : p.Awaits
  · exact ⟨_, .of_primary (x := .number []) hp trivial (fun _ => by simp) .nothing .nothing hws⟩
  · cases p with
    | complete left b => exact ⟨_, [], [], ws, .nothing, .nothing, hws, rfl⟩
    | _ => exact absurd trivial hp

/-! ## Beginnings of texts -/

/-- What completes a text from its start is a tree. -/
theorem Completes.exists_tree {us : List Token} (h : init.Completes us) :
    ∃ t : Derivation (.chain .sum), t.RunsClosed ∧ t.tokens = us := by
  obtain ⟨b, ws, hb, hws, rfl⟩ := h
  cases hws
  exact ⟨b, hb, (List.append_nil _).symm⟩

/-- No step is taken at the end of a text, nor at junk. -/
theorem TokenStep.token_ne {q q' : Acceptor} {t : Token} (h : TokenStep q t q') :
    t ≠ .finish ∧ t ≠ .junk := by
  cases h with
  | @operator op t b runs heq =>
    subst heq
    cases op <;> decide
  | _ => decide

namespace Passes

variable {room : Nat} {q : Acceptor} {ts : List Token}

/-- The end of a text is never passed. -/
theorem finish_notMem {q' : Acceptor} (h : Passes room q ts q') : .finish ∉ ts := by
  induction h with
  | nil => exact List.not_mem_nil
  | cons step fits rest ih =>
    intro hmem
    rcases List.mem_cons.1 hmem with hfinish | hmem
    · exact step.token_ne.1 hfinish.symm
    · exact ih hmem

/-- A text of the grammar begins with all that is passed. -/
theorem viable (h : Passes room init ts q) : Viable ts := by
  obtain ⟨us, hus⟩ := q.exists_completes
  obtain ⟨t, ht, htokens⟩ := (hus.passes h).exists_tree
  refine ⟨t, t.runsClose_tokens_iff.2 ht, ?_⟩
  rw [htokens, List.append_assoc]
  exact List.prefix_append _ _

end Passes

/-- What a text of the grammar begins with is passed. -/
theorem exists_passes_of_viable {ts : List Token} (h : Viable ts) (hf : .finish ∉ ts) :
    ∃ room q, Passes room init ts q := by
  obtain ⟨t, ht, hbegins⟩ := h
  -- They are all of a text with its end, or stand within it.
  rcases List.prefix_concat_iff.1 hbegins with rfl | hbegins
  · exact absurd (List.mem_append_right _ (List.mem_singleton.2 rfl)) hf
  · obtain ⟨us, hus⟩ := hbegins
    have hpasses := (t.passedBy (t.runsClose_tokens_iff.1 ht)).operand .operand [] _ trivial
      (fun hp => by cases hp) (le_refl _)
    rw [← hus] at hpasses
    obtain ⟨m, hm, -⟩ := hpasses.exists_of_append
    exact ⟨_, m, hm⟩

/-- All of a text of the grammar is passed, and the acceptor says that it may end. -/
theorem exists_passes_of_viable_finish {ts : List Token} (h : Viable (ts ++ [.finish])) :
    ∃ room q, Passes room init ts q ∧ q.MayEnd := by
  obtain ⟨t, ht, hbegins⟩ := h
  have hpasses := (t.passedBy (t.runsClose_tokens_iff.1 ht)).operand .operand [] _ trivial
    (fun hp => by cases hp) (le_refl _)
  rcases List.prefix_concat_iff.1 hbegins with heq | hbegins
  · rw [List.append_cancel_right heq]
    exact ⟨_, _, hpasses, rfl, _, rfl⟩
  · exact absurd (hbegins.subset (List.mem_append_right _ (List.mem_singleton.2 rfl)))
      hpasses.finish_notMem

namespace Passes

variable {room : Nat} {q : Acceptor} {ts : List Token}

/-- Behind one more token the acceptor is where its step leads. -/
theorem snoc (h : Passes room init ts q) {t : Token} {q' : Acceptor} (hstep : TokenStep q t q') :
    Passes (max room q'.runs.length) init (ts ++ [t]) q' :=
  (h.mono (Nat.le_max_left _ _)).append (.single hstep (Nat.le_max_right _ _))

/-- A text of the grammar begins with one more token exactly when it has a step. -/
theorem viable_append_singleton_iff (h : Passes room init ts q) {t : Token} (ht : t ≠ .finish) :
    Viable (ts ++ [t]) ↔ ∃ q', TokenStep q t q' := by
  constructor
  · intro hviable
    have hf : .finish ∉ ts ++ [t] := fun hmem => by
      rcases List.mem_append.1 hmem with hmem | hmem
      · exact h.finish_notMem hmem
      · exact ht (List.mem_singleton.1 hmem).symm
    obtain ⟨room', q₁, hpasses⟩ := exists_passes_of_viable hviable hf
    obtain ⟨m, hleft, hright⟩ := hpasses.exists_of_append
    -- The way over the longer text leads through where the acceptor is.
    cases h.unique hleft
    cases hright with
    | cons step fits rest => exact ⟨_, step⟩
  · rintro ⟨q', hstep⟩
    exact (h.snoc hstep).viable

/-- A text of the grammar may end behind some tokens exactly when the acceptor says so. -/
theorem viable_finish_iff (h : Passes room init ts q) : Viable (ts ++ [.finish]) ↔ q.MayEnd := by
  constructor
  · intro hviable
    obtain ⟨room', q', hpasses, hmayEnd⟩ := exists_passes_of_viable_finish hviable
    cases h.unique hpasses
    exact hmayEnd
  · rintro ⟨hruns, b, hphase⟩
    -- Nothing is left to complete.
    have hend : q.Completes [] := by
      obtain ⟨p, runs⟩ := q
      cases hruns
      cases hphase
      exact ⟨[], [], [], .nothing, .nothing, .nothing, rfl⟩
    obtain ⟨t, ht, htokens⟩ := (hend.passes h).exists_tree
    rw [List.append_nil] at htokens
    refine ⟨t, t.runsClose_tokens_iff.2 ht, ?_⟩
    rw [htokens]

end Passes

end Acceptor

end DiceNotation
