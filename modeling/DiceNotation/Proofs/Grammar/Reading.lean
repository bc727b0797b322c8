import DiceNotation.Proofs.Grammar.Admission

/-!
# The parsers read derivation trees

`Parser.Reads p s n` says that the parser `p` reads the trees of the nonterminal `s` with `n` groups
open around it: on the yield of an admitted tree it gives the expression of the tree and stops behind
it, if what follows stops it there, and all that it gives is the expression of an admitted tree that it
has passed.

Each parser of the grammar gets its `Reads` from those of the parsers that it calls: `reads_primary`
from the parser of what stands in a group, one level deeper, and `reads_die`, `reads_signed` and
`reads_chained` from the parser of their operands. `reads_expression` ties them together by induction on
the room that is left for groups.
-/

namespace DiceNotation

/-- A parser reads the trees of a nonterminal with `n` groups around it. -/
structure Parser.Reads (p : Parser) (s : Nonterminal) (n : Nat) : Prop where
  /-- It reads each admitted tree to its end. -/
  complete : ∀ (t : Derivation s) (r : List Lexeme), t.Admitted n → s.Stops r →
    p ⟨t.yield ++ r, n⟩ = .ok (t.expr, ⟨r, n⟩)
  /-- What it reads is an admitted tree. -/
  sound : ∀ (ls : List Lexeme) (e : Expr) (c : Cursor), (∀ l ∈ ls, l.Genuine) →
    p ⟨ls, n⟩ = .ok (e, c) → ∃ (t : Derivation s) (r : List Lexeme),
      t.Admitted n ∧ e = t.expr ∧ ls = t.yield ++ r ∧ c = ⟨r, n⟩

namespace Parser

open Cursor

/-! ## Primaries -/

/-- A number is read when it is a literal of the range. -/
theorem primary_number (inner : Parser) (ds : List Char) (r : List Lexeme) (n : Nat) :
    primary inner ⟨⟨.number, ds⟩ :: r, n⟩ =
      (next ⟨⟨.number, ds⟩ :: r, n⟩ >>= fun c => literalValue ds >>= fun v =>
        .ok (.literal v, c)) := rfl

/-- A group is read with one level less for what stands in it. -/
theorem primary_open (inner : Parser) {r : List Lexeme} {n : Nat} (hr : NoJunkAhead r)
    (hn : n < maxNesting) :
    primary inner ⟨.of .openParen :: r, n⟩ =
      (openRun r 0 ⟨r, n + 1⟩ >>= fun run => inner run.2 >>= fun body =>
        closeRun (run.1 + 1) body.2 >>= fun c =>
          .ok (.group run.1 body.1, { c with nesting := c.nesting - 1 })) := by
  show (next ⟨.of .openParen :: r, n⟩ >>= _) = _
  rw [next_cons n hr, ok_bind]
  exact if_neg (Nat.not_le.2 hn)

/-- A parenthesis is only passed where there is room for a group. -/
theorem lt_of_primary_open {inner : Parser} {r : List Lexeme} {n : Nat} {e : Expr} {c : Cursor}
    (h : primary inner ⟨.of .openParen :: r, n⟩ = .ok (e, c)) :
    NoJunkAhead r ∧ n < maxNesting := by
  obtain ⟨c', hnext, h⟩ := bind_eq_ok_iff.1 h
  obtain ⟨rfl, hr⟩ := next_eq_ok_iff.1 hnext
  refine ⟨hr, Nat.not_le.1 fun hn => ?_⟩
  rw [if_pos hn] at h
  cases h

/-- A run of parentheses around a body is read as one group. -/
theorem primary_run {inner : Parser} {n : Nat} (hn : n < maxNesting)
    (hinner : inner.Reads (.chain .sum) (n + 1)) {b : Derivation (.chain .sum)}
    (hb : b.Admitted (n + 1)) (ho : b.tokens[0]? ≠ some .openParen) (d : Nat) {r : List Lexeme}
    (hr : NoJunkAhead r) :
    primary inner ⟨List.replicate (d + 1) (.of .openParen) ++
      (b.yield ++ (List.replicate (d + 1) (.of .closeParen) ++ r)), n⟩ =
        .ok (.group d b.expr, ⟨r, n⟩) := by
  have hahead := b.noJunkAhead_yield (List.replicate (d + 1) (.of .closeParen) ++ r)
  -- What follows the body is the parenthesis that closes the innermost pair.
  have hstops : (Nonterminal.chain .sum).Stops
      (List.replicate (d + 1) (.of .closeParen) ++ r) := by
    refine ⟨noJunkAhead_cons (by decide), fun l hl hc => ?_⟩
    cases hl
    simp [Nonterminal.continues, multiplicative?, additive?] at hc
  have hbody := hinner.complete b _ hb hstops
  have hopen : token ⟨b.yield ++ (List.replicate (d + 1) (.of .closeParen) ++ r), n + 1⟩ ≠
      .openParen := by
    obtain ⟨l, ls, hy, -⟩ := b.exists_yield_cons
    rw [Derivation.tokens, hy] at ho
    rw [hy]
    exact fun h => ho (congrArg some h)
  generalize b.yield ++ (List.replicate (d + 1) (.of .closeParen) ++ r) = rest at *
  have hbudget : d ≤ (List.replicate d (Lexeme.of .openParen) ++ rest).length := by simp
  have hrun := openRun_replicate d 0 (n + 1) hbudget hahead hopen
  have hahead' := noJunkAhead_replicate_append (t := .openParen) (by decide) d hahead
  rw [List.replicate_succ, List.cons_append, primary_open inner hahead' hn, hrun, ok_bind,
    Nat.zero_add, hbody, ok_bind, closeRun_replicate (d + 1) (n + 1) hr, ok_bind]
  rfl

/-- What is read at a parenthesis is a run of parentheses around a body that starts with none. -/
theorem exists_run_of_primary {inner : Parser} {n : Nat} {ls : List Lexeme} {e : Expr} {c : Cursor}
    (hinner : n < maxNesting → inner.Reads (.chain .sum) (n + 1))
    (hg : ∀ l ∈ ls, l.Genuine) (h : primary inner ⟨.of .openParen :: ls, n⟩ = .ok (e, c)) :
    ∃ (b : Derivation (.chain .sum)) (d : Nat) (r : List Lexeme), b.Admitted (n + 1) ∧
      b.tokens[0]? ≠ some .openParen ∧ e = .group d b.expr ∧ c = ⟨r, n⟩ ∧
      ls = List.replicate d (.of .openParen) ++
        (b.yield ++ (List.replicate (d + 1) (.of .closeParen) ++ r)) := by
  obtain ⟨hahead, hn⟩ := lt_of_primary_open h
  rw [primary_open inner hahead hn] at h
  obtain ⟨⟨m, c₁⟩, hrun, hbody⟩ := bind_eq_ok_iff.1 h
  obtain ⟨d, r₁, rfl, rfl, rfl, hopen⟩ := openRun_eq_ok hg (le_refl _) hrun
  have hg₁ : ∀ l ∈ r₁, l.Genuine := fun l hl => hg l (List.mem_append_right _ hl)
  rw [Nat.zero_add] at hbody
  obtain ⟨⟨e', c₂⟩, hbody, hclose⟩ := bind_eq_ok_iff.1 hbody
  obtain ⟨b, r₂, hb, rfl, rfl, rfl⟩ := (hinner hn).sound r₁ e' c₂ hg₁ hbody
  have hg₂ : ∀ l ∈ r₂, l.Genuine := fun l hl => hg₁ l (List.mem_append_right _ hl)
  obtain ⟨c₃, hclose, hend⟩ := bind_eq_ok_iff.1 hclose
  obtain ⟨r₃, rfl, hr₂⟩ := closeRun_eq_ok hg₂ hclose
  rw [show r₂ = _ from hr₂]
  cases hend
  refine ⟨b, d, r₃, hb, ?_, rfl, rfl, rfl⟩
  obtain ⟨l, ls, hy, -⟩ := b.exists_yield_cons
  rw [hy] at hopen
  rw [Derivation.tokens, hy]
  exact fun h => hopen (Option.some.inj h)

/-- A number that is read is a literal of the range. -/
theorem literal_of_primary {inner : Parser} {n : Nat} {ds : List Char} {r : List Lexeme} {e : Expr}
    {c : Cursor} (hn : n ≤ maxNesting) (hg : (⟨.number, ds⟩ : Lexeme).Genuine)
    (h : primary inner ⟨⟨.number, ds⟩ :: r, n⟩ = .ok (e, c)) :
    (Derivation.number ds).Admitted n ∧ e = (Derivation.number ds).expr ∧ c = ⟨r, n⟩ := by
  rw [primary_number] at h
  obtain ⟨c', hnext, h⟩ := bind_eq_ok_iff.1 h
  obtain ⟨v, hvalue, h⟩ := bind_eq_ok_iff.1 h
  obtain ⟨rfl, -⟩ := next_eq_ok_iff.1 hnext
  have hdigits := hg.isDigit_of_mem rfl
  rw [literalValue_eq hdigits] at hvalue
  split at hvalue
  · next hmax =>
    cases hvalue
    cases h
    refine ⟨⟨fun l hl _ => ?_, trivial, hn⟩, rfl, rfl⟩
    cases List.mem_singleton.1 hl
    exact ⟨hdigits, hmax⟩
  · cases hvalue

/-- Primaries are read if what stands in a group is, where there is room for it. -/
theorem reads_primary {inner : Parser} {n : Nat} (hn : n ≤ maxNesting)
    (hinner : n < maxNesting → inner.Reads (.chain .sum) (n + 1)) :
    (primary inner).Reads .primary n where
  complete t r ha hs := by
    cases t with
    | number ds =>
      obtain ⟨hdigits, hmax⟩ := ha.1 _ (List.mem_singleton.2 rfl) rfl
      have hvalue := literalValue_eq hdigits
      rw [if_pos hmax] at hvalue
      rw [Derivation.yield, List.singleton_append, primary_number, next_cons n hs.1, ok_bind,
        hvalue, ok_bind, Derivation.expr]
    | paren b =>
      -- The tree is taken apart at its whole run, not at its outermost pair as the grammar has it.
      obtain ⟨d, e, he⟩ : (Derivation.paren b).expr.IsGroup := b.expr.isGroup_wrap
      obtain ⟨b', rfl, hr', ho', hy'⟩ := (Derivation.paren b).exists_body_of_group ha.2.1 he
      have hnesting := ha.2.2
      rw [he, Expr.nesting] at hnesting
      have hn : n < maxNesting := by omega
      have hfits : ∀ l ∈ b'.yield, l.Fits := fun l hl => ha.1 l (by
        rw [hy']
        exact List.mem_append_right _ (List.mem_append_left _ hl))
      rw [hy', he, List.append_assoc, List.append_assoc]
      exact primary_run hn (hinner hn) ⟨hfits, hr', by omega⟩ ho' d hs.1
  sound ls e c hg h := by
    cases ls with
    | nil => cases h
    | cons l r =>
      have hl : l.Genuine := hg l List.mem_cons_self
      obtain ⟨t, cs⟩ := l
      cases t with
      | number =>
        obtain ⟨ha, he, hc⟩ := literal_of_primary hn hl h
        exact ⟨.number cs, r, ha, he, rfl, hc⟩
      | openParen =>
        rw [hl.eq_of (t := .openParen) rfl (by decide) (by decide)] at h ⊢
        obtain ⟨b, d, r', hb, ho, rfl, rfl, rfl⟩ := exists_run_of_primary hinner
          (fun l hl => hg l (List.mem_cons_of_mem _ hl)) h
        have hexpr := Derivation.expr_parens (b.not_isGroup_of_not_open ho) d
        refine ⟨.parens b d, r', Derivation.admitted_parens hb ho d, hexpr.symm, ?_, rfl⟩
        rw [Derivation.yield_parens, List.replicate_succ, List.append_assoc, List.append_assoc]
        rfl
      | _ => cases h

/-! ## Dice and signs -/

/-- A token that no primary starts with does not stand before one. -/
theorem token_ne_of_primary (p : Derivation .primary) (r : List Lexeme) (n : Nat) {t : Token}
    (h : ¬ Nonterminal.primary.starts t) : token ⟨p.yield ++ r, n⟩ ≠ t := by
  intro ht
  have hs := p.starts_token r n
  rw [ht] at hs
  exact h hs

/-- Dice that are read are sides behind their letter, a number of dice with their sides, or a primary that the
letter does not follow. -/
theorem die_eq_ok {inner : Parser} {n : Nat} (hp : (primary inner).Reads .primary n) {ls : List Lexeme}
    {e : Expr} {c : Cursor} (hg : ∀ l ∈ ls, l.Genuine) (h : die inner ⟨ls, n⟩ = .ok (e, c)) :
    (∃ r sides, ls = .of .dice :: r ∧ e = .die sides ∧ primary inner ⟨r, n⟩ = .ok (sides, c)) ∨
    (∃ r times sides, (∀ l ∈ r, l.Genuine) ∧ e = .dice times sides ∧
      primary inner ⟨ls, n⟩ = .ok (times, ⟨.of .dice :: r, n⟩) ∧ primary inner ⟨r, n⟩ = .ok (sides, c)) ∨
    token c ≠ .dice ∧ primary inner ⟨ls, n⟩ = .ok (e, c) := by
  unfold die at h
  split at h
  · next ht =>
    obtain ⟨r, rfl⟩ := exists_of_token_genuine hg ht (by decide) (by decide) (by decide)
    obtain ⟨c₁, hnext, hrest⟩ := bind_eq_ok_iff.1 h
    obtain ⟨⟨sides, c₂⟩, hsides, hend⟩ := bind_eq_ok_iff.1 hrest
    obtain ⟨rfl, -⟩ := next_eq_ok_iff.1 hnext
    cases hend
    exact .inl ⟨r, sides, rfl, rfl, hsides⟩
  · obtain ⟨⟨times, c₁⟩, htimes, hrest⟩ := bind_eq_ok_iff.1 h
    dsimp only at hrest
    split at hrest
    · next ht =>
      obtain ⟨p, r, -, -, rfl, rfl⟩ := hp.sound ls times c₁ hg htimes
      have hg₁ : ∀ l ∈ r, l.Genuine := fun l hl => hg l (List.mem_append_right _ hl)
      obtain ⟨r, rfl⟩ := exists_of_token_genuine hg₁ ht (by decide) (by decide) (by decide)
      obtain ⟨c₂, hnext, hrest⟩ := bind_eq_ok_iff.1 hrest
      obtain ⟨⟨sides, c₃⟩, hsides, hend⟩ := bind_eq_ok_iff.1 hrest
      obtain ⟨rfl, -⟩ := next_eq_ok_iff.1 hnext
      cases hend
      have hg₂ : ∀ l ∈ r, l.Genuine := fun l hl => hg₁ l (List.mem_cons_of_mem _ hl)
      exact .inr (.inl ⟨r, times, sides, hg₂, rfl, htimes, hsides⟩)
    · next ht =>
      cases hrest
      exact .inr (.inr ⟨ht, htimes⟩)

/-- Dice are read if primaries are. -/
theorem reads_die {inner : Parser} {n : Nat} (hp : (primary inner).Reads .primary n) :
    (die inner).Reads .dice n where
  complete t r ha hs := by
    have hdice : ¬ Nonterminal.primary.starts .dice := by simp [Nonterminal.starts]
    -- Each kind of dice takes its own branch of the parser, since no primary starts with the letter.
    cases t with
    | bare p =>
      have hstop : token ⟨r, n⟩ ≠ .dice := by
        intro ht
        obtain ⟨l, ls, rfl, hl⟩ := exists_of_token ht (by decide)
        exact hs.2 l rfl hl
      rw [Derivation.yield, die, if_neg (token_ne_of_primary p r n hdice), dice,
        hp.complete p r ha (stops_primary hs.1), ok_bind]
      exact if_neg hstop
    | die p =>
      rw [Derivation.yield, List.cons_append, die, if_pos (token_of_cons _ _ _),
        next_cons n (p.noJunkAhead_yield r), ok_bind,
        hp.complete p r (Derivation.admitted_die.1 ha) (stops_primary hs.1)]
      rfl
    | dice p q =>
      obtain ⟨hap, haq⟩ := Derivation.admitted_dice.1 ha
      have hstop : Nonterminal.primary.Stops (.of .dice :: (q.yield ++ r)) :=
        stops_primary (noJunkAhead_cons (by decide))
      rw [Derivation.yield, List.append_assoc, List.cons_append, die,
        if_neg (token_ne_of_primary p _ n hdice), dice, hp.complete p _ hap hstop, ok_bind]
      show (if token ⟨.of .dice :: (q.yield ++ r), n⟩ = .dice then _ else _) = _
      rw [if_pos (token_of_cons _ _ _), next_cons n (q.noJunkAhead_yield r), ok_bind,
        hp.complete q r haq (stops_primary hs.1)]
      rfl
  sound ls e c hg h := by
    rcases die_eq_ok hp hg h with
      ⟨r, sides, rfl, rfl, hsides⟩ | ⟨r, times, sides, hg₁, rfl, htimes, hsides⟩ | ⟨-, hprimary⟩
    · obtain ⟨p, r', hap, rfl, rfl, rfl⟩ :=
        hp.sound r sides c (fun l hl => hg l (List.mem_cons_of_mem _ hl)) hsides
      exact ⟨.die p, r', Derivation.admitted_die.2 hap, rfl, rfl, rfl⟩
    · obtain ⟨p, r₁, hap, rfl, rfl, hr⟩ := hp.sound ls times _ hg htimes
      cases hr
      obtain ⟨q, r', haq, rfl, rfl, rfl⟩ := hp.sound r sides c hg₁ hsides
      refine ⟨.dice p q, r', Derivation.admitted_dice.2 ⟨hap, haq⟩, rfl, ?_, rfl⟩
      rw [Derivation.yield, List.append_assoc]
      rfl
    · obtain ⟨p, r, hap, rfl, rfl, rfl⟩ := hp.sound ls e c hg hprimary
      exact ⟨.bare p, r, hap, rfl, rfl, rfl⟩

/-- Signed dice are read if dice are. -/
theorem reads_signed {inner : Parser} {n : Nat} (hd : (die inner).Reads .dice n) :
    (signed inner).Reads .signed n where
  complete t r ha hs := by
    cases t with
    | plain b =>
      -- Dice do not start with a sign, so the parser does not take it for one.
      have hne : token ⟨b.yield ++ r, n⟩ ≠ .minus := by
        intro ht
        have hstart := b.starts_token r n
        rw [ht] at hstart
        simp [Nonterminal.starts] at hstart
      rw [Derivation.yield, signed, if_neg hne]
      exact hd.complete b r ha hs
    | negated b =>
      rw [Derivation.yield, List.cons_append, signed, if_pos (token_of_cons _ _ _),
        next_cons n (b.noJunkAhead_yield r), ok_bind,
        hd.complete b r (Derivation.admitted_negated.1 ha) hs]
      rfl
  sound ls e c hg h := by
    unfold signed at h
    split at h
    · next ht =>
      obtain ⟨r, rfl⟩ := exists_of_token_genuine hg ht (by decide) (by decide) (by decide)
      obtain ⟨c₁, hnext, hbody⟩ := bind_eq_ok_iff.1 h
      obtain ⟨⟨e₁, c₂⟩, hbody, hend⟩ := bind_eq_ok_iff.1 hbody
      obtain ⟨rfl, -⟩ := next_eq_ok_iff.1 hnext
      obtain ⟨b, r', hab, rfl, hr, rfl⟩ :=
        hd.sound r e₁ c₂ (fun l hl => hg l (List.mem_cons_of_mem _ hl)) hbody
      cases hend
      exact ⟨.negated b, r', Derivation.admitted_negated.2 hab, rfl, by rw [hr]; rfl, rfl⟩
    · obtain ⟨b, r, hab, rfl, rfl, rfl⟩ := hd.sound ls e c hg h
      exact ⟨.plain b, r, hab, rfl, rfl, rfl⟩

/-! ## Chains -/

/-- An operand of a level and the chain that goes on from it. -/
def chained (operand : Parser) (l : Level) : Parser := fun c => do
  let (left, c) ← operand c
  chain operand l.join? c.rest left c

/-- A product is a chain of operands with a sign or none. -/
theorem product_eq_chained (inner : Parser) : product inner = chained (signed inner) .product := rfl

/-- A sum is a chain of products. -/
theorem sum_eq_chained (inner : Parser) : sum inner = chained (product inner) .sum := rfl

/-- A chain that is stopped is at its end. -/
theorem chain_of_stops (operand : Parser) {l : Level} (budget : List Lexeme) (e : Expr)
    {r : List Lexeme} (n : Nat) (hs : (Nonterminal.chain l).Stops r) :
    chain operand l.join? budget e ⟨r, n⟩ = .ok (e, ⟨r, n⟩) := by
  cases budget with
  | nil => rfl
  | cons b budget =>
    unfold chain
    rw [Level.join?_eq_none n hs]

/-- A chain goes on over an operator and its operand. -/
theorem chain_joined {operand : Parser} {l : Level} {n : Nat} (ho : operand.Reads l.operand n)
    (b : Lexeme) (budget : List Lexeme) (e : Expr) {op : Arith} (h : op.level = l)
    {y : Derivation l.operand} (hy : y.Admitted n) {r : List Lexeme} (hr : l.operand.Stops r) :
    chain operand l.join? (b :: budget) e ⟨.of op.token :: (y.yield ++ r), n⟩ =
      chain operand l.join? budget (.arith op e y.expr) ⟨r, n⟩ := by
  have hjoin : l.join? (token ⟨.of op.token :: (y.yield ++ r), n⟩) = some op :=
    Level.join?_eq_some_iff.2 ⟨h, rfl⟩
  rw [chain, hjoin]
  show (next ⟨.of op.token :: (y.yield ++ r), n⟩ >>= _) = _
  rw [next_cons n (y.noJunkAhead_yield r), ok_bind, ho.complete y r hy hr]
  rfl

/-- Reading a chain comes to the end of each tree that the chain starts with, with enough budget left
for what follows. -/
theorem chained_reaches {operand : Parser} {l : Level} {n : Nat} (ho : operand.Reads l.operand n) :
    ∀ (t : Derivation (.chain l)) (r : List Lexeme), t.Admitted n → l.operand.Stops r →
      ∃ budget : List Lexeme, r.length ≤ budget.length ∧
        chained operand l ⟨t.yield ++ r, n⟩ = chain operand l.join? budget t.expr ⟨r, n⟩
  | .single x, r, ha, hr => by
    refine ⟨r, le_refl _, ?_⟩
    rw [Derivation.yield, chained, ho.complete x r ha hr]
    rfl
  | .joined x op h y, r, ha, hr => by
    obtain ⟨hx, hy⟩ := Derivation.admitted_joined.1 ha
    obtain ⟨budget, hlength, hreach⟩ :=
      chained_reaches ho x (.of op.token :: (y.yield ++ r)) hx (op.stops_operand h _)
    -- What is left holds the operator, so the budget has one more step for it.
    cases budget with
    | nil => simp at hlength
    | cons b budget =>
      simp only [List.length_cons, List.length_append] at hlength
      refine ⟨budget, by omega, ?_⟩
      rw [Derivation.yield, List.append_assoc, List.cons_append, hreach,
        chain_joined ho b budget x.expr h hy hr]
      rfl

/-- What a chain goes on to read makes its tree a longer one. -/
theorem chain_eq_ok {operand : Parser} {l : Level} {n : Nat} (ho : operand.Reads l.operand n)
    {budget ls : List Lexeme} {t : Derivation (.chain l)} {e : Expr} {c : Cursor}
    (ha : t.Admitted n) (hg : ∀ x ∈ ls, x.Genuine)
    (h : chain operand l.join? budget t.expr ⟨ls, n⟩ = .ok (e, c)) :
    ∃ (t' : Derivation (.chain l)) (r : List Lexeme), t'.Admitted n ∧ e = t'.expr ∧
      t.yield ++ ls = t'.yield ++ r ∧ c = ⟨r, n⟩ := by
  induction budget generalizing t ls with
  | nil =>
    cases h
    exact ⟨t, ls, ha, rfl, rfl, rfl⟩
  | cons b budget ih =>
    unfold chain at h
    split at h
    · cases h
      exact ⟨t, ls, ha, rfl, rfl, rfl⟩
    · next op hjoin =>
      obtain ⟨hop, ht⟩ := Level.join?_eq_some_iff.1 hjoin
      obtain ⟨r, rfl⟩ := exists_of_token_genuine hg ht (by cases op <;> decide)
        (by cases op <;> decide) (by cases op <;> decide)
      obtain ⟨c₁, hnext, hrest⟩ := bind_eq_ok_iff.1 h
      obtain ⟨⟨e₁, c₂⟩, hright, hrest⟩ := bind_eq_ok_iff.1 hrest
      obtain ⟨rfl, -⟩ := next_eq_ok_iff.1 hnext
      have hg₁ : ∀ x ∈ r, x.Genuine := fun x hx => hg x (List.mem_cons_of_mem _ hx)
      obtain ⟨y, r₁, hy, rfl, hr, rfl⟩ := ho.sound r e₁ c₂ hg₁ hright
      have hg₂ : ∀ x ∈ r₁, x.Genuine := fun x hx => hg₁ x (hr ▸ List.mem_append_right _ hx)
      obtain ⟨t', r', ha', he, hyield, hc⟩ :=
        ih (t := .joined t op hop y) (Derivation.admitted_joined.2 ⟨ha, hy⟩) hg₂ hrest
      refine ⟨t', r', ha', he, ?_, hc⟩
      rw [← hyield, hr, Derivation.yield, List.append_assoc]
      rfl

/-- Chains are read if their operands are. -/
theorem reads_chained {operand : Parser} {l : Level} {n : Nat} (ho : operand.Reads l.operand n) :
    (chained operand l).Reads (.chain l) n where
  complete t r ha hs := by
    obtain ⟨budget, -, hreach⟩ := chained_reaches ho t r ha (Level.stops_operand hs)
    rw [hreach, chain_of_stops operand budget t.expr n hs]
  sound ls e c hg h := by
    obtain ⟨⟨e₁, c₁⟩, hleft, hrest⟩ := bind_eq_ok_iff.1 h
    obtain ⟨x, r, hx, rfl, rfl, rfl⟩ := ho.sound ls e₁ c₁ hg hleft
    have hg₁ : ∀ l ∈ r, l.Genuine := fun l hl => hg l (List.mem_append_right _ hl)
    exact chain_eq_ok ho (t := .single x) hx hg₁ hrest

/-! ## Whole expressions -/

/-- Expressions are read as long as there is room for the groups in them. -/
theorem reads_expression (room n : Nat) (h : room + n = maxNesting + 1) (hn : n ≤ maxNesting) :
    (expression room).Reads (.chain .sum) n := by
  induction room generalizing n with
  | zero => omega
  | succ room ih =>
    have hprimary := reads_primary hn fun hlt => ih (n + 1) (by omega) hlt
    have hproduct := reads_chained (l := .product) (reads_signed (reads_die hprimary))
    rw [← product_eq_chained] at hproduct
    have hsum := reads_chained (l := .sum) hproduct
    rw [← sum_eq_chained] at hsum
    exact hsum

end Parser

end DiceNotation
