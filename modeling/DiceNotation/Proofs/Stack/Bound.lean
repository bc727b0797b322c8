import DiceNotation.Proofs.Grammar.Acceptance
import DiceNotation.Proofs.Stack.Operation

/-!
# How much stack a text can need

A value waits on the stack while the operand to the right of it is computed. The grammar has three places
for that: the left operand of a sum, that of a product, and the number of dice before their sides. An
operand binds more tightly than the operator that it is an operand of, so on the way down to a primary each
place is passed once at most, and only a group opens all of them again. So what an expression needs
depends on the nesting of its groups alone (`Derivation.depth_expr_le`), which is bounded for the texts
that compile, however long they are (`compile_stackSize_le`). So there is always a stack to run their
programs on (`allocationError?_of_parse`).
-/

namespace DiceNotation

open Paren

/-! ## Places where a value waits -/

/-- How many values can wait on the stack on the way from a nonterminal down to a primary. A minus sign
leaves none. -/
def Nonterminal.waiting : Nonterminal → Nat
  | primary => 0
  | dice => 1
  | signed => 1
  | chain .product => 2
  | chain .sum => 3

/-- The nonterminal that makes an expression. -/
def Expr.form : Expr → Nonterminal
  | literal _ => .primary
  | group _ _ => .primary
  | die _ => .dice
  | dice _ _ => .dice
  | negate _ => .signed
  | arith op _ _ => .chain op.level

/-- An expression binds as loosely as what makes it. -/
theorem Expr.rank_form (e : Expr) : e.form.rank = e.rank := by
  cases e <;> rfl

/-- What binds more loosely has no fewer places. -/
theorem Nonterminal.waiting_le {s t : Nonterminal} (h : s.rank ≤ t.rank) : s.waiting ≤ t.waiting := by
  revert h
  rcases s with ⟨_ | _⟩ | _ | _ | _ <;> rcases t with ⟨_ | _⟩ | _ | _ | _ <;> decide

/-- No nonterminal has more than three places. -/
theorem Nonterminal.waiting_le_three (s : Nonterminal) : s.waiting ≤ 3 := by
  rcases s with ⟨_ | _⟩ | _ | _ | _ <;> decide

/-- The operands of an operator have one place less than its chains. -/
theorem Level.waiting_operand_lt (l : Level) : l.operand.waiting < (Nonterminal.chain l).waiting := by
  cases l <;> decide

namespace Derivation

variable {s : Nonterminal}

/-- What a tree stands for has the places of its root at most. -/
theorem waiting_form_le (t : Derivation s) : t.expr.form.waiting ≤ s.waiting := by
  refine Nonterminal.waiting_le ?_
  rw [t.expr.rank_form]
  exact t.rank_expr_le

/-- An expression needs three values for each level of nesting, and one more than can wait above its
outermost groups. -/
theorem depth_expr_le (t : Derivation s) :
    t.expr.depth ≤ 3 * t.expr.nesting + t.expr.form.waiting + 1 := by
  induction t with
  | number ds => exact Nat.le_refl 1
  | paren b ih =>
    rw [expr, Expr.depth_wrap]
    rcases b.expr.wrap_cases with ⟨n, body, he, hw⟩ | ⟨hgroup, hw⟩
    · -- The parentheses belong to the run of the body, which is a group and has no place of its own. This is
      -- why the bound goes by the expression, and not by the root of the tree.
      rw [he] at ih
      rw [he, Expr.nesting_wrap_of_isGroup ⟨n, body, rfl⟩]
      exact ih
    · -- One level more makes up for the three places that the body can have.
      have hbody := b.expr.form.waiting_le_three
      rw [Expr.nesting_wrap_of_not_isGroup hgroup]
      omega
  | bare p ih => exact ih
  | die p ih =>
    have hsides : p.expr.form.waiting ≤ 0 := p.waiting_form_le
    rw [expr, Expr.depth, Expr.nesting]
    show p.expr.depth + 1 ≤ 3 * p.expr.nesting + 1 + 1
    omega
  | dice p q ihp ihq =>
    have htimes : p.expr.form.waiting ≤ 0 := p.waiting_form_le
    have hsides : q.expr.form.waiting ≤ 0 := q.waiting_form_le
    rw [expr, Expr.depth, Expr.nesting]
    show max p.expr.depth (q.expr.depth + 1) ≤ 3 * max p.expr.nesting q.expr.nesting + 1 + 1
    omega
  | plain b ih => exact ih
  | negated b ih =>
    have hbody : b.expr.form.waiting ≤ 1 := b.waiting_form_le
    rw [expr, Expr.depth, Expr.nesting]
    show b.expr.depth ≤ 3 * b.expr.nesting + 1 + 1
    omega
  | single x ih => exact ih
  | @joined l x op level y ihx ihy =>
    -- The left operand is of the chain's own level, and waits while the right one is computed.
    have hleft : x.expr.form.waiting ≤ (Nonterminal.chain l).waiting := x.waiting_form_le
    have hright : y.expr.form.waiting ≤ l.operand.waiting := y.waiting_form_le
    have hoperand := l.waiting_operand_lt
    rw [expr, Expr.depth, Expr.nesting, Expr.form, level]
    omega

end Derivation

/-! ## Texts -/

/-- The expression of a text whose runs of parentheses nest `g` deep at most is `3 * g + 4` deep at most. -/
theorem depth_le_of_parse {text : String} {e : Expr} (h : parse text = .ok e) {g : Nat}
    (hnest : RunsNestBelow g ((lexemes text.toList).map Lexeme.token)) : e.depth ≤ 3 * g + 4 := by
  obtain ⟨hadmissible, t, hyield, rfl⟩ := parse_eq_ok_iff.1 h
  rw [← hyield] at hadmissible hnest
  have hclosed := t.runsClose_tokens_iff.1 hadmissible.runsClose
  have hnesting := (t.runsNestBelow_tokens_iff hclosed g).1 hnest
  have hdepth := t.depth_expr_le
  have hwaiting := t.expr.form.waiting_le_three
  omega

/-- The runs of parentheses of a text that parses nest 64 deep at most. -/
theorem runsNestBelow_of_parse {text : String} {e : Expr} (h : parse text = .ok e) :
    RunsNestBelow 64 ((lexemes text.toList).map Lexeme.token) :=
  (parse_eq_ok_iff.1 h).1.runsNest

/-- There is a stack for every program that a text compiles to, since it holds 196 values at most. -/
theorem allocationError?_of_parse {text : String} {e : Expr} (h : parse text = .ok e) :
    allocationError? e.program.stackSize = none := by
  have hdepth := depth_le_of_parse h (runsNestBelow_of_parse h)
  have hsize : e.program.stackSize = e.depth := rfl
  refine allocationError?_eq_none_iff.2 ?_
  rw [hsize]
  unfold minValue slotCount
  omega

/-- A text that compiles and whose runs of parentheses nest `g` deep at most needs a stack of `3 * g + 4`
values at most. Since none may nest more than 64 deep, no text needs more than 196. -/
theorem compile_stackSize_le {text : String} {p : Program} (h : compile text = .ok p) :
    (∀ g : Nat, RunsNestBelow g ((lexemes text.toList).map Lexeme.token) → p.stackSize ≤ 3 * g + 4) ∧
      p.stackSize ≤ 196 := by
  obtain ⟨e, hparse, rfl⟩ := compile_eq_ok_iff.1 h
  have hbound : ∀ g : Nat, RunsNestBelow g ((lexemes text.toList).map Lexeme.token) →
      e.program.stackSize ≤ 3 * g + 4 := by
    intro g hnest
    have hdepth := depth_le_of_parse hparse hnest
    show (e.depth : Int) ≤ 3 * g + 4
    omega
  exact ⟨hbound, hbound 64 (runsNestBelow_of_parse hparse)⟩

/-- In `1+2*3d(4+5*6d7)` a value waits at each of the three places, outside of the group and in it, so the
bound is attained. -/
theorem compile_stackSize_le_group :
    (∃ p, compile "1+2*3d(4+5*6d7)" = .ok p ∧ p.stackSize = 7) ∧
      ∀ p, compile "1+2*3d(4+5*6d7)" = .ok p → p.stackSize ≤ 3 * 1 + 4 ∧ p.stackSize ≤ 196 := by
  have hcompile : compile "1+2*3d(4+5*6d7)" =
      .ok ⟨[.num 1, .num 2, .num 3, .num 4, .num 5, .num 6, .num 7, .dice, .arith .mul, .arith .add,
        .dice, .arith .mul, .arith .add], 7⟩ := by with_unfolding_all rfl
  have htokens : (lexemes "1+2*3d(4+5*6d7)".toList).map Lexeme.token =
      [.number, .plus, .number, .star, .number, .dice] ++
        .openParen :: ([.number, .plus, .number, .star, .number, .dice, .number] ++ [.closeParen]) := by
    with_unfolding_all rfl
  have hnest : RunsNestBelow 1 ((lexemes "1+2*3d(4+5*6d7)".toList).map Lexeme.token) := by
    rw [htokens, runsNestBelow_append (balanced_of_notMem (by decide) (by decide)),
      runsNestBelow_group (balanced_of_notMem (by decide) (by decide)) (by decide)]
    exact ⟨runsNestBelow_of_notMem (by decide) 1, by decide, runsNestBelow_of_notMem (by decide) 0⟩
  refine ⟨⟨_, hcompile, rfl⟩, fun p hp => ?_⟩
  obtain ⟨hbound, hmost⟩ := compile_stackSize_le hp
  exact ⟨hbound 1 hnest, hmost⟩

end DiceNotation
