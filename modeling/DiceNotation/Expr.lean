import DiceNotation.Program

/-!
# Expressions

The tree of a dice expression, and the program that it compiles to. The operands of an operator are
compiled in the order in which they are written, and the operator comes behind them, so the program
is the postfix form of the tree, and `Expr.depth` is the greatest depth that its stack reaches.
-/

namespace DiceNotation

/-- A dice expression. -/
inductive Expr
  /-- A number. -/
  | literal (value : Nat)
  /-- An expression in `extra + 1` pairs of parentheses, with nothing between one and the next. -/
  | group (extra : Nat) (body : Expr)
  /-- An expression behind a minus sign. -/
  | negate (body : Expr)
  /-- One die, with no number of dice written before it. -/
  | die (sides : Expr)
  /-- Some dice, all with one number of sides. -/
  | dice (times sides : Expr)
  /-- Two operands with an operator between them. -/
  | arith (op : Arith) (left right : Expr)
  deriving DecidableEq, Repr

namespace Expr

/-- The operations of an expression, followed by `k`. -/
def codeThen : Expr → List Op → List Op
  | literal v, k => .num v :: k
  | group _ e, k => e.codeThen k
  | negate e, k => e.codeThen (.neg :: k)
  | die s, k => .num 1 :: s.codeThen (.dice :: k)
  | dice t s, k => t.codeThen (s.codeThen (.dice :: k))
  | arith op l r, k => l.codeThen (r.codeThen (.arith op :: k))

/-- The operations of an expression: those of its operands, then its own. -/
def code (e : Expr) : List Op :=
  e.codeThen []

/-- How many values are on the stack at most while an expression is computed. The right operand is
computed with the value of the left one below it. -/
def depth : Expr → Nat
  | literal _ => 1
  | group _ e => e.depth
  | negate e => e.depth
  | die s => s.depth + 1
  | dice t s => max t.depth (s.depth + 1)
  | arith _ l r => max l.depth (r.depth + 1)

/-- The code of an expression stands in front of what follows it. -/
theorem codeThen_eq (e : Expr) (k : List Op) : e.codeThen k = e.code ++ k := by
  unfold code
  induction e generalizing k with
  | literal v => rfl
  | group _ e ih => exact ih k
  | negate e ih => simp only [codeThen]; rw [ih, ih [_]]; simp
  | die s ih => simp only [codeThen]; rw [ih, ih [_]]; simp
  | dice t s iht ihs =>
    simp only [codeThen]; rw [iht, ihs, iht (s.codeThen _), ihs [_]]; simp
  | arith op l r ihl ihr =>
    simp only [codeThen]; rw [ihl, ihr, ihl (r.codeThen _), ihr [_]]; simp

/-- A literal is put on the stack. -/
@[simp] theorem code_literal (v : Nat) : (literal v).code = [.num v] := rfl

/-- A group has the code of what stands in it. -/
@[simp] theorem code_group (n : Nat) (e : Expr) : (group n e).code = e.code := rfl

/-- The sign of an operand is turned behind its code. -/
@[simp] theorem code_negate (e : Expr) : (negate e).code = e.code ++ [.neg] :=
  codeThen_eq e _

/-- A single die is rolled like one die of so many sides. -/
@[simp] theorem code_die (s : Expr) : (die s).code = .num 1 :: (s.code ++ [.dice]) :=
  congrArg _ (codeThen_eq s _)

/-- Dice are rolled behind the code of their number and of their sides. -/
@[simp] theorem code_dice (t s : Expr) : (dice t s).code = t.code ++ (s.code ++ [.dice]) := by
  rw [← codeThen_eq s, ← codeThen_eq t]; rfl

/-- An operator follows the code of its operands. -/
@[simp] theorem code_arith (op : Arith) (l r : Expr) :
    (arith op l r).code = l.code ++ (r.code ++ [.arith op]) := by
  rw [← codeThen_eq r, ← codeThen_eq l]; rfl

/-- The program that computes an expression. -/
def program (e : Expr) : Program :=
  ⟨e.code, e.depth⟩

end Expr

end DiceNotation
