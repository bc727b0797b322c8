import DiceNotation.Parse

/-!
# The grammar of dice notation

The grammar in its plain form, where a group is any expression between two parentheses, given by its
derivation trees. `Derivation s` is the type of the trees with the nonterminal `s` at their root:

* a chain of sums is a chain of products, or a chain of sums, `+` or `-`, and a chain of products;
* a chain of products is a signed operand, or a chain of products, `*` or `/`, and a signed operand;
* a signed operand is dice with a minus sign before them or without;
* dice are `d` and a primary, a primary, or two primaries with `d` between them;
* a primary is a number, or a chain of sums in parentheses.

`yield` is the sequence of lexemes at the leaves of a tree, `code` its translation to postfix form,
and `expr` the expression that it stands for. A tree is determined by its yield and its expression
together (`Derivation.ext_yield_expr`), which is what makes the trees of the texts that parse unique.
-/

namespace DiceNotation

/-! ## Nonterminals -/

/-- The two levels of operators that are joined in chains from the left. -/
inductive Level
  | sum
  | product
  deriving DecidableEq, Repr

/-- The nonterminals of the grammar. -/
inductive Nonterminal
  /-- Operands with the operators of one level between them. -/
  | chain (level : Level)
  /-- Dice, with a minus sign before them or without. -/
  | signed
  /-- A roll, or a primary alone. -/
  | dice
  /-- A number or a group. -/
  | primary
  deriving DecidableEq, Repr

/-- What the operators of a level join. -/
def Level.operand : Level → Nonterminal
  | .sum => .chain .product
  | .product => .signed

/-- The level of an operator. -/
def Arith.level : Arith → Level
  | .add | .sub => .sum
  | .mul | .div => .product

/-- The token of an operator. -/
def Arith.token : Arith → Token
  | .add => .plus
  | .sub => .minus
  | .mul => .star
  | .div => .slash

/-- How loosely a nonterminal binds what it is made of. -/
def Nonterminal.rank : Nonterminal → Nat
  | primary => 0
  | dice => 1
  | signed => 2
  | chain .product => 3
  | chain .sum => 4

/-- The lexeme of a token that is always spelled in the same way. -/
def Lexeme.of (t : Token) : Lexeme :=
  ⟨t, t.symbol.toList⟩

/-- The lexeme of a token has that token. -/
@[simp] theorem Lexeme.token_of (t : Token) : (Lexeme.of t).token = t := rfl

/-! ## Trees -/

/-- A derivation tree of the grammar. -/
inductive Derivation : Nonterminal → Type
  /-- A number, with the digits that it is written with. -/
  | number (digits : List Char) : Derivation .primary
  /-- An expression in a pair of parentheses. -/
  | paren (body : Derivation (.chain .sum)) : Derivation .primary
  /-- A primary where dice may stand. -/
  | bare (operand : Derivation .primary) : Derivation .dice
  /-- One die. -/
  | die (sides : Derivation .primary) : Derivation .dice
  /-- A number of dice. -/
  | dice (times sides : Derivation .primary) : Derivation .dice
  /-- Dice without a sign. -/
  | plain (body : Derivation .dice) : Derivation .signed
  /-- Dice behind a minus sign. -/
  | negated (body : Derivation .dice) : Derivation .signed
  /-- A chain of one operand. -/
  | single {l : Level} (operand : Derivation l.operand) : Derivation (.chain l)
  /-- A chain that is made longer by an operator of its level and an operand. -/
  | joined {l : Level} (left : Derivation (.chain l)) (op : Arith) (level : op.level = l)
      (right : Derivation l.operand) : Derivation (.chain l)

namespace Derivation

/-- The lexemes at the leaves of a tree. -/
def yield {s : Nonterminal} : Derivation s → List Lexeme
  | number ds => [⟨.number, ds⟩]
  | paren b => .of .openParen :: (b.yield ++ [.of .closeParen])
  | bare p => p.yield
  | die p => .of .dice :: p.yield
  | dice p q => p.yield ++ .of .dice :: q.yield
  | plain b => b.yield
  | negated b => .of .minus :: b.yield
  | single x => x.yield
  | joined x op _ y => x.yield ++ .of op.token :: y.yield

/-- The postfix form of a tree: operands in the order of the text, each operator behind its own. -/
def code {s : Nonterminal} : Derivation s → List Op
  | number ds => [.num (digitsValue ds)]
  | paren b => b.code
  | bare p => p.code
  | die p => .num 1 :: (p.code ++ [.dice])
  | dice p q => p.code ++ (q.code ++ [.dice])
  | plain b => b.code
  | negated b => b.code ++ [.neg]
  | single x => x.code
  | joined x op _ y => x.code ++ (y.code ++ [.arith op])

end Derivation

/-- An expression in one more pair of parentheses, which is part of the run where there is one. -/
def Expr.wrap : Expr → Expr
  | group n e => group (n + 1) e
  | e => group 0 e

/-- The expression that a tree stands for: the parentheses of a run are one group. -/
def Derivation.expr {s : Nonterminal} : Derivation s → Expr
  | number ds => .literal (digitsValue ds)
  | paren b => b.expr.wrap
  | bare p => p.expr
  | die p => .die p.expr
  | dice p q => .dice p.expr q.expr
  | plain b => b.expr
  | negated b => .negate b.expr
  | single x => x.expr
  | joined x op _ y => .arith op x.expr y.expr

/-! ## Expressions of trees -/

namespace Expr

/-- Whether an expression is a group. -/
def IsGroup (e : Expr) : Prop :=
  ∃ n body, e = group n body

/-- A group in one more pair of parentheses is a group with one more pair, and anything else becomes
a group of one pair. -/
theorem wrap_cases (e : Expr) :
    (∃ n body, e = group n body ∧ e.wrap = group (n + 1) body) ∨
      (¬ e.IsGroup ∧ e.wrap = group 0 e) := by
  cases e with
  | group n body => exact .inl ⟨n, body, rfl, rfl⟩
  | literal v => exact .inr ⟨by simp [IsGroup], rfl⟩
  | negate e => exact .inr ⟨by simp [IsGroup], rfl⟩
  | die e => exact .inr ⟨by simp [IsGroup], rfl⟩
  | dice e f => exact .inr ⟨by simp [IsGroup], rfl⟩
  | arith op e f => exact .inr ⟨by simp [IsGroup], rfl⟩

/-- Parentheses around different expressions make different expressions. -/
theorem wrap_injective {e f : Expr} (h : e.wrap = f.wrap) : e = f := by
  rcases wrap_cases e with ⟨n, a, rfl, he⟩ | ⟨hne, he⟩ <;>
    rcases wrap_cases f with ⟨m, b, rfl, hf⟩ | ⟨hnf, hf⟩ <;> rw [he, hf] at h
  · injection h with h1 h2
    rw [Nat.succ.inj h1, h2]
  · injection h with h1 h2
    exact absurd h1 (Nat.succ_ne_zero n)
  · injection h with h1 h2
    exact absurd h1.symm (Nat.succ_ne_zero m)
  · injection h

/-- Parentheses add no operation. -/
@[simp] theorem code_wrap (e : Expr) : e.wrap.code = e.code := by
  rcases wrap_cases e with ⟨n, a, rfl, he⟩ | ⟨-, he⟩ <;> rw [he] <;> simp

/-- Parentheses need no room on the stack. -/
@[simp] theorem depth_wrap (e : Expr) : e.wrap.depth = e.depth := by
  rcases wrap_cases e with ⟨n, a, rfl, he⟩ | ⟨-, he⟩ <;> rw [he] <;> rfl

end Expr

/-- How loosely an expression binds what it is made of: the rank of the nonterminal that makes it. -/
def Expr.rank : Expr → Nat
  | literal _ => Nonterminal.primary.rank
  | group _ _ => Nonterminal.primary.rank
  | die _ => Nonterminal.dice.rank
  | dice _ _ => Nonterminal.dice.rank
  | negate _ => Nonterminal.signed.rank
  | arith op _ _ => (Nonterminal.chain op.level).rank

/-- How many lexemes an expression is written with. -/
def Expr.width : Expr → Nat
  | literal _ => 1
  | group n e => e.width + 2 * (n + 1)
  | die s => s.width + 1
  | dice t s => t.width + s.width + 1
  | negate e => e.width + 1
  | arith _ l r => l.width + r.width + 1

/-- Parentheses take two lexemes. -/
@[simp] theorem Expr.width_wrap (e : Expr) : e.wrap.width = e.width + 2 := by
  rcases e.wrap_cases with ⟨n, a, rfl, he⟩ | ⟨-, he⟩
  · rw [he, width, width]
    omega
  · rw [he, width]

/-- Parentheses make a primary. -/
@[simp] theorem Expr.rank_wrap (e : Expr) : e.wrap.rank = Nonterminal.primary.rank := by
  rcases e.wrap_cases with ⟨n, a, rfl, he⟩ | ⟨-, he⟩ <;> rw [he] <;> rfl

/-- An operator makes a chain of its level. -/
theorem Expr.rank_arith {op : Arith} {l : Level} (h : op.level = l) (x y : Expr) :
    (arith op x y).rank = (Nonterminal.chain l).rank := by
  rw [rank, h]

/-- The operands of a level bind more tightly than its chains. -/
theorem Level.rank_operand_lt (l : Level) : l.operand.rank < (Nonterminal.chain l).rank := by
  cases l <;> decide

namespace Derivation

variable {s : Nonterminal}

/-- The operations of a tree are those of its expression. -/
@[simp] theorem code_expr (t : Derivation s) : t.expr.code = t.code := by
  induction t with
  | number ds => rfl
  | paren b ih => rw [expr, code, Expr.code_wrap, ih]
  | bare p ih => exact ih
  | die p ih => rw [expr, code, Expr.code_die, ih]
  | dice p q ihp ihq => rw [expr, code, Expr.code_dice, ihp, ihq]
  | plain b ih => exact ih
  | negated b ih => rw [expr, code, Expr.code_negate, ih]
  | single x ih => exact ih
  | joined x op _ y ihx ihy => rw [expr, code, Expr.code_arith, ihx, ihy]

/-- The expression of a tree binds at least as tightly as its root. -/
theorem rank_expr_le (t : Derivation s) : t.expr.rank ≤ s.rank := by
  induction t with
  | number ds => exact Nat.le_refl _
  | paren b ih => exact Nat.le_of_eq (Expr.rank_wrap _)
  | bare p ih => exact Nat.le_succ_of_le ih
  | die p ih => exact Nat.le_refl _
  | dice p q ihp ihq => exact Nat.le_refl _
  | plain b ih => exact Nat.le_succ_of_le ih
  | negated b ih => exact Nat.le_refl _
  | @single l x ih => exact Nat.le_of_lt (Nat.lt_of_le_of_lt ih l.rank_operand_lt)
  | joined x op level y ihx ihy => exact Nat.le_of_eq (Expr.rank_arith level _ _)

/-- A tree does not stand for an expression that binds less tightly than its root. -/
theorem expr_ne_of_rank_lt (t : Derivation s) {e : Expr} (h : s.rank < e.rank) : t.expr ≠ e := by
  intro he
  have hle := t.rank_expr_le
  rw [he] at hle
  exact Nat.not_le.2 h hle

/-- An operand alone does not stand for what an operator of its level makes. -/
theorem expr_ne_arith {l : Level} (x : Derivation l.operand) {op : Arith} (h : op.level = l)
    (e f : Expr) : x.expr ≠ .arith op e f := by
  refine x.expr_ne_of_rank_lt ?_
  rw [Expr.rank_arith h]
  exact l.rank_operand_lt

/-- The expression of a tree tells how long its yield is. -/
theorem length_yield (t : Derivation s) : t.yield.length = t.expr.width := by
  induction t with
  | number ds => rfl
  | paren b ih =>
    rw [yield, expr, Expr.width_wrap, ← ih, List.length_cons, List.length_append,
      List.length_singleton]
  | bare p ih => exact ih
  | die p ih => rw [yield, expr, Expr.width, ← ih, List.length_cons]
  | dice p q ihp ihq =>
    rw [yield, expr, Expr.width, ← ihp, ← ihq, List.length_append, List.length_cons]
    omega
  | plain b ih => exact ih
  | negated b ih => rw [yield, expr, Expr.width, ← ih, List.length_cons]
  | single x ih => exact ih
  | joined x op _ y ihx ihy =>
    rw [yield, expr, Expr.width, ← ihx, ← ihy, List.length_append, List.length_cons]
    omega

/-- A tree is determined by its yield and its expression. The expression fixes the constructor at each
node and, by the widths of the operands, where the yield is split between them; what is left are the
digits, which stand in the yield. -/
theorem ext_yield_expr {t t' : Derivation s} (hy : t.yield = t'.yield) (he : t.expr = t'.expr) :
    t = t' := by
  -- Trees of different constructors have expressions of different rank.
  have hprimary : Nonterminal.primary.rank < Nonterminal.dice.rank := by decide
  have hdice : Nonterminal.dice.rank < Nonterminal.signed.rank := by decide
  induction t with
  | number ds =>
    cases t' with
    | number ds' => simpa [yield] using hy
    | paren b' => simp [yield, Lexeme.of] at hy
  | paren b ih =>
    cases t' with
    | number ds' => simp [yield, Lexeme.of] at hy
    | paren b' =>
      have hyield : b.yield = b'.yield := by simpa [yield] using hy
      rw [ih hyield (Expr.wrap_injective he)]
  | bare p ih =>
    cases t' with
    | bare p' => rw [ih hy he]
    | die p' => exact absurd he (p.expr_ne_of_rank_lt hprimary)
    | dice p' q' => exact absurd he (p.expr_ne_of_rank_lt hprimary)
  | die p ih =>
    cases t' with
    | bare p' => exact absurd he.symm (p'.expr_ne_of_rank_lt hprimary)
    | die p' =>
      have hyield : p.yield = p'.yield := by simpa [yield] using hy
      rw [ih hyield (Expr.die.inj he)]
    | dice p' q' => cases he
  | dice p q ihp ihq =>
    cases t' with
    | bare p' => exact absurd he.symm (p'.expr_ne_of_rank_lt hprimary)
    | die p' => cases he
    | dice p' q' =>
      obtain ⟨hep, heq⟩ := Expr.dice.inj he
      -- The operands on the left are equally long, so the yields are split at the same place.
      have hlen : p.yield.length = p'.yield.length := by rw [length_yield, length_yield, hep]
      obtain ⟨hp, hq⟩ := List.append_inj hy hlen
      rw [ihp hp hep, ihq (List.cons.inj hq).2 heq]
  | plain b ih =>
    cases t' with
    | plain b' => rw [ih hy he]
    | negated b' => exact absurd he (b.expr_ne_of_rank_lt hdice)
  | negated b ih =>
    cases t' with
    | plain b' => exact absurd he.symm (b'.expr_ne_of_rank_lt hdice)
    | negated b' =>
      have hyield : b.yield = b'.yield := by simpa [yield] using hy
      rw [ih hyield (Expr.negate.inj he)]
  | @single l x ih =>
    cases t' with
    | single x' => rw [ih hy he]
    | joined x' op' level' y' => exact absurd he (x.expr_ne_arith level' _ _)
  | @joined l x op level y ihx ihy =>
    cases t' with
    | single x' => exact absurd he.symm (x'.expr_ne_arith level _ _)
    | joined x' op' level' y' =>
      obtain ⟨hop, hex, hey⟩ := Expr.arith.inj he
      have hlen : x.yield.length = x'.yield.length := by rw [length_yield, length_yield, hex]
      obtain ⟨hx, hy⟩ := List.append_inj hy hlen
      cases hop
      rw [ihx hx hex, ihy (List.cons.inj hy).2 hey]

end Derivation

end DiceNotation
