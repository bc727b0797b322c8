import DiceNotation.Proofs.Stack.Bound
import DiceNotation.Random.Generator

/-!
# Programs compute their expressions

The program of an expression does on the stack what `Expr.eval` does along the tree. The lemma behind it
is about the code of an expression in front of other operations and above other values: it puts the
value of the expression on the stack and leaves the rest to the operations that follow
(`executeAll_codeThen`). It needs as much room as the expression is deep, which is what a program claims
for its stack. The two sides are equal as computations, so they agree in the outcome, in what they ask
the sampler and in the state that it is left in, also where they fail on the way.
-/

namespace DiceNotation

variable {σ : Type} (S : Sampler σ)

/-- An expression needs room for its value. -/
theorem Expr.depth_pos (e : Expr) : 0 < e.depth := by
  induction e with
  | literal v => exact Nat.zero_lt_one
  | group n e ih => exact ih
  | negate e ih => exact ih
  | die s ih => exact Nat.succ_pos _
  | dice t s iht ihs => exact lt_max_of_lt_left iht
  | arith op l r ihl ihr => exact lt_max_of_lt_left ihl

/-- Where there is room for an expression there is room for its value. -/
theorem Expr.lt_of_room (e : Expr) {size : Int} {stack : List Int}
    (h : (stack.length : Int) + e.depth ≤ size) : stack.length < size := by
  have hpos := e.depth_pos
  omega

/-- The value of a left operand takes one place from its right operand. -/
theorem Expr.room_cons (e : Expr) {size : Int} {stack : List Int} (v : Int)
    (h : (stack.length : Int) + (e.depth + 1 : Nat) ≤ size) :
    ((v :: stack).length : Int) + e.depth ≤ size := by
  rw [List.length_cons]
  omega

section

variable {size : Int} (limit : Int) (ops : List Op) {stack : List Int}

/-- A number is put on the stack. -/
theorem executeAll_num (v : Int) (h : stack.length < size) :
    executeAll S size limit (.num v :: ops) stack = executeAll S size limit ops (v :: stack) := by
  rw [executeAll_cons S limit (.num v) ops (Nat.zero_le _) h, Op.value, pure_bind]
  rfl

/-- The topmost value is negated. -/
theorem executeAll_neg (v : Int) (h : stack.length < size) :
    executeAll S size limit (.neg :: ops) (v :: stack) =
      (lift (checked (-v)) >>= fun v => executeAll S size limit ops (v :: stack)) :=
  executeAll_cons S limit .neg ops (Nat.le_add_left _ _) h

/-- The two topmost values are joined by an operator. -/
theorem executeAll_arith (op : Arith) (l r : Int) (h : stack.length < size) :
    executeAll S size limit (.arith op :: ops) (r :: l :: stack) =
      (lift (op.apply l r) >>= fun v => executeAll S size limit ops (v :: stack)) :=
  executeAll_cons S limit (.arith op) ops (Nat.le_add_left _ _) h

/-- The two topmost values are rolled as dice. -/
theorem executeAll_dice (times sides : Int) (h : stack.length < size) :
    executeAll S size limit (.dice :: ops) (sides :: times :: stack) =
      (rollDice S times sides limit >>= fun v => executeAll S size limit ops (v :: stack)) :=
  executeAll_cons S limit .dice ops (Nat.le_add_left _ _) h

end

/-- The code of an expression puts its value on the stack, as far as there is room for it. The
operations behind it and the values below it are any, since the code of an operand stands before other
operations and runs above the operands to its left. -/
theorem executeAll_codeThen (e : Expr) {size : Int} (limit : Int) (k : List Op) (stack : List Int)
    (h : (stack.length : Int) + e.depth ≤ size) :
    executeAll S size limit (e.codeThen k) stack =
      (e.eval S limit >>= fun v => executeAll S size limit k (v :: stack)) := by
  induction e generalizing k stack with
  | literal v =>
    rw [Expr.codeThen, executeAll_num S limit k v (Expr.lt_of_room _ h), Expr.eval, pure_bind]
  | group n e ih => exact ih k stack h
  | negate e ih =>
    rw [Expr.codeThen, ih _ stack h, Expr.eval, bind_assoc]
    exact bind_congr fun v => executeAll_neg S limit k v (e.lt_of_room h)
  | die s ih =>
    have hroom := Expr.lt_of_room _ h
    rw [Expr.codeThen, executeAll_num S limit _ 1 hroom, ih _ (1 :: stack) (s.room_cons 1 h),
      Expr.eval, bind_assoc]
    exact bind_congr fun sides => executeAll_dice S limit k 1 sides hroom
  | dice t s iht ihs =>
    -- The depth of two operands leaves room for the second one above the value of the first.
    have hroom := Expr.lt_of_room _ h
    rw [Expr.depth] at h
    have hleft : (stack.length : Int) + t.depth ≤ size := by omega
    have hright : (stack.length : Int) + (s.depth + 1 : Nat) ≤ size := by omega
    rw [Expr.codeThen, iht _ stack hleft, Expr.eval, bind_assoc]
    refine bind_congr fun times => ?_
    rw [ihs _ (times :: stack) (s.room_cons times hright), bind_assoc]
    exact bind_congr fun sides => executeAll_dice S limit k times sides hroom
  | arith op l r ihl ihr =>
    have hroom := Expr.lt_of_room _ h
    rw [Expr.depth] at h
    have hleft : (stack.length : Int) + l.depth ≤ size := by omega
    have hright : (stack.length : Int) + (r.depth + 1 : Nat) ≤ size := by omega
    rw [Expr.codeThen, ihl _ stack hleft, Expr.eval, bind_assoc]
    refine bind_congr fun a => ?_
    rw [ihr _ (a :: stack) (r.room_cons a hright), bind_assoc]
    exact bind_congr fun b => executeAll_arith S limit k op a b hroom

/-- The program of an expression computes its value. -/
theorem Expr.compute_program (e : Expr) (limit : Int) : e.program.compute S limit = e.eval S limit := by
  have hroom : (([] : List Int).length : Int) + e.depth ≤ e.depth := by
    rw [List.length_nil, Int.natCast_zero, Int.zero_add]
  have hcode := executeAll_codeThen S e limit [] [] hroom
  show (executeAll S e.depth limit e.code [] >>= _) = _
  rw [Expr.code, hcode, bind_assoc]
  show (e.eval S limit >>= pure) = _
  exact bind_pure _

/-- The program of a text runs as its expression is evaluated. -/
theorem Expr.run_program {text : String} {e : Expr} (h : parse text = .ok e) (limit : Int) :
    e.program.run S limit = e.eval S limit := by
  rw [e.program.run_of_allocated S (allocationError?_of_parse h), e.compute_program]

/-- What a text compiles to is evaluated as its derivation tree is: with every sampler, limit and state
the outcomes are the same, and so are the questions to the sampler and the state that it is left in. -/
theorem run_eq_eval {text : String} {p : Program} (h : compile text = .ok p) :
    ∃ t : Derivation (.chain .sum), t.yield = lexemes text.toList ∧ parse text = .ok t.expr ∧
      ∀ {σ : Type} (S : Sampler σ) (limit : Int) (s : σ),
        (p.run S limit).runFrom s = (t.expr.eval S limit).runFrom s ∧
        ∀ calls, (p.run S.recorded limit).runFrom (s, calls) =
          (t.expr.eval S.recorded limit).runFrom (s, calls) := by
  obtain ⟨e, hparse, rfl⟩ := compile_eq_ok_iff.1 h
  obtain ⟨-, t, hyield, rfl⟩ := parse_eq_ok_iff.1 hparse
  refine ⟨t, hyield, hparse, fun S limit s => ⟨?_, fun calls => ?_⟩⟩
  · rw [Expr.run_program S hparse]
  · rw [Expr.run_program S.recorded hparse]

/-- The tree of `2d6-1` has the value 5 where each die shows a 3. -/
theorem run_eq_eval_dice :
    ∃ t : Derivation (.chain .sum), t.yield = lexemes "2d6-1".toList ∧ parse "2d6-1" = .ok t.expr ∧
      (t.expr.eval Fixed.sampler 2).runFrom (some 2) = (.ok 5, some 2) := by
  have hcompile : compile "2d6-1" =
      .ok ⟨[.num 2, .num 6, .dice, .num 1, .arith .sub], 2⟩ := by with_unfolding_all rfl
  obtain ⟨t, hyield, hparse, heval⟩ := run_eq_eval hcompile
  exact ⟨t, hyield, hparse, (heval Fixed.sampler 2 (some 2)).1.symm.trans rfl⟩

end DiceNotation
