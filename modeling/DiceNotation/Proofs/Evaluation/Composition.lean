import DiceNotation.Proofs.Lexing.Gluing
import DiceNotation.Proofs.Stack.Simulation

/-!
# Expressions made of expressions

Two texts in parentheses with an operator between them. Their lexemes stand in the new text as they stood
in the two, so its tree has theirs as operands of the operator, in a group each; what it needs is that the
new parentheses are runs of their own and that there is a level of nesting left for them (`Enclosable`).
Groups add no operation and no depth. So the program is that of the first text, that of the second one and
the operation of the operator, and it is evaluated like that (`compile_connected`).
-/

namespace DiceNotation

open Paren

variable {σ : Type}

/-! ## Operators between operands -/

/-- What can stand between two operands: an operator of arithmetic, or the letter of dice. -/
inductive Connective
  /-- An arithmetic operator. -/
  | arith (op : Arith)
  /-- The letter of dice. -/
  | dice
  deriving DecidableEq, Repr

namespace Connective

/-- The token that a connective is written with. -/
def token : Connective → Token
  | arith op => op.token
  | dice => .dice

/-- The operation that a connective compiles to. -/
def op : Connective → Op
  | arith op => .arith op
  | dice => .dice

/-- What a connective makes of the values of its operands. -/
def apply (S : Sampler σ) (limit : Int) : Connective → Int → Int → Rolling σ Int
  | arith op, x, y => lift (op.apply x y)
  | dice, x, y => rollDice S x y limit

/-- The expression of a connective between two others. -/
def join : Connective → Expr → Expr → Expr
  | arith op, e, f => .arith op e f
  | dice, e, f => .dice e f

/-- A connective is punctuation. -/
theorem exists_punctuation (o : Connective) :
    ∃ c, o.token.symbol.toList = [c] ∧ Token.ofPunctuation? c = some o.token := by
  cases o with
  | arith op => cases op <;> exact ⟨_, rfl, rfl⟩
  | dice => exact ⟨_, rfl, rfl⟩

/-- The operations of two operands and the connective stand in a row. -/
theorem code_join (o : Connective) (e f : Expr) :
    (o.join e f).code = e.code ++ f.code ++ [o.op] := by
  cases o with
  | arith op => rw [join, Expr.code_arith, List.append_assoc]; rfl
  | dice => rw [join, Expr.code_dice, List.append_assoc]; rfl

/-- The second operand is computed above the value of the first one. -/
theorem depth_join (o : Connective) (e f : Expr) : (o.join e f).depth = max e.depth (f.depth + 1) := by
  cases o <;> rfl

/-- The operands of a connective are evaluated before it, the first one first. -/
theorem eval_join (o : Connective) (e f : Expr) (S : Sampler σ) (limit : Int) :
    (o.join e f).eval S limit = (do
      let x ← e.eval S limit
      let y ← f.eval S limit
      o.apply S limit x y) := by
  cases o <;> rfl

/-- Two primaries with a connective between them are an expression, which is admitted as they are. -/
theorem exists_tree (o : Connective) (p q : Derivation .primary) :
    ∃ t : Derivation (.chain .sum), t.yield = p.yield ++ .of o.token :: q.yield ∧
      t.expr = o.join p.expr q.expr ∧ ∀ n, p.Admitted n → q.Admitted n → t.Admitted n := by
  cases o with
  | arith op =>
    cases hop : op.level with
    | sum =>
      exact ⟨.joined (l := .sum) (.single (l := .sum) (.single (l := .product) (.plain (.bare p)))) op
        hop (.single (l := .product) (.plain (.bare q))), rfl, rfl,
        fun n hp hq => Derivation.admitted_joined.2 ⟨hp, hq⟩⟩
    | product =>
      exact ⟨.single (l := .sum) (.joined (l := .product) (.single (l := .product) (.plain (.bare p)))
        op hop (.plain (.bare q))), rfl, rfl,
        fun n hp hq => Derivation.admitted_joined.2 ⟨hp, hq⟩⟩
  | dice =>
    exact ⟨.single (l := .sum) (.single (l := .product) (.plain (.dice p q))), rfl, rfl,
      fun n hp hq => Derivation.admitted_dice.2 ⟨hp, hq⟩⟩

end Connective

/-! ## Groups -/

/-- Parentheses change no value. -/
@[simp] theorem Expr.eval_wrap (e : Expr) (S : Sampler σ) (limit : Int) :
    e.wrap.eval S limit = e.eval S limit := by
  rcases e.wrap_cases with ⟨n, body, rfl, he⟩ | ⟨-, he⟩ <;> rw [he] <;> rfl

/-- Parentheses around a tree that starts with none may stand where the tree could stand one level
deeper. -/
theorem Derivation.admitted_paren {b : Derivation (.chain .sum)} {n : Nat} (hb : b.Admitted (n + 1))
    (ho : b.tokens[0]? ≠ some .openParen) : (paren b).Admitted n := by
  obtain ⟨hfits, hclosed, hnesting⟩ := hb
  have hgroup := b.not_isGroup_of_not_open ho
  refine ⟨?_, runsClosed_parens hgroup ho hclosed 0, ?_⟩
  · rw [yield, List.forall_mem_cons, List.forall_mem_append, List.forall_mem_singleton]
    exact ⟨Lexeme.fits_of (by decide), hfits, Lexeme.fits_of (by decide)⟩
  · rw [expr, Expr.nesting_wrap_of_not_isGroup hgroup]
    omega

/-! ## Texts in parentheses -/

/-- A text that can be put in parentheses: it starts with none itself, and its runs of parentheses nest at
most 63 deep. -/
structure Enclosable (text : String) : Prop where
  /-- No parenthesis opens at the start. -/
  starts : (lexemes text.toList).head?.map Lexeme.token ≠ some .openParen
  /-- There is room for one more group around the text. -/
  nests : RunsNestBelow 63 ((lexemes text.toList).map Lexeme.token)

/-- The text of two others in parentheses with a connective between them. -/
def Connective.text (o : Connective) (a b : String) : String :=
  "(" ++ a ++ ")" ++ o.token.symbol ++ "(" ++ b ++ ")"

/-- The lexemes of the two texts stand in their order, and punctuation around them. -/
theorem Connective.lexemes_text (o : Connective) (a b : String) :
    lexemes (o.text a b).toList =
      .of .openParen :: (lexemes a.toList ++ [.of .closeParen]) ++ .of o.token ::
        .of .openParen :: (lexemes b.toList ++ [.of .closeParen]) := by
  obtain ⟨c, hsymbol, hc⟩ := o.exists_punctuation
  have hopen : Token.ofPunctuation? '(' = some .openParen := rfl
  have hclose : Token.ofPunctuation? ')' = some .closeParen := rfl
  have htext : (o.text a b).toList =
      '(' :: (a.toList ++ ')' :: c :: '(' :: (b.toList ++ [')'])) := by
    simp only [Connective.text, String.toList_append, hsymbol]
    simp
  rw [htext, lexemes_cons_of_punctuation hopen, lexemes_append_punctuation hclose,
    lexemes_cons_of_punctuation hc, lexemes_cons_of_punctuation hopen,
    lexemes_append_punctuation hclose, lexemes_nil]
  simp

/-- A text that compiles and can be put in parentheses has a tree that may stand in a group. -/
theorem Enclosable.exists_tree {text : String} {p : Program} (he : Enclosable text)
    (h : compile text = .ok p) :
    ∃ t : Derivation (.chain .sum), t.yield = lexemes text.toList ∧ parse text = .ok t.expr ∧
      p = t.expr.program ∧ (Derivation.paren t).Admitted 0 := by
  obtain ⟨e, hparse, rfl⟩ := compile_eq_ok_iff.1 h
  obtain ⟨hadmissible, t, hyield, rfl⟩ := parse_eq_ok_iff.1 hparse
  have hgenuine : ∀ l ∈ t.yield, l.Genuine := by
    rw [hyield]
    exact fun l hl => Lexeme.genuine_of_mem_lexemes hl
  rw [← hyield] at hadmissible
  obtain ⟨hfits, hclosed, -⟩ := (t.admitted_zero_iff hgenuine).2 hadmissible
  have hnests : RunsNestBelow 63 t.tokens := by
    rw [Derivation.tokens, hyield]
    exact he.nests
  have hstarts : t.tokens[0]? ≠ some .openParen := by
    rw [Derivation.tokens, hyield, ← List.head?_eq_getElem?, List.head?_map]
    exact he.starts
  have hnesting : 0 + 1 + t.expr.nesting ≤ maxNesting := by
    have hle := (t.runsNestBelow_tokens_iff hclosed 63).1 hnests
    simp only [maxNesting]
    omega
  exact ⟨t, hyield, hparse, rfl, Derivation.admitted_paren ⟨hfits, hclosed, hnesting⟩ hstarts⟩

/-- Two texts that compile, in parentheses with an operator between them, compile to the operations of the
first one, those of the second one and that of the operator, with room for the value of the first one
below the second one. It is evaluated by the first program, the second one with the same sampler, and the
operator on the two results, up to the first of them that fails: with every sampler, limit and state the
outcomes are the same, and so are the calls and the state that is left. -/
theorem compile_connected (o : Connective) {a b : String} {p q : Program} (ha : compile a = .ok p)
    (hb : compile b = .ok q) (hea : Enclosable a) (heb : Enclosable b) :
    ∃ r : Program, compile (o.text a b) = .ok r ∧ r.ops = p.ops ++ q.ops ++ [o.op] ∧
      r.stackSize = max p.stackSize (q.stackSize + 1) ∧
      ∀ {σ : Type} (S : Sampler σ) (limit : Int) (s : σ),
        (r.run S limit).runFrom s =
          Rolling.runFrom (do
            let x ← p.run S limit
            let y ← q.run S limit
            o.apply S limit x y) s ∧
        ∀ calls, (r.run S.recorded limit).runFrom (s, calls) =
          Rolling.runFrom (do
            let x ← p.run S.recorded limit
            let y ← q.run S.recorded limit
            o.apply S.recorded limit x y) (s, calls) := by
  obtain ⟨t, hyt, hpt, rfl, hat⟩ := hea.exists_tree ha
  obtain ⟨u, hyu, hpu, rfl, hau⟩ := heb.exists_tree hb
  obtain ⟨w, hyw, hew, haw⟩ := o.exists_tree (.paren t) (.paren u)
  -- The text of the whole is the yield of the tree that joins the two in parentheses, so it parses to it.
  have hlexemes : w.yield = lexemes (o.text a b).toList := by
    rw [hyw, o.lexemes_text, Derivation.yield, Derivation.yield, hyt, hyu]
  have hgenuine : ∀ l ∈ lexemes (o.text a b).toList, l.Genuine :=
    fun l hl => Lexeme.genuine_of_mem_lexemes hl
  have hparse : parse (o.text a b) = .ok w.expr :=
    (parseLexemes_eq_ok_iff hgenuine).2 ⟨w, hlexemes, haw 0 hat hau, rfl⟩
  have hexpr : w.expr = o.join t.expr.wrap u.expr.wrap := hew
  -- Running each of the three programs is evaluating its expression, which joins as the text does.
  have hrun : ∀ {σ : Type} (S : Sampler σ) (limit : Int), w.expr.program.run S limit = (do
      let x ← t.expr.program.run S limit
      let y ← u.expr.program.run S limit
      o.apply S limit x y) := by
    intro σ S limit
    rw [Expr.run_program S hparse, Expr.run_program S hpt, Expr.run_program S hpu, hexpr, o.eval_join,
      Expr.eval_wrap, Expr.eval_wrap]
  refine ⟨w.expr.program, compile_eq_ok_iff.2 ⟨w.expr, hparse, rfl⟩, ?_, ?_, fun S limit s => ?_⟩
  · show w.expr.code = t.expr.code ++ u.expr.code ++ [o.op]
    rw [hexpr, o.code_join, Expr.code_wrap, Expr.code_wrap]
  · show (w.expr.depth : Int) = max (t.expr.depth : Int) (u.expr.depth + 1)
    rw [hexpr, o.depth_join, Expr.depth_wrap, Expr.depth_wrap]
    omega
  · exact ⟨by rw [hrun], fun calls => by rw [hrun]⟩

/-- The value of `1+1` many dice with as many sides as `2*(3)` says, which has a run of parentheses of its
own below the new one. -/
theorem compile_connected_dice :
    Connective.dice.text "1+1" "2*(3)" = "(1+1)d(2*(3))" ∧
      ∃ r : Program, compile "(1+1)d(2*(3))" = .ok r ∧
        r.ops = [.num 1, .num 1, .arith .add, .num 2, .num 3, .arith .mul, .dice] ∧ r.stackSize = 3 ∧
        (r.run Fixed.sampler 5).runFrom (some 4) = (.ok 10, some 4) ∧
        (r.run Fixed.sampler.recorded 5).runFrom (some 4, []) =
          (.ok 10, some 4, [⟨6, .ok 4⟩, ⟨6, .ok 4⟩]) := by
  have htext : Connective.dice.text "1+1" "2*(3)" = "(1+1)d(2*(3))" := by decide
  have ha : compile "1+1" = .ok ⟨[.num 1, .num 1, .arith .add], 2⟩ := by with_unfolding_all rfl
  have hb : compile "2*(3)" = .ok ⟨[.num 2, .num 3, .arith .mul], 2⟩ := by with_unfolding_all rfl
  have hta : (lexemes "1+1".toList).map Lexeme.token = [.number, .plus, .number] := by
    with_unfolding_all rfl
  have htb : (lexemes "2*(3)".toList).map Lexeme.token =
      [.number, .star, .openParen, .number, .closeParen] := by with_unfolding_all rfl
  have hnumber : Balanced [Token.number] := balanced_other (by decide) (by decide)
  have hplus : Balanced [Token.plus] := balanced_other (by decide) (by decide)
  have hstar : Balanced [Token.star] := balanced_other (by decide) (by decide)
  have hea : Enclosable "1+1" := by
    refine ⟨by rw [← List.head?_map, hta]; decide, ?_⟩
    rw [hta]
    exact (runsNestBelow_append hnumber 63).2 ⟨runsNestBelow_other (by decide) 63,
      (runsNestBelow_append hplus 63).2 ⟨runsNestBelow_other (by decide) 63,
        runsNestBelow_other (by decide) 63⟩⟩
  have heb : Enclosable "2*(3)" := by
    refine ⟨by rw [← List.head?_map, htb]; decide, ?_⟩
    rw [htb]
    exact (runsNestBelow_append hnumber 63).2 ⟨runsNestBelow_other (by decide) 63,
      (runsNestBelow_append hstar 63).2 ⟨runsNestBelow_other (by decide) 63,
        (runsNestBelow_group hnumber (by decide) 63).2
          ⟨by decide, runsNestBelow_other (by decide) 62⟩⟩⟩
  obtain ⟨r, hr, hops, hsize, hrun⟩ := compile_connected .dice ha hb hea heb
  rw [htext] at hr
  obtain ⟨hplain, hrecorded⟩ := hrun Fixed.sampler 5 (some 4)
  exact ⟨htext, r, hr, hops, hsize, hplain, hrecorded []⟩

end DiceNotation
