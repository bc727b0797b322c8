import DiceNotation.Proofs.Grammar.Acceptance
import DiceNotation.Proofs.Grammar.Descent
import DiceNotation.Proofs.Lexing.Gluing

/-!
# The parsers take these steps

`Parser.DoneBy p r n` says that a descent which calls the routine `r` with `n` groups open comes to where the
parser `p` does, with the code of the expression that it reads, or fails as it fails. Each parser gets this
from the parsers that it calls, and an expression by induction on the room that is left for groups. So a
descent ends as the text compiles (`endsWith_compile`), and what is true of the states on its way is true of
how texts are parsed (`descent_progress`).
-/

namespace DiceNotation

open Descent

/-! ## Where a descent comes to -/

namespace Descent

/-- A descent comes to a state, or to a task that cannot be done and its error. -/
def Comes (s : Descent) : Except SyntaxError Descent → Prop
  | .ok s' => s.Reaches s'
  | .error e => ∃ s', s.Reaches s' ∧ s'.step = .error e

variable {s : Descent} {x : Except SyntaxError Descent}

/-- A descent comes to where its first step leads. -/
theorem Comes.of_step_eq (h : s.step = x) : s.Comes x := by
  subst h
  rcases htasks : s.tasks with _ | ⟨t, rest⟩
  · -- Where no task is left, it has come to where it is.
    have hstep : s.step = .ok s := by
      rw [step, htasks]
    rw [hstep]
    exact .refl
  · rcases hstep : s.step with e | s'
    · exact ⟨s, .refl, hstep⟩
    · have hne : s.tasks ≠ [] := by
        rw [htasks]
        exact List.cons_ne_nil t rest
      exact .single ⟨hne, hstep⟩

/-- Where a descent comes to, it goes on from. -/
theorem Reaches.comes {s' : Descent} (h : s.Reaches s') (hrest : s'.Comes x) : s.Comes x := by
  rcases x with e | s''
  · obtain ⟨m, hm, he⟩ := hrest
    exact ⟨m, h.trans hm, he⟩
  · exact h.trans hrest

/-- A descent goes on from where its first step leads. -/
theorem Comes.head {s' : Descent} (h : s.step = .ok s') (hrest : s'.Comes x) : s.Comes x := by
  have hfirst := Comes.of_step_eq h
  exact Reaches.comes hfirst hrest

/-- A step that starts with a computation fails as it fails, and else is what comes behind it. -/
theorem Comes.of_step {α : Type} {y : Except SyntaxError α} {g f : α → Except SyntaxError Descent}
    (h : s.step = y >>= g) (hf : ∀ a, y = .ok a → s.step = g a → s.Comes (f a)) : s.Comes (y >>= f) := by
  rcases y with e | a
  · exact .of_step_eq h
  · exact hf a rfl h

/-- A descent that moves its cursor on goes on from there. -/
theorem Comes.of_next {ls : List Lexeme} {n : Nat} {g : Cursor → Descent}
    {f : Cursor → Except SyntaxError Descent}
    (h : s.step = Cursor.next ⟨ls, n⟩ >>= fun c => .ok (g c))
    (hf : (g ⟨ls.tail, n⟩).Comes (f ⟨ls.tail, n⟩)) : s.Comes (Cursor.next ⟨ls, n⟩ >>= f) := by
  refine .of_step h fun c hnext hstep => ?_
  obtain ⟨rfl, -⟩ := Cursor.next_eq_ok_iff.1 hnext
  exact .head hstep hf

end Descent

/-! ## Parsers -/

/-- A descent that calls the routine comes to where the parser does, with what it reads. -/
def Parser.DoneBy (p : Parser) (r : Routine) (n : Nat) : Prop :=
  ∀ (ls : List Lexeme) (out : Output) (rest : List Task),
    Comes ⟨⟨ls, n⟩, out, .call r :: rest⟩
      (p ⟨ls, n⟩ >>= fun a => .ok ⟨a.2, out.emitAll a.1.code, rest⟩)

namespace Parser

open Cursor

variable {p inner operand : Parser} {r : Routine} {n : Nat} {out : Output} {rest : List Task}

/-- A parser that is done by a routine passes a lexeme, and leaves as many groups open as it finds. -/
theorem DoneBy.of_eq_ok (h : p.DoneBy r n) {ls : List Lexeme} {e : Expr} {c : Cursor}
    (hp : p ⟨ls, n⟩ = .ok (e, c)) :
    c.rest <:+ ls ∧ c.rest.length < ls.length ∧ c.nesting = n := by
  have hcomes := h ls .empty []
  rw [hp] at hcomes
  obtain ⟨hsuffix, hlength, hnesting, -⟩ := Reaches.of_call (n := n) hcomes rfl rfl
  exact ⟨hsuffix, hlength, hnesting⟩

/-- Behind a call a descent goes on from where the parser does. -/
theorem DoneBy.bind (h : p.DoneBy r n) {ls : List Lexeme} {f : Expr × Cursor → Except SyntaxError Descent}
    (hf : ∀ e ls', ls'.length < ls.length →
      Comes ⟨⟨ls', n⟩, out.emitAll e.code, rest⟩ (f (e, ⟨ls', n⟩))) :
    Comes ⟨⟨ls, n⟩, out, .call r :: rest⟩ (p ⟨ls, n⟩ >>= f) := by
  have hcomes := h ls out rest
  rcases hp : p ⟨ls, n⟩ with e | ⟨e, ⟨ls', m⟩⟩
  · rwa [hp] at hcomes
  · obtain ⟨-, hlength, rfl⟩ := h.of_eq_ok hp
    rw [hp] at hcomes
    exact Reaches.comes hcomes (hf e ls' hlength)

/-! ## Primaries -/

/-- A descent passes the rest of a run of parentheses that open. -/
theorem comes_openRun {budget ls : List Lexeme} (run : Nat) (h : ls.length ≤ budget.length)
    {f : Nat × Cursor → Except SyntaxError Descent}
    (hf : ∀ run' ls', Comes ⟨⟨ls', n⟩, out, .call (.chain .sum) :: .closing (run' + 1) :: rest⟩
      (f (run', ⟨ls', n⟩))) :
    Comes ⟨⟨ls, n⟩, out, .opening (run + 1) :: rest⟩ (openRun budget run ⟨ls, n⟩ >>= f) := by
  induction budget generalizing ls run with
  | nil =>
    obtain rfl := List.eq_nil_of_length_eq_zero (Nat.le_zero.1 h)
    exact .head rfl (hf run [])
  | cons b budget ih =>
    rw [List.length_cons] at h
    by_cases htoken : token ⟨ls, n⟩ = .openParen
    · rw [openRun, if_pos htoken, bind_assoc]
      refine .of_next (if_pos htoken) (ih (run + 1) ?_)
      rw [List.length_tail]
      omega
    · rw [openRun, if_neg htoken]
      exact .head (if_neg htoken) (hf run ls)

/-- A descent passes parentheses that close, and the group is closed. -/
theorem comes_closeRun (left : Nat) (c : Cursor) :
    Comes ⟨c, out, .closing left :: rest⟩ (closeRun left c >>= fun c' =>
      .ok ⟨{ c' with nesting := c'.nesting - 1 }, out, rest⟩) := by
  induction left generalizing c with
  | zero => exact .of_step_eq rfl
  | succ left ih =>
    rw [closeRun, bind_assoc]
    exact .of_step rfl fun c' _ hstep => .head hstep (ih c')

/-- A descent has read an expression when its code has been emitted. -/
theorem comes_emitted {out out' : Output} {e : Expr} (c : Cursor) (rest : List Task)
    (h : out' = out.emitAll e.code) : Comes ⟨c, out', rest⟩ (.ok ⟨c, out.emitAll e.code, rest⟩) := by
  rw [h]
  exact .refl

/-- A group is a run of parentheses that open, what stands in them, and as many that close. -/
theorem primary_paren (inner : Parser) (chars : List Char) (ls : List Lexeme) (n : Nat) :
    primary inner ⟨⟨.openParen, chars⟩ :: ls, n⟩ =
      (next ⟨⟨.openParen, chars⟩ :: ls, n⟩ >>= fun c =>
        if maxNesting ≤ c.nesting then .error (.unexpectedInput (String.ofList chars))
        else openRun c.rest 0 ⟨c.rest, c.nesting + 1⟩ >>= fun run => inner run.2 >>= fun body =>
          closeRun (run.1 + 1) body.2 >>= fun c =>
            .ok (.group run.1 body.1, ⟨c.rest, c.nesting - 1⟩)) := by
  rfl

/-- Numbers and groups. What stands in a group is parsed with one more group open. -/
theorem doneBy_primary (hinner : n < maxNesting → inner.DoneBy (.chain .sum) (n + 1)) :
    (primary inner).DoneBy .primary n := by
  intro ls out rest
  cases ls with
  | nil => exact .of_step_eq rfl
  | cons l ls =>
    obtain ⟨t, chars⟩ := l
    cases t with
    | number =>
      rw [primary_number]
      simp only [bind_assoc, ok_bind]
      exact .of_step_eq rfl
    | openParen =>
      rw [primary_paren, bind_assoc]
      refine .of_step rfl fun c hnext hstep => ?_
      obtain ⟨rfl, -⟩ := next_cons_eq_ok_iff.1 hnext
      dsimp only at hstep ⊢
      by_cases hroom : maxNesting ≤ n
      · rw [if_pos hroom] at hstep ⊢
        exact .of_step_eq hstep
      · -- The run, the body and the parentheses behind it, each from where the one before it ends.
        rw [if_neg hroom] at hstep ⊢
        refine .head hstep ?_
        rw [bind_assoc]
        refine comes_openRun 0 (le_refl _) fun run ls' => ?_
        dsimp only
        rw [bind_assoc]
        refine (hinner (Nat.not_le.1 hroom)).bind fun body ls'' _ => ?_
        dsimp only
        rw [bind_assoc]
        exact comes_closeRun (run + 1) ⟨ls'', n + 1⟩
    | _ => exact .of_step_eq rfl

/-! ## Dice -/

/-- A primary, or two of them with the letter between them. -/
theorem doneBy_dice (hp : (primary inner).DoneBy .primary n) : (dice inner).DoneBy .dice n := by
  intro ls out rest
  refine .head rfl ?_
  rw [dice, bind_assoc]
  refine hp.bind fun times ls' _ => ?_
  dsimp only
  by_cases htoken : token ⟨ls', n⟩ = .dice
  · rw [if_pos htoken, bind_assoc]
    refine .of_next (if_pos htoken) ?_
    rw [bind_assoc]
    exact hp.bind fun sides ls'' _ => .head rfl (comes_emitted _ _ (by simp))
  · rw [if_neg htoken]
    exact .head (if_neg htoken) .refl

/-- One die, or what is read without the letter in front. -/
theorem doneBy_die (hp : (primary inner).DoneBy .primary n) : (die inner).DoneBy .die n := by
  intro ls out rest
  rw [die]
  by_cases htoken : token ⟨ls, n⟩ = .dice
  · rw [if_pos htoken, bind_assoc]
    refine .of_next (if_pos htoken) ?_
    rw [bind_assoc]
    exact hp.bind fun sides ls' _ => .head rfl (comes_emitted _ _ (by simp))
  · rw [if_neg htoken]
    exact .head (if_neg htoken) (doneBy_dice hp ls out rest)

/-- Dice, with a minus sign before them or without. -/
theorem doneBy_signed (hd : (die inner).DoneBy .die n) : (signed inner).DoneBy .signed n := by
  intro ls out rest
  rw [signed]
  by_cases htoken : token ⟨ls, n⟩ = .minus
  · rw [if_pos htoken, bind_assoc]
    refine .of_next (if_pos htoken) ?_
    rw [bind_assoc]
    exact hd.bind fun body ls' _ => .head rfl (comes_emitted _ _ (by simp))
  · rw [if_neg htoken]
    exact .head (if_neg htoken) (hd ls out rest)

/-! ## Chains -/

/-- A chain is at its end where no operator of its level follows. -/
theorem step_operators_none {l : Level} {c : Cursor} (h : l.join? c.token = none) :
    step ⟨c, out, .operators l :: rest⟩ = .ok ⟨c, out, rest⟩ := by
  show Task.perform rest c out (.operators l) = _
  rw [Task.perform, h]
  rfl

/-- A chain goes on with an operator of its level. -/
theorem step_operators_some {l : Level} {c : Cursor} {op : Arith} (h : l.join? c.token = some op) :
    step ⟨c, out, .operators l :: rest⟩ = c.next >>= fun c =>
      .ok ⟨c, out, .call l.routine :: .emit (.arith op) :: .operators l :: rest⟩ := by
  show Task.perform rest c out (.operators l) = _
  rw [Task.perform, h]
  rfl

/-- A descent goes on with a chain behind its first operands, the code of which has been emitted. -/
theorem comes_chain {l : Level} (ho : operand.DoneBy l.routine n) {budget ls : List Lexeme}
    (left : Expr) (h : ls.length ≤ budget.length) :
    Comes ⟨⟨ls, n⟩, out.emitAll left.code, .operators l :: rest⟩
      (chain operand l.join? budget left ⟨ls, n⟩ >>= fun a =>
        .ok ⟨a.2, out.emitAll a.1.code, rest⟩) := by
  induction budget generalizing ls left with
  | nil =>
    obtain rfl := List.eq_nil_of_length_eq_zero (Nat.le_zero.1 h)
    have hnone : l.join? (token ⟨[], n⟩) = none := by cases l <;> rfl
    exact .of_step_eq (step_operators_none hnone)
  | cons b budget ih =>
    rw [List.length_cons] at h
    rw [chain]
    rcases hop : l.join? (token ⟨ls, n⟩) with _ | op
    · exact .of_step_eq (step_operators_none hop)
    · dsimp only
      rw [bind_assoc]
      refine .of_next (step_operators_some hop) ?_
      rw [bind_assoc]
      refine ho.bind fun right ls' hlength => .head rfl ?_
      -- What has been emitted behind the operator is the code of the chain up to there.
      have hcode : ((out.emitAll left.code).emitAll right.code).emit (.arith op) =
          out.emitAll (Expr.arith op left right).code := by simp
      rw [List.length_tail] at hlength
      rw [hcode]
      exact ih (.arith op left right) (by omega)

/-- An operand, and the chain behind it. -/
theorem doneBy_chained {l : Level} (ho : operand.DoneBy l.routine n) :
    (chained operand l).DoneBy (.chain l) n := by
  intro ls out rest
  refine .head rfl ?_
  rw [chained, bind_assoc]
  exact ho.bind fun left ls' _ => comes_chain ho left (le_refl _)

/-! ## All parsers -/

end Parser

/-- The parser of a routine, given that of what stands inside of groups. -/
def Routine.parser : Routine → Parser → Parser
  | chain .sum => Parser.sum
  | chain .product => Parser.product
  | signed => Parser.signed
  | die => Parser.die
  | dice => Parser.dice
  | primary => Parser.primary

namespace Parser

variable {inner : Parser} {n : Nat}

/-- Each parser is done by its routine, if that of an expression is one group deeper. -/
theorem doneBy_routine (hinner : n < maxNesting → inner.DoneBy (.chain .sum) (n + 1)) (r : Routine) :
    (r.parser inner).DoneBy r n := by
  have hprimary := doneBy_primary hinner
  have hdie := doneBy_die hprimary
  have hsigned := doneBy_signed hdie
  have hproduct : (product inner).DoneBy (.chain .product) n := doneBy_chained (l := .product) hsigned
  cases r with
  | chain l =>
    cases l with
    | sum => exact doneBy_chained (l := .sum) hproduct
    | product => exact hproduct
  | signed => exact hsigned
  | die => exact hdie
  | dice => exact doneBy_dice hprimary
  | primary => exact hprimary

/-- A whole expression is done by the routine of sums. -/
theorem doneBy_expression (room n : Nat) (h : room + n = maxNesting + 1) (hn : n ≤ maxNesting) :
    (expression room).DoneBy (.chain .sum) n := by
  induction room generalizing n with
  -- There is room for at least the groups that may still be opened.
  | zero => omega
  | succ room ih => exact doneBy_routine (fun hlt => ih (n + 1) (by omega) hlt) (.chain .sum)

end Parser

/-- A descent into a text comes to its end with the code of the expression that it spells. -/
theorem comes_parse (text : String) :
    (start text).Comes (parse text >>= fun e => .ok ⟨⟨[], 0⟩, Output.empty.emitAll e.code, []⟩) := by
  have hdone := Parser.doneBy_expression (maxNesting + 1) 0 rfl (Nat.zero_le _)
  rw [parse, parseLexemes, bind_assoc]
  refine .of_step rfl fun c hclean hstep => ?_
  obtain ⟨rfl, -⟩ := Cursor.clean_eq_ok_iff.1 hclean
  refine .head hstep ?_
  rw [bind_assoc]
  refine hdone.bind fun e ls _ => ?_
  -- Behind the expression there is the end of the text, or what is refused.
  cases ls with
  | nil => exact .of_step_eq rfl
  | cons l ls => exact .of_step_eq rfl

/-- A descent into a text ends as the text compiles. -/
theorem endsWith_compile (text : String) : (start text).EndsWith (compile text) := by
  have hcomes := comes_parse text
  rw [compile]
  rcases hparse : parse text with e | e
  · rw [hparse] at hcomes
    exact hcomes
  · rw [hparse] at hcomes
    exact ⟨_, hcomes, rfl, Output.program_emitAll_code e⟩

/-! ## Runs of parentheses -/

/-- A descent passes a run of parentheses that open, however long, as one group. -/
theorem reaches_body {n : Nat} (hn : n < maxNesting) (d : Nat) {r : List Lexeme} (hr : NoJunkAhead r)
    (ho : Cursor.token ⟨r, n + 1⟩ ≠ .openParen) (out : Output) (rest : List Task) :
    Reaches ⟨⟨List.replicate (d + 1) (.of .openParen) ++ r, n⟩, out, .call .primary :: rest⟩
      ⟨⟨r, n + 1⟩, out, .call (.chain .sum) :: .closing (d + 1) :: rest⟩ := by
  have hahead := noJunkAhead_replicate_append (t := .openParen) (by decide) d hr
  have hbudget : d ≤ (List.replicate d (Lexeme.of .openParen) ++ r).length := by simp
  have hstep : step ⟨⟨List.replicate (d + 1) (.of .openParen) ++ r, n⟩, out, .call .primary :: rest⟩ =
      .ok ⟨⟨List.replicate d (.of .openParen) ++ r, n + 1⟩, out, .opening 1 :: rest⟩ := by
    show (Cursor.next ⟨.of .openParen :: (List.replicate d (.of .openParen) ++ r), n⟩ >>= _) = _
    rw [Cursor.next_cons n hahead]
    exact if_neg (Nat.not_le.2 hn)
  have hrun : Comes ⟨⟨List.replicate d (.of .openParen) ++ r, n + 1⟩, out, .opening 1 :: rest⟩
      (Cursor.openRun (List.replicate d (.of .openParen) ++ r) 0
          ⟨List.replicate d (.of .openParen) ++ r, n + 1⟩ >>= fun a =>
        .ok ⟨a.2, out, .call (.chain .sum) :: .closing (a.1 + 1) :: rest⟩) :=
    Parser.comes_openRun 0 (le_refl _) fun _ _ => .refl
  rw [Cursor.openRun_replicate d 0 (n + 1) hbudget hr ho, Nat.zero_add] at hrun
  exact Comes.head hstep hrun

/-- A number in so many pairs of parentheses. -/
def parenthesized (d : Nat) : String :=
  String.ofList (List.replicate d '(' ++ '1' :: List.replicate d ')')

/-- The lexemes of a number in parentheses. -/
theorem lexemes_parenthesized (d : Nat) :
    lexemes (parenthesized (d + 1)).toList =
      List.replicate (d + 1) (.of .openParen) ++
        ⟨.number, ['1']⟩ :: List.replicate (d + 1) (.of .closeParen) := by
  have hone : lexemes ['1'] = [⟨.number, ['1']⟩] :=
    (Lexeme.Genuine.number (by decide) (List.all_eq_true.1 rfl)).lexemes_chars
  have hclose := lexemes_append_punctuation (c := ')') (t := .closeParen) rfl ['1'] (List.replicate d ')')
  rw [hone] at hclose
  have hrun := lexemes_replicate_append (c := ')') (t := .closeParen) rfl d []
  rw [List.append_nil, lexemes_nil, List.append_nil] at hrun
  rw [parenthesized, String.toList_ofList, lexemes_replicate_append (c := '(') (t := .openParen) rfl]
  congr 1
  rw [List.replicate_succ]
  show lexemes (['1'] ++ ')' :: List.replicate d ')') = _
  rw [hclose, hrun]
  rfl

/-- A number in parentheses compiles, however many they are. -/
theorem compile_parenthesized (d : Nat) :
    compile (parenthesized (d + 1)) = .ok ⟨[.num 1], 1⟩ := by
  let one : Derivation (.chain .sum) :=
    .single (l := .sum) (.single (l := .product) (.plain (.bare (.number ['1']))))
  let t : Derivation (.chain .sum) :=
    .single (l := .sum) (.single (l := .product) (.plain (.bare (Derivation.parens one d))))
  have hgroup : ¬ one.expr.IsGroup := by
    rintro ⟨_, _, h⟩
    cases h
  have hexpr : t.expr = .group d (.literal 1) := Derivation.expr_parens hgroup d
  have hyield : t.yield = lexemes (parenthesized (d + 1)).toList := by
    rw [lexemes_parenthesized]
    exact Derivation.yield_parens one d
  have hfits : ∀ l ∈ t.yield, l.Fits := by
    rw [hyield, lexemes_parenthesized, List.forall_mem_append, List.forall_mem_cons]
    refine ⟨fun l hl => ?_, fun _ => ⟨List.all_eq_true.1 rfl, by decide⟩, fun l hl => ?_⟩
    · rw [List.eq_of_mem_replicate hl]
      exact Lexeme.fits_of (by decide)
    · rw [List.eq_of_mem_replicate hl]
      exact Lexeme.fits_of (by decide)
  have hclosed : t.RunsClosed := Derivation.runsClosed_parens hgroup (by decide) trivial d
  have hnesting : 0 + t.expr.nesting ≤ maxNesting := by
    rw [hexpr]
    show 0 + (0 + 1) ≤ 64
    decide
  have hadmitted : t.Admitted 0 := ⟨hfits, hclosed, hnesting⟩
  have hparse := (parseLexemes_eq_ok_iff fun l hl => Lexeme.genuine_of_mem_lexemes hl).2
    ⟨t, hyield, hadmitted, hexpr.symm⟩
  exact compile_eq_ok_iff.2 ⟨_, hparse, rfl⟩

/-- A descent into a number in parentheses passes all that open before it closes any. -/
theorem reaches_parenthesized (d : Nat) :
    (start (parenthesized (d + 1))).Reaches
      ⟨⟨⟨.number, ['1']⟩ :: List.replicate (d + 1) (.of .closeParen), 1⟩, .empty,
        [.call (.chain .sum), .closing (d + 1), .sides, .operators .product, .operators .sum, .leave]⟩ := by
  have hahead : NoJunkAhead (⟨.number, ['1']⟩ :: List.replicate (d + 1) (.of .closeParen)) :=
    noJunkAhead_cons (by decide)
  have hopen : Token.number ≠ .openParen := by decide
  have hbody : Comes _ (.ok _) := reaches_body (n := 0) (by decide) d hahead hopen .empty
    [.sides, .operators .product, .operators .sum, .leave]
  rw [start, lexemes_parenthesized]
  exact Comes.head rfl (.head rfl (.head rfl (.head rfl (.head rfl (.head rfl hbody)))))

/-- The parsers get through every text. A descent into a text has a bounded number of steps and ends as the
text compiles; a call that has returned has passed a lexeme, has left as many groups open as it found and the
stack one deeper, and so has each parser that succeeds; at all times as many groups are open as the tasks are
in, and never more than 64; and a run of parentheses that are passed as one group can have any length. -/
theorem descent_progress :
    (∀ text : String,
      (start text).EndsWith (compile text) ∧
      (∀ run : List Descent, List.IsChain Descent.Step (start text :: run) →
        run.length ≤ 11 * ((lexemes text.toList).length + 1)) ∧
      (∀ (s s' : Descent) (r : Routine), (start text).Reaches s → s.Reaches s' →
        s.tasks = .call r :: s'.tasks →
        s'.cursor.rest <:+ s.cursor.rest ∧ s'.cursor.rest.length < s.cursor.rest.length ∧
          s'.cursor.nesting = s.cursor.nesting ∧ s'.out.depth = s.out.depth + 1) ∧
      ∀ s : Descent, (start text).Reaches s → s.cursor.nesting = s.groups ∧ s.groups ≤ 64) ∧
    (∀ (room n : Nat) (r : Routine) (ls : List Lexeme) (e : Expr) (c : Cursor), room + n = maxNesting →
      r.parser (Parser.expression room) ⟨ls, n⟩ = .ok (e, c) →
      c.rest <:+ ls ∧ c.rest.length < ls.length ∧ c.nesting = n ∧ ∀ d, depthAfter d e.code = d + 1) ∧
    ∀ d : Nat, compile (parenthesized (d + 1)) = .ok ⟨[.num 1], 1⟩ ∧
      ∃ s, (start (parenthesized (d + 1))).Reaches s ∧ s.cursor.nesting = 1 ∧
        .closing (d + 1) ∈ s.tasks := by
  refine ⟨fun text => ⟨endsWith_compile text, fun run hrun => ?_, ?_, ?_⟩, ?_, fun d => ?_⟩
  · exact (length_run_le hrun).trans_eq (weight_start text)
  · intro s s' r hs hs' hcall
    have hnesting := hs.follows.nesting_eq 0 (nesting_start text)
    exact hs'.of_call hcall hnesting
  · intro s hs
    have hnesting := hs.follows.nesting_eq 0 (nesting_start text)
    have hle := hs.follows.nesting_le (Nat.zero_le _)
    rw [Nat.zero_add] at hnesting
    exact ⟨hnesting, hnesting ▸ hle⟩
  · intro room n r ls e c hroom hparse
    have hdone := Parser.doneBy_routine (n := n)
      (fun hlt => Parser.doneBy_expression room (n + 1) (by omega) hlt) r
    obtain ⟨hsuffix, hlength, hnesting⟩ := hdone.of_eq_ok hparse
    exact ⟨hsuffix, hlength, hnesting, e.depthAfter_code⟩
  · exact ⟨compile_parenthesized d, _, reaches_parenthesized d, rfl, by simp⟩

/-- In `(1)` the call that parses the text returns behind all three lexemes, with one value on the stack. -/
theorem descent_progress_group :
    ∃ s s' : Descent, (start "(1)").Reaches s ∧ s.Reaches s' ∧
      s.cursor.rest.length = 3 ∧ s'.cursor.rest = [] ∧ s'.cursor.nesting = 0 ∧ s'.out.depth = 1 := by
  let ls : List Lexeme := [.of .openParen, ⟨.number, ['1']⟩, .of .closeParen]
  have hlexemes : lexemes "(1)".toList = ls := by with_unfolding_all rfl
  have hread : Parser.expression (maxNesting + 1) ⟨ls, 0⟩ = .ok (.group 0 (.literal 1), ⟨[], 0⟩) := by
    rfl
  have hs : (start "(1)").Reaches ⟨⟨ls, 0⟩, .empty, [.call (.chain .sum), .leave]⟩ := by
    rw [start, hlexemes]
    exact Comes.of_step_eq (x := .ok _) rfl
  have hs' := Parser.doneBy_expression (maxNesting + 1) 0 rfl (Nat.zero_le _) ls .empty [.leave]
  rw [hread] at hs'
  obtain ⟨-, -, hcall, -⟩ := descent_progress.1 "(1)"
  obtain ⟨-, -, hnesting, hdepth⟩ := hcall _ _ (.chain .sum) hs hs' rfl
  exact ⟨_, _, hs, hs', rfl, rfl, hnesting, hdepth⟩

end DiceNotation
