import DiceNotation.Proofs.Grammar.Admission
import DiceNotation.Proofs.Stack.Depth
import Mathlib.Logic.Relation

/-!
# The parsers step by step

The parsers of the grammar's levels as a machine that does one thing at a time. A `Descent` is a state on the
way through a text: the cursor, what has been compiled so far, and the tasks that are still ahead. A call is
a task, and so is what a routine goes on with when a call returns to it, so the tasks behind a call are those
of the routines that wait for it.

`Transition` says what a step can do. Accounts follow from it in which each task counts for what it will add:
the depth of the stack (`Transition.finalDepth_eq`), the lexemes that have to be passed
(`Transition.length_le`), the groups that are open (`Transition.nesting_eq`) and the steps that are left
(`Transition.weight_lt`). So a call that has returned has passed a lexeme and leaves the stack one deeper and
the number of open groups as it was (`Reaches.of_call`), and no descent goes on for longer than its text
allows for (`length_run_le`).
-/

namespace DiceNotation

/-! ## What is compiled -/

/-- Operations as they are emitted, with the depth of the stack behind them by their effects and the greatest
depth so far. -/
structure Output where
  /-- The operations. -/
  ops : List Op
  /-- The depth of the stack behind them. -/
  depth : Int
  /-- The greatest depth of the stack. -/
  peak : Int

namespace Output

/-- Nothing has been compiled. -/
def empty : Output :=
  ⟨[], 0, 0⟩

/-- Emits an operation. -/
def emit (out : Output) (op : Op) : Output :=
  let depth := out.depth - op.pops + op.pushes
  ⟨out.ops ++ [op], depth, max out.peak depth⟩

/-- Emits operations in a row. -/
def emitAll (out : Output) (ops : List Op) : Output :=
  ops.foldl emit out

/-- The program that has been compiled. -/
def program (out : Output) : Program :=
  ⟨out.ops, out.peak⟩

/-- An operation takes its operands from the depth and adds its result. -/
@[simp] theorem depth_emit (out : Output) (op : Op) :
    (out.emit op).depth = out.depth - op.pops + op.pushes := rfl

/-- Emitting no operations changes nothing. -/
@[simp] theorem emitAll_nil (out : Output) : out.emitAll [] = out := rfl

/-- Operations are emitted from the first one on. -/
@[simp] theorem emitAll_cons (out : Output) (op : Op) (ops : List Op) :
    out.emitAll (op :: ops) = (out.emit op).emitAll ops := rfl

/-- Operations in a row are emitted one part after the other. -/
@[simp] theorem emitAll_append (out : Output) (a b : List Op) :
    out.emitAll (a ++ b) = (out.emitAll a).emitAll b :=
  List.foldl_append

/-- Operations that are emitted take the depth and the peak along that they have by their effects. -/
theorem emitAll_eq {out : Output} (h : out.depth ≤ out.peak) (ops : List Op) :
    out.emitAll ops =
      ⟨out.ops ++ ops, depthAfter out.depth ops, max out.peak (DiceNotation.peak out.depth ops)⟩ := by
  induction ops generalizing out with
  | nil => rw [emitAll_nil, List.append_nil, depthAfter_nil, DiceNotation.peak, max_eq_left h]
  | cons op ops ih =>
    have hle : (out.emit op).depth ≤ DiceNotation.peak (out.emit op).depth ops := le_peak _ ops
    have hpeak : max (out.emit op).peak (DiceNotation.peak (out.emit op).depth ops) =
        max out.peak (DiceNotation.peak out.depth (op :: ops)) := by
      show max (max out.peak (out.emit op).depth) _ = max out.peak (max out.depth _)
      rw [max_assoc, max_eq_right hle, ← max_assoc, max_eq_left h]
      rfl
    rw [emitAll_cons, ih (le_max_right _ _), hpeak, depthAfter_cons]
    show Output.mk ((out.ops ++ [op]) ++ ops) _ _ = _
    rw [List.append_assoc]
    rfl

/-- The code of an expression, emitted from the start, is the expression's program. -/
theorem program_emitAll_code (e : Expr) : (empty.emitAll e.code).program = e.program := by
  have hpos : (0 : Int) ≤ e.depth := Int.natCast_nonneg _
  have hpeak : max 0 (DiceNotation.peak 0 e.code) = e.depth := by
    rw [e.peak_code, Int.zero_add, max_eq_right hpos]
  rw [emitAll_eq (le_refl _)]
  exact congrArg (Program.mk e.code) hpeak

end Output

/-! ## The machine -/

/-- The parsers that call one another. -/
inductive Routine
  | chain (level : Level)
  | signed
  | die
  | dice
  | primary
  deriving DecidableEq, Repr

/-- What parses the operands of a chain. -/
def Level.routine : Level → Routine
  | .sum => .chain .product
  | .product => .signed

/-- A thing that is ahead. -/
inductive Task
  /-- To stand at the first lexeme. -/
  | enter
  /-- To run a routine from its start. -/
  | call (routine : Routine)
  /-- To go on with a chain behind one of its operands. -/
  | operators (level : Level)
  /-- To go on behind a primary that may be a number of dice. -/
  | sides
  /-- To emit an operation. -/
  | emit (op : Op)
  /-- To go on with a run of parentheses of which `run` have been opened. -/
  | opening (run : Nat)
  /-- To close `left` parentheses, and with them the group. -/
  | closing (left : Nat)
  /-- To find the end of the text. -/
  | leave
  deriving DecidableEq, Repr

/-- A state of the parsers on their way through a text. -/
structure Descent where
  /-- What is left of the text, and how many groups are open. -/
  cursor : Cursor
  /-- What has been compiled. -/
  out : Output
  /-- What is ahead, the next task first. -/
  tasks : List Task

/-- Does a task, with those in `rest` behind it. -/
def Task.perform (rest : List Task) (c : Cursor) (out : Output) : Task → Except SyntaxError Descent
  | enter => do
    let c ← c.clean
    return ⟨c, out, rest⟩
  | call (.chain l) => return ⟨c, out, call l.routine :: operators l :: rest⟩
  | operators l =>
    match l.join? c.token with
    | none => return ⟨c, out, rest⟩
    | some op => do
      let c ← c.next
      return ⟨c, out, call l.routine :: emit (.arith op) :: operators l :: rest⟩
  | call .signed =>
    if c.token = .minus then do
      let c ← c.next
      return ⟨c, out, call .die :: emit .neg :: rest⟩
    else return ⟨c, out, call .die :: rest⟩
  | call .die =>
    if c.token = .dice then do
      let c ← c.next
      return ⟨c, out.emit (.num 1), call .primary :: emit .dice :: rest⟩
    else return ⟨c, out, call .dice :: rest⟩
  | call .dice => return ⟨c, out, call .primary :: sides :: rest⟩
  | sides =>
    if c.token = .dice then do
      let c ← c.next
      return ⟨c, out, call .primary :: emit .dice :: rest⟩
    else return ⟨c, out, rest⟩
  | emit op => return ⟨c, out.emit op, rest⟩
  | call .primary =>
    match c.rest with
    | [] => throw .unexpectedEnd
    | l :: _ =>
      match l.token with
      | .number => do
        let c ← c.next
        let v ← literalValue l.chars
        return ⟨c, out.emit (.num v), rest⟩
      | .openParen => do
        let c ← c.next
        if c.nesting ≥ maxNesting then
          throw (.unexpectedInput l.text)
        return ⟨{ c with nesting := c.nesting + 1 }, out, opening 1 :: rest⟩
      | _ => throw (.unexpectedInput l.text)
  | opening run =>
    if c.token = .openParen then do
      let c ← c.next
      return ⟨c, out, opening (run + 1) :: rest⟩
    else return ⟨c, out, call (.chain .sum) :: closing run :: rest⟩
  | closing 0 => return ⟨{ c with nesting := c.nesting - 1 }, out, rest⟩
  | closing (left + 1) => do
    let c ← c.expect .closeParen
    return ⟨c, out, closing left :: rest⟩
  | leave =>
    match c.rest with
    | [] => return ⟨c, out, rest⟩
    | l :: _ => throw (.unexpectedInput l.text)

namespace Descent

/-- The descent into a text. -/
def start (text : String) : Descent :=
  ⟨⟨lexemes text.toList, 0⟩, .empty, [.enter, .call (.chain .sum), .leave]⟩

/-- Does the next task. Where none is left, nothing happens any more. -/
def step (s : Descent) : Except SyntaxError Descent :=
  match s.tasks with
  | [] => .ok s
  | t :: rest => t.perform rest s.cursor s.out

/-- A descent does a task and comes to another state. -/
def Step (s s' : Descent) : Prop :=
  s.tasks ≠ [] ∧ s.step = .ok s'

/-- A descent comes to another state in any number of steps. -/
abbrev Reaches : Descent → Descent → Prop :=
  Relation.ReflTransGen Step

/-- A descent ends with a program, when no task is left, or with the error of the task that it cannot do. -/
def EndsWith (s : Descent) : Except SyntaxError Program → Prop
  | .ok p => ∃ s', s.Reaches s' ∧ s'.tasks = [] ∧ s'.out.program = p
  | .error e => ∃ s', s.Reaches s' ∧ s'.step = .error e

/-! ## What a step can do -/

/-- What a task does that opens and closes no group: the tokens that the cursor passes, the operations that
are emitted and the tasks that the task becomes. -/
inductive Rule : Task → List Token → List Op → List Task → Prop
  | enter : Rule .enter [] [] []
  | chain (l : Level) : Rule (.call (.chain l)) [] [] [.call l.routine, .operators l]
  | operator {l : Level} {op : Arith} (level : op.level = l) :
      Rule (.operators l) [op.token] [] [.call l.routine, .emit (.arith op), .operators l]
  | operators (l : Level) : Rule (.operators l) [] [] []
  | negated : Rule (.call .signed) [.minus] [] [.call .die, .emit .neg]
  | plain : Rule (.call .signed) [] [] [.call .die]
  | die : Rule (.call .die) [.dice] [.num 1] [.call .primary, .emit .dice]
  | noDie : Rule (.call .die) [] [] [.call .dice]
  | dice : Rule (.call .dice) [] [] [.call .primary, .sides]
  | sides : Rule .sides [.dice] [] [.call .primary, .emit .dice]
  | noSides : Rule .sides [] [] []
  | emit (op : Op) : Rule (.emit op) [] [op] []
  | number (v : Nat) : Rule (.call .primary) [.number] [.num v] []
  | opening (run : Nat) : Rule (.opening run) [.openParen] [] [.opening (run + 1)]
  | opened (run : Nat) : Rule (.opening run) [] [] [.call (.chain .sum), .closing run]
  | closing (left : Nat) : Rule (.closing (left + 1)) [.closeParen] [] [.closing left]
  | leave : Rule .leave [] [] []

/-- What a step can do. -/
inductive Transition : Descent → Descent → Prop
  /-- A task is done by a rule. -/
  | rule (passed : List Lexeme) (c : Cursor) (out : Output) {t : Task} {ops : List Op} {ts : List Task}
      (rest : List Task) (h : Rule t (passed.map Lexeme.token) ops ts) :
      Transition ⟨⟨passed ++ c.rest, c.nesting⟩, out, t :: rest⟩ ⟨c, out.emitAll ops, ts ++ rest⟩
  /-- A group is opened. -/
  | opens (l : Lexeme) (ls : List Lexeme) {n : Nat} (out : Output) (rest : List Task)
      (h : n < maxNesting) :
      Transition ⟨⟨l :: ls, n⟩, out, .call .primary :: rest⟩ ⟨⟨ls, n + 1⟩, out, .opening 1 :: rest⟩
  /-- A group is closed. -/
  | closes (c : Cursor) (out : Output) (rest : List Task) :
      Transition ⟨c, out, .closing 0 :: rest⟩ ⟨{ c with nesting := c.nesting - 1 }, out, rest⟩

variable {s s' : Descent} {t : Task} {ops : List Op} {ts rest : List Task} {c : Cursor} {out : Output}

/-- A rule that passes nothing makes a transition. -/
theorem Rule.stays (h : Rule t [] ops ts) (c : Cursor) (out : Output) (rest : List Task) :
    Transition ⟨c, out, t :: rest⟩ ⟨c, out.emitAll ops, ts ++ rest⟩ :=
  .rule [] c out rest h

/-- A rule that passes a token makes a transition where the cursor moves on from it. -/
theorem Rule.passes {token : Token} (h : Rule t [token] ops ts) (htoken : c.token = token)
    (hfinish : token ≠ .finish)
    (hs : (c.next >>= fun c' => .ok ⟨c', out.emitAll ops, ts ++ rest⟩) = .ok s) :
    Transition ⟨c, out, t :: rest⟩ s := by
  obtain ⟨c', hnext, hs⟩ := bind_eq_ok_iff.1 hs
  obtain ⟨ls, n⟩ := c
  obtain ⟨l, ls, rfl, rfl⟩ := Cursor.exists_of_token htoken hfinish
  obtain ⟨rfl, -⟩ := Cursor.next_cons_eq_ok_iff.1 hnext
  obtain rfl := Except.ok.inj hs
  exact .rule [l] ⟨ls, n⟩ out rest h

/-- A primary is a number that is passed, or starts with a parenthesis that opens a group. -/
theorem transition_primary (h : Task.perform rest c out (.call .primary) = .ok s) :
    Transition ⟨c, out, .call .primary :: rest⟩ s := by
  obtain ⟨ls, n⟩ := c
  cases ls with
  | nil => cases h
  | cons l ls =>
    rw [Task.perform] at h
    dsimp only at h
    split at h
    · next hl =>
      obtain ⟨c', hnext, h⟩ := bind_eq_ok_iff.1 h
      obtain ⟨v, -, hs⟩ := bind_eq_ok_iff.1 h
      exact (Rule.number v).passes hl (by decide) (bind_eq_ok_iff.2 ⟨c', hnext, hs⟩)
    · obtain ⟨c', hnext, h⟩ := bind_eq_ok_iff.1 h
      obtain ⟨rfl, -⟩ := Cursor.next_cons_eq_ok_iff.1 hnext
      dsimp only at h
      split at h
      · cases h
      · next hroom =>
        obtain rfl := Except.ok.inj h
        exact .opens l ls out rest (Nat.not_le.1 hroom)
    · cases h

/-- A step is a transition. -/
theorem Step.transition (h : Step s s') : Transition s s' := by
  obtain ⟨c, out, tasks⟩ := s
  obtain ⟨hne, h⟩ := h
  obtain ⟨t, rest, rfl⟩ := List.exists_cons_of_ne_nil hne
  replace h : t.perform rest c out = .ok s' := h
  -- One case per task: a task that looks at the token passes it or stays in front of it, each by a
  -- rule of its own.
  cases t with
  | enter =>
    obtain ⟨c', hclean, hs⟩ := bind_eq_ok_iff.1 h
    obtain ⟨rfl, -⟩ := Cursor.clean_eq_ok_iff.1 hclean
    obtain rfl := Except.ok.inj hs
    exact Rule.enter.stays c' out rest
  | call r =>
    cases r with
    | chain l =>
      obtain rfl := Except.ok.inj h
      exact (Rule.chain l).stays c out rest
    | signed =>
      rw [Task.perform] at h
      split at h
      · next htoken => exact Rule.negated.passes htoken (by decide) h
      · obtain rfl := Except.ok.inj h
        exact Rule.plain.stays c out rest
    | die =>
      rw [Task.perform] at h
      split at h
      · next htoken => exact Rule.die.passes htoken (by decide) h
      · obtain rfl := Except.ok.inj h
        exact Rule.noDie.stays c out rest
    | dice =>
      obtain rfl := Except.ok.inj h
      exact Rule.dice.stays c out rest
    | primary => exact transition_primary h
  | operators l =>
    rw [Task.perform] at h
    split at h
    · obtain rfl := Except.ok.inj h
      exact (Rule.operators l).stays c out rest
    · next op hop =>
      obtain ⟨hlevel, htoken⟩ := Level.join?_eq_some_iff.1 hop
      exact (Rule.operator hlevel).passes htoken (by cases op <;> decide) h
  | sides =>
    rw [Task.perform] at h
    split at h
    · next htoken => exact Rule.sides.passes htoken (by decide) h
    · obtain rfl := Except.ok.inj h
      exact Rule.noSides.stays c out rest
  | emit op =>
    obtain rfl := Except.ok.inj h
    exact (Rule.emit op).stays c out rest
  | opening run =>
    rw [Task.perform] at h
    split at h
    · next htoken => exact (Rule.opening run).passes htoken (by decide) h
    · obtain rfl := Except.ok.inj h
      exact (Rule.opened run).stays c out rest
  | closing left =>
    cases left with
    | zero =>
      obtain rfl := Except.ok.inj h
      exact .closes c out rest
    | succ left =>
      rw [Task.perform, Cursor.expect] at h
      split at h
      · next htoken => exact (Rule.closing left).passes htoken (by decide) h
      · cases h
  | leave =>
    rw [Task.perform] at h
    split at h
    · obtain rfl := Except.ok.inj h
      exact Rule.leave.stays c out rest
    · cases h

/-! ## Accounts -/

end Descent

namespace Task

/-- How much deeper the stack will be for a task. -/
def effect : Task → Int
  | call _ | opening _ => 1
  | emit op => op.pushes - op.pops
  | _ => 0

/-- How many lexemes a task has to pass at least. -/
def need : Task → Nat
  | call _ => 1
  | _ => 0

/-- How many groups are open for a task. -/
def groups : Task → Nat
  | opening _ | closing _ => 1
  | _ => 0

/-- How many steps a task can take, besides those for lexemes that are passed. -/
def weight : Task → Nat
  | call (.chain .sum) => 9
  | call (.chain .product) => 7
  | call .signed => 5
  | call .die => 4
  | call .dice => 3
  | call .primary => 1
  | opening _ => 11
  | _ => 1

end Task

namespace Descent

section

variable {t : Task} {tokens : List Token} {ops : List Op} {ts : List Task} (h : Rule t tokens ops ts)

include h

/-- What a task emits and becomes makes the stack as much deeper as the task. -/
theorem Rule.effect_eq (out : Output) :
    (out.emitAll ops).depth + (ts.map Task.effect).sum = out.depth + t.effect := by
  -- Only where a task emits what it is told to, the effect is not a number.
  cases h with
  | emit op =>
    simp only [Output.emitAll_cons, Output.emitAll_nil, Output.depth_emit, List.map_nil, List.sum_nil,
      Task.effect]
    omega
  | _ => simp [Task.effect, Op.pops, Op.pushes]

/-- What a task has to pass, it passes or leaves to the tasks that it becomes. -/
theorem Rule.need_le : t.need ≤ tokens.length + (ts.map Task.need).sum := by
  cases h <;> simp [Task.need]

/-- A task becomes tasks of the same groups. -/
theorem Rule.groups_eq : (ts.map Task.groups).sum = t.groups := by
  cases h <;> rfl

/-- A task becomes tasks with fewer steps, if it does not pass a token. -/
theorem Rule.weight_lt : (ts.map Task.weight).sum < t.weight + 11 * tokens.length := by
  -- The weights of a chain and of its operands depend on its level.
  cases h with
  | chain l => cases l <;> decide
  | @operator l op _ => cases l <;> simp [Task.weight, Level.routine]
  | _ => simp [Task.weight]

end

/-- How deep the stack will be when all tasks are done. -/
def finalDepth (s : Descent) : Int :=
  s.out.depth + (s.tasks.map Task.effect).sum

/-- How many lexemes the tasks have to pass at least. -/
def need (s : Descent) : Nat :=
  (s.tasks.map Task.need).sum

/-- How many groups the tasks are in. -/
def groups (s : Descent) : Nat :=
  (s.tasks.map Task.groups).sum

/-- How many steps are left at most. A lexeme that is passed allows for the most costly task. -/
def weight (s : Descent) : Nat :=
  11 * s.cursor.rest.length + (s.tasks.map Task.weight).sum

variable {s s' : Descent}

namespace Transition

/-- The depth that the stack will have stays the same. -/
theorem finalDepth_eq (h : Transition s s') : s'.finalDepth = s.finalDepth := by
  cases h with
  | rule passed c out rest h =>
    rw [finalDepth, finalDepth, List.map_append, List.sum_append, ← Int.add_assoc, h.effect_eq,
      List.map_cons, List.sum_cons, Int.add_assoc]
  | opens l ls out rest h => rfl
  | closes c out rest => simp [finalDepth, Task.effect]

/-- What is left of the text shrinks, from its front. -/
theorem suffix (h : Transition s s') : s'.cursor.rest <:+ s.cursor.rest := by
  cases h with
  | rule passed c out rest h => exact List.suffix_append passed c.rest
  | opens l ls out rest h => exact List.suffix_cons l ls
  | closes c out rest => exact List.suffix_refl c.rest

/-- A lexeme that has to be passed is passed, or has to be passed still. -/
theorem length_le (h : Transition s s') :
    s'.cursor.rest.length + s.need ≤ s.cursor.rest.length + s'.need := by
  cases h with
  | rule passed c out rest h =>
    have hneed := h.need_le
    rw [List.length_map] at hneed
    simp only [need, List.map_cons, List.sum_cons, List.map_append, List.sum_append, List.length_append]
    omega
  | opens l ls out rest h =>
    simp only [need, List.map_cons, List.sum_cons, List.length_cons, Task.need]
    omega
  | closes c out rest => simp [need, Task.need]

/-- The number of open groups is that of the groups that the tasks are in. -/
theorem nesting_eq (h : Transition s s') {n : Nat} (hs : s.cursor.nesting = n + s.groups) :
    s'.cursor.nesting = n + s'.groups := by
  cases h with
  | rule passed c out rest h =>
    rw [groups, List.map_append, List.sum_append, h.groups_eq]
    exact hs
  | opens l ls out rest h =>
    simp only [groups, List.map_cons, List.sum_cons, Task.groups] at hs ⊢
    omega
  | closes c out rest =>
    -- The group that is closed is one of the tasks, so the number does not go below zero.
    simp only [groups, List.map_cons, List.sum_cons, Task.groups] at hs ⊢
    omega

/-- Groups are opened only where there is room for them. -/
theorem nesting_le (h : Transition s s') (hs : s.cursor.nesting ≤ maxNesting) :
    s'.cursor.nesting ≤ maxNesting := by
  cases h with
  | rule passed c out rest h => exact hs
  | opens l ls out rest h => exact h
  | closes c out rest => exact (Nat.sub_le _ _).trans hs

/-- Fewer steps are left. A task that opens a group is paid for by the parenthesis that it passes. -/
theorem weight_lt (h : Transition s s') : s'.weight < s.weight := by
  cases h with
  | rule passed c out rest h =>
    have hweight := h.weight_lt
    rw [List.length_map] at hweight
    simp only [weight, List.map_cons, List.sum_cons, List.map_append, List.sum_append, List.length_append]
    omega
  | opens l ls out rest h =>
    simp only [weight, List.map_cons, List.sum_cons, List.length_cons, Task.weight]
    omega
  | closes c out rest => simp [weight, Task.weight]

end Transition

/-! ## Runs -/

/-- What holds between a state and all that are reached from it. -/
structure Follows (s s' : Descent) : Prop where
  /-- The depth that the program comes to is settled. -/
  finalDepth_eq : s'.finalDepth = s.finalDepth
  /-- What is left of the text is what stands at the end of it. -/
  suffix : s'.cursor.rest <:+ s.cursor.rest
  /-- At least those lexemes are passed that the tasks in between had to pass. -/
  length_le : s'.cursor.rest.length + s.need ≤ s.cursor.rest.length + s'.need
  /-- The groups that are open besides those of the tasks stay open. -/
  nesting_eq : ∀ n, s.cursor.nesting = n + s.groups → s'.cursor.nesting = n + s'.groups
  /-- Groups do not come to nest too deep. -/
  nesting_le : s.cursor.nesting ≤ maxNesting → s'.cursor.nesting ≤ maxNesting

/-- What holds of each transition holds of all of them in a row. -/
theorem Reaches.follows (h : s.Reaches s') : Follows s s' := by
  induction h with
  | refl => exact ⟨rfl, List.suffix_refl _, le_refl _, fun _ => id, id⟩
  | @tail m s' _ hstep ih =>
    have hlast := hstep.transition
    refine ⟨hlast.finalDepth_eq.trans ih.finalDepth_eq, hlast.suffix.trans ih.suffix, ?_,
      fun n hn => hlast.nesting_eq (ih.nesting_eq n hn), fun hn => hlast.nesting_le (ih.nesting_le hn)⟩
    have hfirst := ih.length_le
    have hlength := hlast.length_le
    omega

/-- A call that has returned has passed a lexeme, has left as many groups open as it found, and has made the
stack one deeper. -/
theorem Reaches.of_call {r : Routine} {n : Nat} (h : s.Reaches s') (hcall : s.tasks = .call r :: s'.tasks)
    (hn : s.cursor.nesting = n + s.groups) :
    s'.cursor.rest <:+ s.cursor.rest ∧ s'.cursor.rest.length < s.cursor.rest.length ∧
      s'.cursor.nesting = s.cursor.nesting ∧ s'.out.depth = s.out.depth + 1 := by
  -- In each account the call counts for what it leaves behind, and the tasks behind it are the same.
  have hfollows := h.follows
  have hnesting := hfollows.nesting_eq n hn
  have hlength := hfollows.length_le
  have hdepth := hfollows.finalDepth_eq
  simp only [groups, need, finalDepth, hcall, List.map_cons, List.sum_cons, Task.groups, Task.need,
    Task.effect] at hn hnesting hlength hdepth
  refine ⟨hfollows.suffix, ?_, ?_, ?_⟩ <;> omega

/-- No run has more steps than its first state allows for. -/
theorem length_run_le {run : List Descent} (h : List.IsChain Step (s :: run)) : run.length ≤ s.weight := by
  induction run generalizing s with
  | nil => exact Nat.zero_le _
  | cons m run ih =>
    obtain ⟨hstep, hrun⟩ := List.isChain_cons_cons.1 h
    have hweight := hstep.transition.weight_lt
    have hlength := ih hrun
    rw [List.length_cons]
    omega

/-- A descent into a text is in no group at its start. -/
theorem nesting_start (text : String) : (start text).cursor.nesting = 0 + (start text).groups := rfl

/-- A descent into a text has eleven steps for each lexeme, and eleven more. -/
theorem weight_start (text : String) :
    (start text).weight = 11 * ((lexemes text.toList).length + 1) := rfl

end Descent

end DiceNotation
