import DiceNotation.Proofs.Grammar.Admission
import DiceNotation.Proofs.Grammar.Offence

/-!
# An acceptor of the notation

A machine that reads the tokens of a text from the left, one at a time, and gets stuck at the first one
that cannot stand where it is. What it remembers is little: where in an operand the text stands
(`Phase`), and of each run of parentheses that is open how many they are (`OpenRun`). `Acceptor.TokenStep`
has one rule for each thing that can follow, and `Acceptor.step?` computes it.

`Acceptor.Passes` says where the acceptor comes to over some tokens, and bounds the runs that are open
on the way. What the acceptor remembers says of the tokens behind it which runs are open and whether an
operand is needed (`Acceptor.Describes`): a step keeps it true (`Describes.step`), and so does a run of
them (`Describes.passes`).
-/

namespace DiceNotation

open Paren

/-- Where in an operand a text stands. -/
inductive Phase
  /-- Behind a parenthesis that opens. -/
  | opened
  /-- Before an operand of a sum or a product. -/
  | operand
  /-- Behind a minus sign. -/
  | signed
  /-- Behind the letter of dice. -/
  | sides
  /-- Behind an operand, or within the parentheses that close it, of which `left` are still to come. -/
  | complete (left : Nat) (rollable : Bool)
  deriving DecidableEq, Repr

namespace Phase

/-- An operand is needed. -/
def Awaits : Phase → Prop
  | complete _ _ => False
  | _ => True

/-- It is told from the phase whether an operand is awaited. -/
instance (p : Phase) : Decidable p.Awaits := by
  cases p <;> unfold Awaits <;> infer_instance

/-- A minus sign may stand here. -/
def Starts : Phase → Prop
  | opened => True
  | operand => True
  | _ => False

/-- It is told from the phase whether a minus sign may stand. -/
instance (p : Phase) : Decidable p.Starts := by
  cases p <;> unfold Starts <;> infer_instance

/-- Whether the letter of dice may stand behind the primary that is needed here. It may not behind the
sides of dice. -/
def rollable : Phase → Bool
  | sides => false
  | _ => true

/-- Where a minus sign may stand, an operand is needed. -/
theorem Starts.awaits {p : Phase} (h : p.Starts) : p.Awaits := by
  cases p <;> trivial

/-- A minus sign may not stand behind the letter of dice. -/
theorem Starts.ne_sides {p : Phase} (h : p.Starts) : p ≠ sides := by
  rintro rfl
  exact h

/-- Only the sides of dice are not to be rolled. -/
theorem rollable_of_ne_sides {p : Phase} (h : p ≠ sides) : p.rollable = true := by
  cases p with
  | sides => exact absurd rfl h
  | _ => rfl

end Phase

/-- A run of parentheses that is open. -/
structure OpenRun where
  /-- How many parentheses it has besides the first one. -/
  extra : Nat
  /-- Whether the letter of dice may stand behind its group. -/
  rollable : Bool
  deriving DecidableEq, Repr

/-- What is remembered of the tokens that are read. -/
structure Acceptor where
  /-- Where the text stands. -/
  phase : Phase
  /-- The runs that are open, the innermost one first. The one that is about to close is none of them. -/
  runs : List OpenRun
  deriving DecidableEq, Repr

namespace Acceptor

/-- Nothing is read. -/
def init : Acceptor :=
  ⟨.operand, []⟩

/-- The text may end here. -/
def MayEnd (q : Acceptor) : Prop :=
  q.runs = [] ∧ ∃ rollable, q.phase = .complete 0 rollable

/-- What follows a token. -/
inductive TokenStep : Acceptor → Token → Acceptor → Prop
  /-- A number is an operand. -/
  | number {p : Phase} {runs : List OpenRun} (awaits : p.Awaits) :
    TokenStep ⟨p, runs⟩ .number ⟨.complete 0 p.rollable, runs⟩
  /-- A parenthesis starts a run. -/
  | opens {p : Phase} {runs : List OpenRun} (awaits : p.Awaits) (first : p ≠ .opened) :
    TokenStep ⟨p, runs⟩ .openParen ⟨.opened, ⟨0, p.rollable⟩ :: runs⟩
  /-- A parenthesis makes a run longer. -/
  | opensMore {r : OpenRun} {runs : List OpenRun} :
    TokenStep ⟨.opened, r :: runs⟩ .openParen ⟨.opened, ⟨r.extra + 1, r.rollable⟩ :: runs⟩
  /-- One die is an operand, besides behind the letter of dice. -/
  | die {p : Phase} {runs : List OpenRun} (awaits : p.Awaits) (first : p ≠ .sides) :
    TokenStep ⟨p, runs⟩ .dice ⟨.sides, runs⟩
  /-- A minus sign stands before the dice of an operand. -/
  | minus {p : Phase} {runs : List OpenRun} (starts : p.Starts) :
    TokenStep ⟨p, runs⟩ .minus ⟨.signed, runs⟩
  /-- What may be rolled is a number of dice. -/
  | roll {runs : List OpenRun} : TokenStep ⟨.complete 0 true, runs⟩ .dice ⟨.sides, runs⟩
  /-- An operator needs another operand. -/
  | operator {op : Arith} {t : Token} {b : Bool} {runs : List OpenRun} (eq : t = op.token) :
    TokenStep ⟨.complete 0 b, runs⟩ t ⟨.operand, runs⟩
  /-- A parenthesis is the first one that closes the innermost run. -/
  | closes {b : Bool} {r : OpenRun} {runs : List OpenRun} :
    TokenStep ⟨.complete 0 b, r :: runs⟩ .closeParen ⟨.complete r.extra r.rollable, runs⟩
  /-- A parenthesis is another one that closes a run. -/
  | closesMore {left : Nat} {b : Bool} {runs : List OpenRun} :
    TokenStep ⟨.complete (left + 1) b, runs⟩ .closeParen ⟨.complete left b, runs⟩

/-- What follows a token where an operand is needed. -/
def enter (p : Phase) (runs : List OpenRun) : Token → Option Acceptor
  | .number => some ⟨.complete 0 p.rollable, runs⟩
  | .openParen =>
    match p, runs with
    | .opened, [] => none
    | .opened, r :: runs => some ⟨.opened, ⟨r.extra + 1, r.rollable⟩ :: runs⟩
    | p, runs => some ⟨.opened, ⟨0, p.rollable⟩ :: runs⟩
  | .dice => if p = .sides then none else some ⟨.sides, runs⟩
  | .minus => if p.Starts then some ⟨.signed, runs⟩ else none
  | _ => none

/-- What follows a token behind an operand. -/
def proceed (left : Nat) (rollable : Bool) (runs : List OpenRun) : Token → Option Acceptor
  | .closeParen =>
    match left, runs with
    | 0, [] => none
    | 0, r :: runs => some ⟨.complete r.extra r.rollable, runs⟩
    | left + 1, runs => some ⟨.complete left rollable, runs⟩
  | .dice => if left = 0 ∧ rollable then some ⟨.sides, runs⟩ else none
  | t => if left = 0 ∧ ((additive? t).isSome ∨ (multiplicative? t).isSome) then
      some ⟨.operand, runs⟩
    else none

/-- The acceptor behind a token, if it can stand here. -/
def step? (q : Acceptor) (t : Token) : Option Acceptor :=
  match q.phase with
  | .complete left rollable => proceed left rollable q.runs t
  | p => enter p q.runs t

/-- Where an operand is needed, a token enters it. -/
theorem step?_of_awaits {p : Phase} (h : p.Awaits) (runs : List OpenRun) (t : Token) :
    step? ⟨p, runs⟩ t = enter p runs t := by
  cases p with
  | complete left rollable => exact absurd h id
  | _ => rfl

/-- An operator joins at one of the two levels. -/
theorem exists_operator {t : Token} (h : (additive? t).isSome ∨ (multiplicative? t).isSome) :
    ∃ op : Arith, t = op.token := by
  rcases h with h | h
  · obtain ⟨op, hop⟩ := Option.isSome_iff_exists.1 h
    exact ⟨op, (Level.join?_eq_some_iff (l := .sum).1 hop).2⟩
  · obtain ⟨op, hop⟩ := Option.isSome_iff_exists.1 h
    exact ⟨op, (Level.join?_eq_some_iff (l := .product).1 hop).2⟩

/-- What is computed where an operand is needed is a step. -/
theorem step_of_enter {p : Phase} {runs : List OpenRun} {t : Token} {q : Acceptor} (hp : p.Awaits)
    (h : enter p runs t = some q) : TokenStep ⟨p, runs⟩ t q := by
  unfold enter at h
  split at h
  · cases h
    exact .number hp
  · split at h
    · cases h
    · cases h
      exact .opensMore
    · next hnil hcons =>
      cases h
      -- The phase behind a parenthesis is one of the two cases before.
      refine .opens hp ?_
      rintro rfl
      cases runs with
      | nil => exact hnil rfl rfl
      | cons r runs => exact hcons r runs rfl rfl
  · split at h
    · cases h
    · next hfirst =>
      cases h
      exact .die hp hfirst
  · split at h
    · next hstarts =>
      cases h
      exact .minus hstarts
    · cases h
  · cases h

/-- What is computed behind an operand is a step. -/
theorem step_of_proceed {left : Nat} {b : Bool} {runs : List OpenRun} {t : Token} {q : Acceptor}
    (h : proceed left b runs t = some q) : TokenStep ⟨.complete left b, runs⟩ t q := by
  unfold proceed at h
  split at h
  · split at h
    · cases h
    · cases h
      exact .closes
    · cases h
      exact .closesMore
  · split at h
    · next hroll =>
      obtain ⟨rfl, rfl⟩ := hroll
      cases h
      exact .roll
    · cases h
  · split at h
    · next hjoin =>
      obtain ⟨rfl, hjoin⟩ := hjoin
      obtain ⟨op, heq⟩ := exists_operator hjoin
      cases h
      exact .operator heq
    · cases h

/-- Each step is computed. -/
theorem TokenStep.step?_eq {q q' : Acceptor} {t : Token} (h : TokenStep q t q') :
    q.step? t = some q' := by
  cases h with
  | number hp => rw [step?_of_awaits hp, enter]
  | @opens p runs hp hfirst =>
    rw [step?_of_awaits hp]
    cases p with
    | opened => exact absurd rfl hfirst
    | _ => rfl
  | opensMore => rfl
  | die hp hfirst => rw [step?_of_awaits hp, enter, if_neg hfirst]
  | minus hstarts => rw [step?_of_awaits hstarts.awaits, enter, if_pos hstarts]
  | roll => rfl
  | @operator op t b runs heq =>
    subst heq
    cases op <;> rfl
  | closes => rfl
  | closesMore => rfl

/-- What is computed are the steps. -/
theorem step?_eq_some_iff {q q' : Acceptor} {t : Token} : q.step? t = some q' ↔ TokenStep q t q' := by
  refine ⟨fun h => ?_, TokenStep.step?_eq⟩
  obtain ⟨p, runs⟩ := q
  cases p with
  | complete left b => exact step_of_proceed h
  | opened => exact step_of_enter trivial h
  | operand => exact step_of_enter trivial h
  | signed => exact step_of_enter trivial h
  | sides => exact step_of_enter trivial h

/-- A token has one step at most. -/
theorem TokenStep.unique {q q₁ q₂ : Acceptor} {t : Token} (h₁ : TokenStep q t q₁)
    (h₂ : TokenStep q t q₂) : q₁ = q₂ :=
  Option.some.inj (h₁.step?_eq.symm.trans h₂.step?_eq)

/-- Within the parentheses that close a run, only another one has a step. -/
theorem TokenStep.eq_close {left : Nat} {b : Bool} {runs : List OpenRun} {t : Token} {q : Acceptor}
    (h : TokenStep ⟨.complete (left + 1) b, runs⟩ t q) : t = .closeParen := by
  cases h with
  | closesMore => rfl
  | number hp => exact absurd hp id
  | opens hp => exact absurd hp id
  | die hp => exact absurd hp id
  | minus hp => exact absurd hp id

/-- Behind an operand, the letter of dice has a step where it can be rolled, an operator has one, and a
parenthesis that closes has one where a run is open. -/
theorem TokenStep.complete_cases {b : Bool} {runs : List OpenRun} {t : Token} {q : Acceptor}
    (h : TokenStep ⟨.complete 0 b, runs⟩ t q) :
    (t = .dice ∧ b = true) ∨ (∃ op : Arith, t = op.token) ∨ (t = .closeParen ∧ runs ≠ []) := by
  cases h with
  | roll => exact .inl ⟨rfl, rfl⟩
  | operator heq => exact .inr (.inl ⟨_, heq⟩)
  | closes => exact .inr (.inr ⟨rfl, List.cons_ne_nil _ _⟩)
  | number hp => exact absurd hp id
  | opens hp => exact absurd hp id
  | die hp => exact absurd hp id
  | minus hp => exact absurd hp id

/-- Where a number or a parenthesis that opens has a step, an operand is needed. -/
theorem TokenStep.awaits {q q' : Acceptor} {t : Token} (h : TokenStep q t q')
    (ht : t = .number ∨ t = .openParen) : q.phase.Awaits := by
  cases h with
  | number hp => exact hp
  | opens hp => exact hp
  | opensMore => trivial
  | @operator op t b runs heq =>
    subst heq
    cases op <;> rcases ht with ht | ht <;> cases ht
  | _ => rcases ht with ht | ht <;> cases ht

/-! ## Passing tokens -/

/-- From `q` the acceptor comes to `q'` over some tokens, with never more than `room` runs open. -/
inductive Passes (room : Nat) : Acceptor → List Token → Acceptor → Prop
  /-- Without tokens the acceptor stays as it is. -/
  | nil {q : Acceptor} : Passes room q [] q
  /-- The acceptor steps over the first token, and passes the others. -/
  | cons {q m q' : Acceptor} {t : Token} {ts : List Token} (step : TokenStep q t m)
    (fits : m.runs.length ≤ room) (rest : Passes room m ts q') : Passes room q (t :: ts) q'

namespace Passes

variable {room room' : Nat} {q m q' : Acceptor} {t : Token} {ts us : List Token}

/-- One step passes one token. -/
theorem single (step : TokenStep q t q') (fits : q'.runs.length ≤ room) : Passes room q [t] q' :=
  .cons step fits .nil

/-- The acceptor goes on where it has come to. -/
theorem append (h : Passes room q ts m) (h' : Passes room m us q') :
    Passes room q (ts ++ us) q' := by
  induction h with
  | nil => exact h'
  | cons step fits rest ih => exact .cons step fits (ih h')

/-- Over tokens in two parts the acceptor comes to their border. -/
theorem exists_of_append (h : Passes room q (ts ++ us) q') :
    ∃ m, Passes room q ts m ∧ Passes room m us q' := by
  induction ts generalizing q with
  | nil => exact ⟨q, .nil, h⟩
  | cons t ts ih =>
    cases h with
    | cons step fits rest =>
      obtain ⟨m, hleft, hright⟩ := ih rest
      exact ⟨m, .cons step fits hleft, hright⟩

/-- More room does no harm. -/
theorem mono (h : Passes room q ts q') (hle : room ≤ room') : Passes room' q ts q' := by
  induction h with
  | nil => exact .nil
  | cons step fits rest ih => exact .cons step (fits.trans hle) ih

/-- The acceptor comes to one place only, whatever the room. -/
theorem unique {q₁ q₂ : Acceptor} (h₁ : Passes room q ts q₁) (h₂ : Passes room' q ts q₂) :
    q₁ = q₂ := by
  induction h₁ with
  | nil =>
    cases h₂
    rfl
  | cons step₁ fits rest ih =>
    cases h₂ with
    | cons step₂ fits' rest' =>
      -- The room bounds the way and does not choose it.
      cases step₁.unique step₂
      exact ih rest'

end Passes

end Acceptor

/-! ## What the acceptor remembers -/

namespace Acceptor

/-- How many parentheses of each open run are still to close, the innermost run first. -/
def sizes (q : Acceptor) : List Nat :=
  match q.phase with
  | .complete (left + 1) _ => (left + 1) :: q.runs.map (·.extra + 1)
  | _ => q.runs.map (·.extra + 1)

/-- Where an operand is needed, no run is about to close. -/
theorem sizes_of_awaits {p : Phase} (h : p.Awaits) (runs : List OpenRun) :
    sizes ⟨p, runs⟩ = runs.map (·.extra + 1) := by
  cases p with
  | complete left b => exact absurd h id
  | _ => rfl

/-- What the acceptor remembers is true of the tokens that it has passed. -/
structure Describes (q : Acceptor) (ts : List Token) : Prop where
  /-- It knows the runs that are open. -/
  sizes : OpenSizes ts q.sizes
  /-- It knows whether an operand is needed. -/
  awaits : q.phase.Awaits ↔ AwaitsOperand ts
  /-- It knows whether a parenthesis has opened just now. -/
  opened : q.phase = .opened ↔ ts.getLast? = some .openParen

/-- At the start nothing is open and an operand is needed. -/
theorem describes_init : init.Describes [] :=
  ⟨.nil, by decide, by decide⟩

/-- An operand is needed behind all tokens but numbers and parentheses that close. -/
theorem TokenStep.awaits_iff {q q' : Acceptor} {t : Token} (h : TokenStep q t q') :
    q'.phase.Awaits ↔ t ≠ .number ∧ t ≠ .closeParen := by
  cases h with
  | @operator op t b runs heq =>
    subst heq
    cases op <;> simp [Phase.Awaits, Arith.token]
  | _ => simp [Phase.Awaits]

/-- A parenthesis has opened just now when it is the token of the step. -/
theorem TokenStep.opened_iff {q q' : Acceptor} {t : Token} (h : TokenStep q t q') :
    q'.phase = .opened ↔ t = .openParen := by
  cases h with
  | @operator op t b runs heq =>
    subst heq
    cases op <;> simp [Arith.token]
  | _ => simp

/-- A step keeps account of the runs that are open. -/
theorem Describes.sizes_step {q q' : Acceptor} {t : Token} {ts : List Token} (h : q.Describes ts)
    (hstep : TokenStep q t q') : OpenSizes (ts ++ [t]) q'.sizes := by
  have hsizes := h.sizes
  cases hstep with
  | number hp =>
    rw [sizes_of_awaits hp] at hsizes
    exact hsizes.other (by decide) (by decide)
  | opens hp hfirst =>
    rw [sizes_of_awaits hp] at hsizes
    have hlast : ts.getLast? ≠ some .openParen := fun hlast => hfirst (h.opened.2 hlast)
    exact hsizes.start hlast
  | opensMore => exact hsizes.more (h.opened.1 rfl)
  | die hp hfirst =>
    rw [sizes_of_awaits hp] at hsizes
    exact hsizes.other (by decide) (by decide)
  | minus hp =>
    rw [sizes_of_awaits hp.awaits] at hsizes
    exact hsizes.other (by decide) (by decide)
  | roll => exact hsizes.other (by decide) (by decide)
  | @operator op t b runs heq =>
    subst heq
    exact hsizes.other op.token_ne_open op.token_ne_close
  | @closes b r runs =>
    -- A run of one parenthesis is closed by it, and a longer one is about to.
    have hclose := OpenSizes.close hsizes
    cases hextra : r.extra with
    | zero =>
      rw [if_pos hextra] at hclose
      exact hclose
    | succ left =>
      rw [if_neg (by omega), hextra] at hclose
      exact hclose
  | @closesMore left b runs =>
    have hclose := OpenSizes.close hsizes
    cases left with
    | zero => exact hclose
    | succ left => exact hclose

/-- A step keeps what is remembered true. -/
theorem Describes.step {q q' : Acceptor} {t : Token} {ts : List Token} (h : q.Describes ts)
    (hstep : TokenStep q t q') : q'.Describes (ts ++ [t]) := by
  refine ⟨h.sizes_step hstep, ?_, ?_⟩
  · rw [hstep.awaits_iff, AwaitsOperand, List.getLast?_concat]
    simp
  · rw [hstep.opened_iff, List.getLast?_concat]
    simp

/-- What is remembered stays true over some tokens. -/
theorem Describes.passes {q q' : Acceptor} {room : Nat} {ts us : List Token} (h : q.Describes ts)
    (hp : Passes room q us q') : q'.Describes (ts ++ us) := by
  induction hp generalizing ts with
  | nil =>
    rw [List.append_nil]
    exact h
  | @cons q m q' t us step fits rest ih =>
    have hrest := ih (h.step step)
    rwa [List.append_assoc, List.singleton_append] at hrest

/-- From the start of a text, what is remembered is true of all that is passed. -/
theorem Passes.describes {q : Acceptor} {room : Nat} {ts : List Token} (h : Passes room init ts q) :
    q.Describes ts :=
  describes_init.passes h

end Acceptor

end DiceNotation
