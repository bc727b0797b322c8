import DiceNotation.Evaluate
import DiceNotation.Proofs.Evaluation.Range
import DiceNotation.Proofs.Random.Period

/-!
# What evaluating a text comes to

With a seed of 64 bits an evaluation has a value in range, or the text is at fault, or its roll: the
stack of a compiled text has no faults, each bound that its dice ask for is one, and the seeded sampler
answers it. Any other seed is refused, but only after the text has compiled (`evaluateText_outcome`).
-/

namespace DiceNotation

open Rolling

/-! ## Kinds of errors -/

/-- The kinds of what can be wrong with a text. -/
def DiceError.Kind.OfText : DiceError.Kind → Prop
  | unexpectedEnd | unexpectedInput | expectedInput | invalidInteger => True
  | _ => False

/-- The kinds of what can be wrong with a roll. -/
def DiceError.Kind.OfRoll : DiceError.Kind → Prop
  | overflow | divisionByZero | negativeTimes | negativeSides | tooManyRolls => True
  | _ => False

/-- A syntax error is of one of the kinds of texts. -/
theorem ofText_kind (e : SyntaxError) : (DiceError.syntaxError e).kind.OfText := by
  cases e <;> exact trivial

/-- A roll error is of one of the kinds of rolls. -/
theorem ofRoll_kind (e : RollError) : (DiceError.rollError e).kind.OfRoll := by
  cases e <;> exact trivial

/-! ## Seeds -/

/-- An integer that fits in 64 bits without a sign. -/
def IsSeed (seed : Int) : Prop :=
  0 ≤ seed ∧ seed < 2 ^ 64

/-- The bounds of a seed are compared. -/
instance (seed : Int) : Decidable (IsSeed seed) :=
  inferInstanceAs (Decidable (_ ∧ _))

/-- A seed starts a counter. -/
theorem ofSeed_of_isSeed {seed : Int} (h : IsSeed seed) :
    Counter.ofSeed seed = .ok (UInt64.ofNat seed.toNat) :=
  if_pos h

/-- What is no seed is refused. -/
theorem ofSeed_of_not_isSeed {seed : Int} (h : ¬ IsSeed seed) :
    Counter.ofSeed seed = .error (.badSeed seed) :=
  if_neg h

/-- A run from a bad seed does not start. -/
theorem Program.roll_of_not_isSeed (p : Program) {seed : Int} (h : ¬ IsSeed seed) (limit : Int) :
    p.roll seed limit = .error (.generator (.badSeed seed)) := by
  unfold Program.roll
  rw [ofSeed_of_not_isSeed h]

/-- A run of a compiled text from a seed has a value in range, or its roll fails. -/
theorem Program.roll_outcome {text : String} {p : Program} (h : compile text = .ok p) {seed : Int}
    (hseed : IsSeed seed) (limit : Int) :
    (∃ v, p.roll seed limit = .ok v ∧ InRange v) ∨
      ∃ e, p.roll seed limit = .error (.dice (.rollError e)) := by
  have hrun := Program.run_inRange Counter.sampler_fair h limit (UInt64.ofNat seed.toNat)
  unfold Program.roll
  rw [ofSeed_of_isSeed hseed]
  dsimp only
  cases houtcome : ((p.run Counter.sampler limit).runFrom (UInt64.ofNat seed.toNat)).1 with
  | ok v =>
    rw [houtcome] at hrun
    exact .inl ⟨v, rfl, hrun⟩
  | error f =>
    rw [houtcome] at hrun
    obtain ⟨e, rfl⟩ := hrun
    exact .inr ⟨e, rfl⟩

/-! ## Texts -/

/-- A text that does not compile is refused whatever the seed. -/
theorem evaluateText_of_error {text : String} {e : SyntaxError} (h : compile text = .error e)
    (seed limit : Int) : evaluateText text seed limit = .error (.dice (.syntaxError e)) := by
  unfold evaluateText
  rw [h]
  rfl

/-- A text that compiles is evaluated as its program is. -/
theorem evaluateText_of_ok {text : String} {p : Program} (h : compile text = .ok p)
    (seed limit : Int) : evaluateText text seed limit = p.roll seed limit := by
  unfold evaluateText
  rw [h]

/-- Where an evaluation has a value, so has a try. -/
theorem tryRoll_of_ok {text : String} {seed limit v : Int} (h : evaluateText text seed limit = .ok v) :
    tryRoll text seed limit = .ok (some v) := by
  unfold tryRoll
  rw [h]

/-- Where the text or its roll is at fault a try has no value. -/
theorem tryRoll_of_dice {text : String} {seed limit : Int} {e : DiceError}
    (h : evaluateText text seed limit = .error (.dice e)) : tryRoll text seed limit = .ok none := by
  unfold tryRoll
  rw [h]

/-- A try fails where there is no generator. -/
theorem tryRoll_of_generator {text : String} {seed limit : Int} {e : GeneratorError}
    (h : evaluateText text seed limit = .error (.generator e)) :
    tryRoll text seed limit = .error (.generator e) := by
  unfold tryRoll
  rw [h]

/-- With a seed of 64 bits a text has a value in range, which a try gives too, or an error of one of nine
kinds, where a try gives none: four kinds are of texts that do not compile, and the other five of rolls.
Any other seed is refused by both exactly where the text compiles. -/
theorem evaluateText_outcome (text : String) (limit : Int) :
    (∀ seed, 0 ≤ seed ∧ seed < 2 ^ 64 →
      (∃ v, evaluateText text seed limit = .ok v ∧ -2 ^ 63 ≤ v ∧ v ≤ 2 ^ 63 - 1 ∧
        tryRoll text seed limit = .ok (some v)) ∨
      ∃ e, evaluateText text seed limit = .error (.dice e) ∧ (e.kind.OfText ∨ e.kind.OfRoll) ∧
        tryRoll text seed limit = .ok none) ∧
    (∀ e, compile text = .error e → (DiceError.syntaxError e).kind.OfText ∧
      ∀ seed, evaluateText text seed limit = .error (.dice (.syntaxError e)) ∧
        tryRoll text seed limit = .ok none) ∧
    (∀ p, compile text = .ok p → ∀ seed, 0 ≤ seed ∧ seed < 2 ^ 64 →
      (∃ v, p.roll seed limit = .ok v ∧ -2 ^ 63 ≤ v ∧ v ≤ 2 ^ 63 - 1) ∨
      ∃ e, p.roll seed limit = .error (.dice e) ∧ e.kind.OfRoll) ∧
    ∀ seed, ¬ (0 ≤ seed ∧ seed < 2 ^ 64) →
      (evaluateText text seed limit = .error (.generator (.badSeed seed)) ↔
        ∃ p, compile text = .ok p) ∧
      (tryRoll text seed limit = .error (.generator (.badSeed seed)) ↔
        ∃ p, compile text = .ok p) := by
  refine ⟨fun seed hseed => ?_, fun e he => ⟨ofText_kind e, fun seed => ?_⟩, fun p hp seed hseed => ?_,
    fun seed hseed => ?_⟩
  · cases hcompile : compile text with
    | error e =>
      have heval := evaluateText_of_error hcompile seed limit
      exact .inr ⟨_, heval, .inl (ofText_kind e), tryRoll_of_dice heval⟩
    | ok p =>
      have heval := evaluateText_of_ok hcompile seed limit
      rcases Program.roll_outcome hcompile hseed limit with ⟨v, hv, hrange⟩ | ⟨e, he⟩
      · rw [hv] at heval
        exact .inl ⟨v, heval, hrange.1, hrange.2, tryRoll_of_ok heval⟩
      · rw [he] at heval
        exact .inr ⟨_, heval, .inr (ofRoll_kind e), tryRoll_of_dice heval⟩
  · have heval := evaluateText_of_error he seed limit
    exact ⟨heval, tryRoll_of_dice heval⟩
  · rcases Program.roll_outcome hp hseed limit with ⟨v, hv, hrange⟩ | ⟨e, he⟩
    · exact .inl ⟨v, hv, hrange.1, hrange.2⟩
    · exact .inr ⟨_, he, ofRoll_kind e⟩
  · cases hcompile : compile text with
    | error e =>
      -- The text is refused before the seed is looked at.
      have heval := evaluateText_of_error hcompile seed limit
      rw [heval, tryRoll_of_dice heval]
      simp
    | ok p =>
      have heval := evaluateText_of_ok hcompile seed limit
      rw [p.roll_of_not_isSeed hseed limit] at heval
      rw [heval, tryRoll_of_generator heval]
      simp

/-- Two dice with the seed 7 have a value, and the seed -1 is refused though nothing would be rolled. -/
theorem evaluateText_outcome_dice :
    (∃ v, evaluateText "2d6" 7 5 = .ok v ∧ -2 ^ 63 ≤ v ∧ v ≤ 2 ^ 63 - 1 ∧
      tryRoll "2d6" 7 5 = .ok (some v)) ∧
    evaluateText "2-1" (-1) 5 = .error (.generator (.badSeed (-1))) := by
  have hdice : compile "2d6" = .ok ⟨[.num 2, .num 6, .dice], 2⟩ := by with_unfolding_all rfl
  have hminus : compile "2-1" = .ok ⟨[.num 2, .num 1, .arith .sub], 2⟩ := by with_unfolding_all rfl
  obtain ⟨hvalue, -, -, -⟩ := evaluateText_outcome "2d6" 5
  obtain ⟨-, -, -, hseed⟩ := evaluateText_outcome "2-1" 5
  refine ⟨?_, (hseed (-1) (by decide)).1.2 ⟨_, hminus⟩⟩
  rcases hvalue 7 (by decide) with hok | ⟨e, he, -, -⟩
  · exact hok
  · -- The roll of the two dice succeeds.
    rw [evaluateText_of_ok hdice] at he
    cases he

end DiceNotation
