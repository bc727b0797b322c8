import DiceNotation.Proofs.Evaluation.Following
import DiceNotation.Random.Generator

/-!
# Runs with a greater limit

A greater limit on dice changes nothing in a run that did not fail for too many dice, and in a run that
did it changes nothing before the operation that failed (`Program.run_of_le_limit`). The latter is the
former for the operations before that one, which is the operation that `executeAll_eq_error` finds.
-/

namespace DiceNotation

open Rolling

variable {σ : Type}

/-! ## The operation that fails -/

/-- A run that failed did so at one of its operations, which the operations before it have come to. -/
theorem executeAll_eq_error (S : Sampler σ) (size limit : Int) {ops : List Op} {stack : List Int}
    {s s' : σ} {e : Failure} (h : (executeAll S size limit ops stack).runFrom s = (.error e, s')) :
    ∃ before op after stack₁ s₁, ops = before ++ op :: after ∧
      (executeAll S size limit before stack).runFrom s = (.ok stack₁, s₁) ∧
      (op.execute S size limit stack₁).runFrom s₁ = (.error e, s') := by
  induction ops generalizing stack s with
  | nil => cases h
  | cons op ops ih =>
    rw [executeAll, runFrom_bind] at h
    rcases hop : (op.execute S size limit stack).runFrom s with ⟨e' | stack', s₁⟩
    · rw [hop] at h
      cases h
      exact ⟨[], op, ops, stack, s, rfl, rfl, hop⟩
    · rw [hop] at h
      obtain ⟨before, op', after, stack₁, s₂, rfl, hbefore, hfail⟩ := ih h
      refine ⟨op :: before, op', after, stack₁, s₂, rfl, ?_, hfail⟩
      rw [executeAll, runFrom_bind, hop]
      exact hbefore

/-- A run that failed as a roll did so at its operations. Making the stack fails for other reasons, and taking
the result off it only where it is empty. -/
theorem executeAll_of_run_eq_error {S : Sampler σ} {p : Program} {limit : Int} {s s' : σ}
    {e : RollError} (h : (p.run S limit).runFrom s = (.error (.roll e), s')) :
    (executeAll S p.stackSize limit p.ops []).runFrom s = (.error (.roll e), s') := by
  cases hsize : allocationError? p.stackSize with
  | some e' =>
    rw [p.run_of_allocationError S hsize] at h
    cases h
  | none =>
    rw [p.run_of_allocated S hsize, Program.compute, runFrom_bind] at h
    rcases hall : (executeAll S p.stackSize limit p.ops []).runFrom s with ⟨e' | stack, s₁⟩
    · rw [hall] at h
      cases h
      rfl
    · rw [hall] at h
      cases stack with
      | nil => cases h
      | cons v stack => cases h

/-! ## Greater limits -/

/-- The failure for too many dice. -/
def Failure.IsTooMany (e : Failure) : Prop :=
  e = .roll .tooManyRolls

/-- What is no failure for too many dice is the same with a greater limit. -/
theorem Rolling.Follows.eq_of_ne {α : Type} {x y : Rolling σ α}
    (h : y.Follows Eq Failure.IsTooMany x) {s : σ}
    (hne : (x.runFrom s).1 ≠ .error (.roll .tooManyRolls)) : y.runFrom s = x.runFrom s := by
  rcases h s s rfl with ⟨e, rfl, he⟩ | ⟨hsame, hstate⟩
  · exact absurd he hne
  · exact Prod.ext hsame hstate.symm

/-- With a limit `L'` that is no less than `L`, a run that does not fail for too many dice with `L` has
the same outcome, asks the sampler the same and leaves it in the same state. Where it does fail for too
many dice with `L`, the operations before the one that fails leave the same stack, calls and state. -/
theorem Program.run_of_le_limit {L L' : Int} (h : L ≤ L') (p : Program) (S : Sampler σ) (s : σ)
    (calls : List Sampler.Call) :
    (((p.run S L).runFrom s).1 ≠ .error (.roll .tooManyRolls) →
      (p.run S L').runFrom s = (p.run S L).runFrom s ∧
      (p.run S.recorded L').runFrom (s, calls) = (p.run S.recorded L).runFrom (s, calls)) ∧
    (((p.run S L).runFrom s).1 = .error (.roll .tooManyRolls) →
      ∃ before op after stack s₁ calls₁, p.ops = before ++ op :: after ∧
        (executeAll S.recorded p.stackSize L before []).runFrom (s, calls) =
          (.ok stack, s₁, calls₁) ∧
        ((op.execute S.recorded p.stackSize L stack).runFrom (s₁, calls₁)).1 =
          .error (.roll .tooManyRolls) ∧
        (executeAll S.recorded p.stackSize L' before []).runFrom (s, calls) =
          (.ok stack, s₁, calls₁)) := by
  have hlimit : L' = L ∨ L ≤ L' ∧ Failure.IsTooMany (.roll .tooManyRolls) := .inr ⟨h, rfl⟩
  have hrecorded := (p.runFrom_recorded L s calls (S := S)).1
  constructor
  · intro hne
    have hrun := p.run_follows S.follows_self hlimit
    have hrun' := p.run_follows S.recorded.follows_self hlimit
    refine ⟨hrun.eq_of_ne hne, hrun'.eq_of_ne ?_⟩
    rw [hrecorded]
    exact hne
  · intro hmany
    rw [hmany] at hrecorded
    rcases hrun : (p.run S.recorded L).runFrom (s, calls) with ⟨r, s', calls'⟩
    rw [hrun] at hrecorded
    obtain rfl : r = .error (.roll .tooManyRolls) := hrecorded
    obtain ⟨before, op, after, stack, ⟨s₁, calls₁⟩, hops, hbefore, hfail⟩ :=
      executeAll_eq_error S.recorded p.stackSize L (executeAll_of_run_eq_error hrun)
    refine ⟨before, op, after, stack, s₁, calls₁, hops, hbefore, by rw [hfail], ?_⟩
    -- The operations before have not failed, so they are the same with the greater limit.
    have hfollows := executeAll_follows S.recorded.follows_self hlimit p.stackSize before []
    rw [hfollows.eq_of_ne (by rw [hbefore]; exact fun hok => by cases hok), hbefore]

/-- Three dice of six sides that show a 3 each make 9 with the limit 3, and so they do with the limit
10. With the limit 2 they are too many. -/
theorem Program.run_of_le_limit_dice :
    (((⟨[.num 3, .num 6, .dice], 2⟩ : Program).run Fixed.sampler 10).runFrom (some 2)) =
      (.ok 9, some 2) ∧
    (((⟨[.num 3, .num 6, .dice], 2⟩ : Program).run Fixed.sampler 2).runFrom (some 2)).1 =
      .error (.roll .tooManyRolls) := by
  have hthree : ((⟨[.num 3, .num 6, .dice], 2⟩ : Program).run Fixed.sampler 3).runFrom (some 2) =
      (.ok 9, some 2) := rfl
  have hle := Program.run_of_le_limit (show (3 : Int) ≤ 10 by decide)
    ⟨[.num 3, .num 6, .dice], 2⟩ Fixed.sampler (some 2) []
  refine ⟨?_, rfl⟩
  rw [(hle.1 (by rw [hthree]; exact fun h => by cases h)).1, hthree]

end DiceNotation
