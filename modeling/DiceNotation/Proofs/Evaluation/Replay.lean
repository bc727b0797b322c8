import DiceNotation.Proofs.Evaluation.Inquiry
import DiceNotation.Random.Generator

/-!
# Replaying a run

A run depends on its sampler through the answers only. If a second sampler, of whatever kind, answers the
calls of a run as they were answered there, a run with it makes the same calls and has the same outcome
(`Inquiry.run_of_answers`). One such sampler is the record of the numbers that were drawn
(`Sampler.replay`): it is used up when the run ends, be it with a value or with a failure
(`Inquiry.run_of_record`).
-/

namespace DiceNotation

variable {σ τ α : Type}

/-! ## Answers -/

namespace Sampler

/-- From a state on, a sampler answers calls as they are noted, one after another. -/
def Answers (T : Sampler τ) : τ → List Call → Prop
  | _, [] => True
  | t, c :: cs => (T.sample c.bound t).1 = c.answer ∧ T.Answers (T.sample c.bound t).2 cs

/-- The numbers of a record in their order, each for the bound that it was drawn with. What is asked
besides is refused, with an error that may depend on the bound. -/
def replay (refuse : Int → SampleError) : Sampler (List (Int × Int)) where
  sample n
    | [] => (.error (refuse n), [])
    | (m, v) :: draws =>
      if n = m then (.ok v, draws) else (.error (refuse n), (m, v) :: draws)

/-- The numbers that were drawn in some calls, with their bounds. -/
def draws (cs : List Call) : List (Int × Int) :=
  cs.filterMap Call.draw?

/-- Without calls there are no draws. -/
@[simp] theorem draws_nil : draws [] = [] := rfl

/-- A call that was answered is a draw. -/
@[simp] theorem draws_ok (n v : Int) (cs : List Call) :
    draws (⟨n, .ok v⟩ :: cs) = (n, v) :: draws cs := rfl

/-- A call that was refused is no draw. -/
@[simp] theorem draws_error (n : Int) (e : SampleError) (cs : List Call) :
    draws (⟨n, .error e⟩ :: cs) = draws cs := rfl

end Sampler

open Sampler

/-! ## Inquiries -/

namespace Inquiry

/-- With a sampler that answers its calls an inquiry has the same outcome and makes the same calls. -/
theorem run_of_answers {S : Sampler σ} {T : Sampler τ} {q : Inquiry α} {s : σ} {t : τ}
    (h : T.Answers t (q.calls S s)) :
    (q.run T t).1 = (q.run S s).1 ∧ q.calls T t = q.calls S s := by
  induction q generalizing s t with
  | done outcome => exact ⟨rfl, rfl⟩
  | ask n next ih =>
    rcases hS : S.sample n s with ⟨e | v, s'⟩
    · rw [calls_of_error hS] at h
      have hT : T.sample n t = (.error e, (T.sample n t).2) := Prod.ext h.1 rfl
      rw [run_of_error hS, run_of_error hT, calls_of_error hS, calls_of_error hT]
      exact ⟨rfl, rfl⟩
    · rw [calls_of_ok hS] at h
      have hT : T.sample n t = (.ok v, (T.sample n t).2) := Prod.ext h.1 rfl
      obtain ⟨hrun, hcalls⟩ := ih v h.2
      rw [run_of_ok hS, run_of_ok hT, calls_of_ok hS, calls_of_ok hT, hcalls]
      exact ⟨hrun, rfl⟩

/-- A record of the numbers that an inquiry has drawn gives its outcome again and is used up then, if it
refuses a call that was refused in the same way. Nothing is asked behind such a call. -/
theorem run_of_record {S : Sampler σ} {q : Inquiry α} {s : σ} {refuse : Int → SampleError}
    (h : ∀ c ∈ q.calls S s, ∀ e, c.answer = .error e → e = refuse c.bound) :
    q.run (replay refuse) (draws (q.calls S s)) = ((q.run S s).1, []) ∧
      q.calls (replay refuse) (draws (q.calls S s)) = q.calls S s := by
  induction q generalizing s with
  | done outcome => exact ⟨rfl, rfl⟩
  | ask n next ih =>
    rcases hS : S.sample n s with ⟨e | v, s'⟩
    · rw [calls_of_error hS] at h ⊢
      obtain rfl : e = refuse n := h ⟨n, .error e⟩ (List.mem_singleton.2 rfl) e rfl
      -- The record is at its end, where the replay refuses too.
      have hreplay : (replay refuse).sample n [] = (.error (refuse n), []) := rfl
      rw [draws_error, draws_nil, run_of_error hreplay, run_of_error hS, calls_of_error hreplay]
      exact ⟨rfl, rfl⟩
    · rw [calls_of_ok hS] at h ⊢
      have hreplay : (replay refuse).sample n ((n, v) :: draws ((next v).calls S s')) =
          (.ok v, draws ((next v).calls S s')) := if_pos rfl
      obtain ⟨hrun, hcalls⟩ := ih v fun c hc => h c (List.mem_cons_of_mem _ hc)
      rw [draws_ok, run_of_ok hreplay, run_of_ok hS, calls_of_ok hreplay, hcalls]
      exact ⟨hrun, rfl⟩

/-- Each call is answered by the sampler. -/
theorem exists_of_mem_calls {S : Sampler σ} {q : Inquiry α} {s : σ} {c : Call}
    (h : c ∈ q.calls S s) : ∃ s', (S.sample c.bound s').1 = c.answer := by
  induction q generalizing s with
  | done outcome => cases h
  | ask n next ih =>
    rcases hS : S.sample n s with ⟨e | v, s'⟩
    · rw [calls_of_error hS] at h
      obtain rfl := List.mem_singleton.1 h
      exact ⟨s, by rw [hS]⟩
    · rw [calls_of_ok hS] at h
      rcases List.mem_cons.1 h with rfl | h
      · exact ⟨s, by rw [hS]⟩
      · exact ih v h

end Inquiry

/-! ## Refusals of the generators -/

/-- What a source of words says to a bound for which it has no number. -/
def SampleError.ofBound (n : Int) : SampleError :=
  if IsBound n then .exhausted else .badBound n

/-- Words are only refused where there are no more. -/
theorem WordSource.eq_exhausted_of_settle (W : WordSource σ) {n threshold tries m : Nat} {s : σ}
    {e : SampleError} (h : (W.settle n threshold tries m s).1 = .error e) : e = .exhausted := by
  induction tries generalizing m s with
  | zero =>
    unfold settle at h
    split at h
    · cases h
      rfl
    · cases h
  | succ tries ih =>
    unfold settle at h
    split at h
    · dsimp only at h
      rcases hnext : W.next? s with _ | ⟨w, s'⟩
      · rw [hnext] at h
        cases h
        rfl
      · rw [hnext] at h
        exact ih h
    · cases h

/-- A source of words refuses what is no bound, and else is at its end. -/
theorem WordSource.eq_ofBound_of_sample (W : WordSource σ) {tries : Nat} {n : Int} {s : σ}
    {e : SampleError} (h : (W.sample tries n s).1 = .error e) : e = .ofBound n := by
  unfold sample at h
  unfold SampleError.ofBound
  split at h
  · next hbound =>
    rw [if_pos hbound]
    dsimp only at h
    rcases hnext : W.next? s with _ | ⟨w, s'⟩
    · rw [hnext] at h
      cases h
      rfl
    · rw [hnext] at h
      dsimp only at h
      split at h
      · exact W.eq_exhausted_of_settle h
      · cases h
  · next hbound =>
    rw [if_neg hbound]
    cases h
    rfl

/-- So does every generator. -/
theorem Generator.eq_ofBound_of_sample {n : Int} {g : Generator} {e : SampleError}
    (h : (Generator.sampler.sample n g).1 = .error e) : e = .ofBound n := by
  cases g with
  | seeded s => exact Counter.words.eq_ofBound_of_sample h
  | fixed v =>
    unfold SampleError.ofBound
    by_cases hbound : IsBound n
    · simp [Generator.sampler, Fixed.sampler, hbound] at h
    · simp only [Generator.sampler, Fixed.sampler, if_neg hbound] at h
      rw [if_neg hbound]
      cases h
      rfl
  | scripted ws => exact Script.words.eq_ofBound_of_sample h

/-! ## Programs -/

/-- The calls of a run, the first one first. -/
def Program.calls (p : Program) (S : Sampler σ) (limit : Int) (s : σ) : List Call :=
  ((p.run S.recorded limit).runFrom (s, [])).2.2.reverse

/-- One inquiry gives the outcomes and the calls of a program with all samplers. -/
theorem Program.exists_inquiry (p : Program) (limit : Int) :
    ∃ q : Inquiry Int, ∀ {σ : Type} (S : Sampler σ) (s : σ),
      (p.run S limit).runFrom s = q.run S s ∧ p.calls S limit s = q.calls S s := by
  obtain ⟨q, hq⟩ := p.run_uniform limit
  exact ⟨q, fun {σ} S s => ⟨hq σ S s, Rolling.calls_eq_of_run hq S s⟩⟩

/-- A sampler that answers the calls of a run as they were answered makes a run with the same calls and
the same outcome, whatever the two samplers are. So the numbers that were drawn in a run, in their order
and with their bounds, give its outcome again and are all used up by that, where a call that was refused
is refused in the same way. For the generators this is so whether the run has a value or fails. -/
theorem Program.run_replay (p : Program) (limit : Int) :
    (∀ {σ τ : Type} (S : Sampler σ) (T : Sampler τ) (s : σ) (t : τ),
      T.Answers t (p.calls S limit s) →
        ((p.run T limit).runFrom t).1 = ((p.run S limit).runFrom s).1 ∧
          p.calls T limit t = p.calls S limit s) ∧
    (∀ {σ : Type} (S : Sampler σ) (s : σ) (refuse : Int → SampleError),
      (∀ c ∈ p.calls S limit s, ∀ e, c.answer = .error e → e = refuse c.bound) →
        (p.run (replay refuse) limit).runFrom (draws (p.calls S limit s)) =
            (((p.run S limit).runFrom s).1, []) ∧
          p.calls (replay refuse) limit (draws (p.calls S limit s)) = p.calls S limit s) ∧
    ∀ g : Generator,
      (p.run (replay .ofBound) limit).runFrom (draws (p.calls Generator.sampler limit g)) =
          (((p.run Generator.sampler limit).runFrom g).1, []) ∧
        p.calls (replay .ofBound) limit (draws (p.calls Generator.sampler limit g)) =
          p.calls Generator.sampler limit g := by
  obtain ⟨q, hq⟩ := p.exists_inquiry limit
  have hreplay : ∀ {σ : Type} (S : Sampler σ) (s : σ) (refuse : Int → SampleError),
      (∀ c ∈ p.calls S limit s, ∀ e, c.answer = .error e → e = refuse c.bound) →
        (p.run (replay refuse) limit).runFrom (draws (p.calls S limit s)) =
            (((p.run S limit).runFrom s).1, []) ∧
          p.calls (replay refuse) limit (draws (p.calls S limit s)) = p.calls S limit s := by
    intro σ S s refuse h
    rw [(hq S s).2] at h ⊢
    rw [(hq S s).1, (hq (replay refuse) _).1, (hq (replay refuse) _).2]
    exact Inquiry.run_of_record h
  refine ⟨fun S T s t h => ?_, hreplay, fun g => hreplay Generator.sampler g .ofBound ?_⟩
  · rw [(hq S s).2] at h ⊢
    rw [(hq S s).1, (hq T t).1, (hq T t).2]
    exact Inquiry.run_of_answers h
  · intro c hc e he
    rw [(hq Generator.sampler g).2] at hc
    obtain ⟨g', hg'⟩ := Inquiry.exists_of_mem_calls hc
    exact Generator.eq_ofBound_of_sample (hg'.trans he)

/-- Two dice of six sides show the same faces with words from a list as with a fixed answer, if the words
stand for that answer, and with the record of the two draws. -/
theorem Program.run_replay_faces :
    Script.sampler.Answers [0x7FFFFFFFFFFFFFFF, 0x7FFFFFFFFFFFFFFF]
        ((⟨[.num 2, .num 6, .dice], 2⟩ : Program).calls Fixed.sampler 5 (some 2)) ∧
      (((⟨[.num 2, .num 6, .dice], 2⟩ : Program).run Script.sampler 5).runFrom
        [0x7FFFFFFFFFFFFFFF, 0x7FFFFFFFFFFFFFFF]).1 = .ok 6 ∧
      ((⟨[.num 2, .num 6, .dice], 2⟩ : Program).run (replay .ofBound) 5).runFrom [(6, 2), (6, 2)] =
        (.ok 6, []) := by
  have hcalls : (⟨[.num 2, .num 6, .dice], 2⟩ : Program).calls Fixed.sampler 5 (some 2) =
      [⟨6, .ok 2⟩, ⟨6, .ok 2⟩] := rfl
  have hanswers : Script.sampler.Answers [0x7FFFFFFFFFFFFFFF, 0x7FFFFFFFFFFFFFFF]
      ((⟨[.num 2, .num 6, .dice], 2⟩ : Program).calls Fixed.sampler 5 (some 2)) := by
    rw [hcalls]
    exact ⟨rfl, rfl, trivial⟩
  obtain ⟨hsame, hrecord, -⟩ := Program.run_replay ⟨[.num 2, .num 6, .dice], 2⟩ 5
  have hreplay := hrecord Fixed.sampler (some 2) .ofBound
  rw [hcalls] at hreplay
  refine ⟨hanswers, (hsame Fixed.sampler Script.sampler (some 2) _ hanswers).1, (hreplay ?_).1⟩
  intro c hc e he
  obtain rfl : c = ⟨6, .ok 2⟩ := by simpa using hc
  cases he

end DiceNotation
