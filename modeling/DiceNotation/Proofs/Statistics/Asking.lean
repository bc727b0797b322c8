import DiceNotation.Proofs.Evaluation.Sampling
import DiceNotation.Proofs.Statistics.Library

/-!
# Asking for a statistic of a compiled text

A statistic needs a seed, from its caller or from the settings, and says so before anything is rolled. With
one it is that of the values of the seeds in a row, as many as the settings ask for, where those that fail
are left out. It is refused if no seeds are asked for, and fails as the first seed does if all of them do.
The values are 64-bit integers, so a library that works as it should has no complaint about them, and there
is nothing else that can stop the statistic (`Statistic.roll_cases`, `Statistic.roll_of_compile`).
-/

namespace DiceNotation

open Statistics

variable {p : Program}

/-! ## Seeds in a row -/

/-- The values of `n` seeds in a row from `base` on, modulo `2^64`. The seeds that fail are left out. -/
def Program.successes (p : Program) (base limit : Int) (n : Nat) : List Int :=
  (List.range n).filterMap fun i : Nat => (p.roll ((base + i) % 2 ^ 64) limit).toOption

/-- The values of a sample are those of its seeds. -/
theorem Program.filterMap_deriveSeeds (p : Program) (base limit : Int) (n : Nat) :
    (deriveSeeds base n).filterMap (fun s => (p.roll s limit).toOption) = p.successes base limit n := by
  rw [deriveSeeds, Int.toNat_natCast, List.filterMap_map]
  rfl

/-- Some of the seeds have a value when one of them has. -/
theorem Program.successes_ne_nil_iff (p : Program) (base limit : Int) (n : Nat) :
    p.successes base limit n ≠ [] ↔ ∃ i < n, ∃ v, p.roll ((base + (i : Int)) % 2 ^ 64) limit = .ok v := by
  rw [successes, ne_eq, List.filterMap_eq_nil_iff]
  simp only [List.mem_range, not_forall, exists_prop, ← ne_eq, Option.ne_none_iff_exists',
    toOption_eq_some_iff]

/-- Not all of the seeds fail when one of them has a value. -/
theorem Program.not_forall_fails {base limit v : Int} {i n : Nat} (hi : i < n)
    (hv : p.roll ((base + (i : Int)) % 2 ^ 64) limit = .ok v) :
    ¬ ∀ i < n, ∃ e, p.roll ((base + (i : Int)) % 2 ^ 64) limit = .error e := by
  intro hall
  obtain ⟨e, he⟩ := hall i hi
  rw [hv] at he
  cases he

/-- The seeds of a sample are so many in a row. -/
theorem mem_deriveSeeds_iff {base seed : Int} {n : Nat} :
    seed ∈ deriveSeeds base n ↔ ∃ i < n, seed = (base + (i : Int)) % 2 ^ 64 := by
  rw [deriveSeeds, Int.toNat_natCast, List.mem_map]
  simp only [List.mem_range, eq_comm]
  rfl

/-- The values of the program of a text are a series of 64-bit integers. -/
theorem Program.isSeries_successes {text : String} (h : compile text = .ok p) (base limit : Int) (n : Nat) :
    IsSeries (p.successes base limit n) := by
  rw [← p.filterMap_deriveSeeds]
  exact fun v hv => inRange_of_mem_values h limit base n hv

/-- The first seed is the one that is started from. -/
theorem head_deriveSeeds {base seed : Int} {rest : List Int} {n : Nat}
    (h : deriveSeeds base n = seed :: rest) : 0 < n ∧ seed = base % 2 ^ 64 := by
  cases n with
  | zero => cases h
  | succ n =>
    have hseeds : deriveSeeds base (n + 1 : Nat) =
        (List.range (n + 1)).map fun i : Nat => (base + i) % wordCount := rfl
    rw [hseeds, List.range_succ_eq_map, List.map_cons, Int.natCast_zero, Int.add_zero] at h
    exact ⟨Nat.succ_pos n, (List.cons.inj h).1.symm⟩

namespace Statistic

variable {L : SeriesLibrary} {settings : Settings} {seed? limit? : Option Int} {s l : Int}

/-! ## The seed and the limit -/

/-- The seed that a statistic starts from: the one that is given, or else that of the settings. -/
def StartsFrom (settings : Settings) (seed? : Option Int) (s : Int) : Prop :=
  seed? = some s ∨ seed? = none ∧ settings.seed.map Int.ofNat = some s

/-- The limit that a statistic rolls with: the one that is given, or else that of the settings. -/
def RollsWith (settings : Settings) (limit? : Option Int) (l : Int) : Prop :=
  limit? = some l ∨ limit? = none ∧ l = settings.rollLimit

/-- A statistic has a seed to start from unless none is given and the settings have none. -/
theorem exists_startsFrom_iff (settings : Settings) (seed? : Option Int) :
    (∃ s, StartsFrom settings seed? s) ↔ ¬ (seed? = none ∧ settings.seed = none) := by
  cases seed? with
  | some s => simp [StartsFrom]
  | none => cases hseed : settings.seed <;> simp [StartsFrom, hseed]

/-- A statistic always has a limit. -/
theorem exists_rollsWith (settings : Settings) (limit? : Option Int) : ∃ l, RollsWith settings limit? l := by
  cases limit? with
  | some l => exact ⟨l, .inl rfl⟩
  | none => exact ⟨settings.rollLimit, .inr ⟨rfl, rfl⟩⟩

/-- A statistic without a seed is refused, whatever the library and the program are. -/
theorem roll_of_no_seed (L : SeriesLibrary) (f : Statistic) (h : settings.seed = none) (p : Program)
    (limit? : Option Int) : f.roll L settings p none limit? = .error (.dice f.noSeed) := by
  rw [roll, h]
  rfl

/-- With a seed and a limit, a statistic is that of the sample that they give. -/
theorem roll_eq (L : SeriesLibrary) (f : Statistic) (p : Program) (hs : StartsFrom settings seed? s)
    (hl : RollsWith settings limit? l) :
    f.roll L settings p seed? limit? = (sampleRolls p s l settings.samples >>= f.apply L settings) := by
  have hseed : seed?.or (settings.seed.map Int.ofNat) = some s := by
    rcases hs with rfl | ⟨rfl, hs⟩
    · rfl
    · exact hs
  have hlimit : limit?.getD settings.rollLimit = l := by
    rcases hl with rfl | ⟨rfl, rfl⟩ <;> rfl
  rw [roll, hseed]
  dsimp only
  rw [hlimit]

/-! ## The outcomes -/

/-- A roll of a compiled text fails for the roll's sake. -/
theorem exists_cause_of_roll {text : String} (h : compile text = .ok p) (s l : Int) {e : Problem}
    (he : p.roll (s % 2 ^ 64) l = .error e) : ∃ cause, e = .dice (.rollError cause) := by
  have hseed : IsSeed (s % 2 ^ 64) :=
    ⟨Int.emod_nonneg s (by decide), Int.emod_lt_of_pos s (by decide)⟩
  rcases Program.roll_outcome h hseed l with ⟨v, hv, -⟩ | ⟨cause, hcause⟩
  · rw [hv] at he
    cases he
  · rw [hcause] at he
    exact ⟨cause, (Except.error.inj he).symm⟩

/-- A statistic tells apart that it has no seed and that it has no values. -/
theorem noSeed_ne_noRolls (f : Statistic) : f.noSeed ≠ f.noRolls := by
  cases f <;> decide

section

variable (hL : L.Spec) {f : Statistic} (hf : f ≠ .chart) {text : String} (h : compile text = .ok p)

include hL hf h

section

variable (hs : StartsFrom settings seed? s) (hl : RollsWith settings limit? l)

include hs hl

/-- A statistic with a seed is refused if there are no samples, fails as the first seed does if all of them
fail, and is that of their values if there is one. -/
theorem roll_cases :
    (settings.samples = 0 ∧ f.roll L settings p seed? limit? = .error (.dice f.noRolls)) ∨
    (∃ cause, 0 < settings.samples ∧
      (∀ i < settings.samples, ∃ e, p.roll ((s + (i : Int)) % 2 ^ 64) l = .error e) ∧
      p.roll (s % 2 ^ 64) l = .error (.dice (.rollError cause)) ∧
      f.roll L settings p seed? limit? = .error (.dice (.rollError cause))) ∨
    ∃ summary, (∃ i < settings.samples, ∃ v, p.roll ((s + (i : Int)) % 2 ^ 64) l = .ok v) ∧
      Describes L (p.successes s l settings.samples) f summary ∧
      f.apply L settings (p.successes s l settings.samples) = .ok summary ∧
      f.roll L settings p seed? limit? = .ok summary := by
  rw [f.roll_eq L p hs hl]
  rcases sampleRolls_cases h l s settings.samples with
    ⟨hok, hseeds⟩ | ⟨seed, rest, cause, hseeds, hfirst, hall, herror⟩
  · rw [hok, ok_bind, p.filterMap_deriveSeeds]
    rcases hseeds with hnone | ⟨seed, hseed, v, hv⟩
    · -- Without seeds there are no values.
      have hzero : settings.samples = 0 := by
        simpa [deriveSeeds] using hnone
      have hvalues : p.successes s l settings.samples = [] := by
        rw [hzero]
        rfl
      exact .inl ⟨hzero, by rw [hvalues, apply_nil]⟩
    · obtain ⟨i, hi, rfl⟩ := mem_deriveSeeds_iff.1 hseed
      have hsome : ∃ i < settings.samples, ∃ v, p.roll ((s + (i : Int)) % 2 ^ 64) l = .ok v :=
        ⟨i, hi, v, hv⟩
      have hvalues := (p.successes_ne_nil_iff s l settings.samples).2 hsome
      have hseries := Program.isSeries_successes h s l settings.samples
      obtain ⟨summary, hsummary, hdescribes⟩ := exists_apply_eq_ok hL hf settings hseries hvalues
      exact .inr (.inr ⟨summary, hsome, hdescribes, hsummary, hsummary⟩)
  · obtain ⟨hpos, rfl⟩ := head_deriveSeeds hseeds
    refine .inr (.inl ⟨cause, hpos, fun i hi => hall _ (mem_deriveSeeds_iff.2 ⟨i, hi, rfl⟩), hfirst, ?_⟩)
    rw [herror]
    rfl

/-- A statistic with a seed is refused for want of values where no samples are asked for, and only there. -/
theorem roll_eq_noRolls_iff :
    f.roll L settings p seed? limit? = .error (.dice f.noRolls) ↔ settings.samples = 0 := by
  rcases roll_cases hL hf h hs hl with
    ⟨hzero, heq⟩ | ⟨cause, hpos, -, -, heq⟩ | ⟨summary, ⟨i, hi, -⟩, -, -, heq⟩ <;> rw [heq]
  · exact iff_of_true rfl hzero
  · exact iff_of_false (fun heq => by cases heq) hpos.ne'
  · exact iff_of_false (fun heq => by cases heq) (by omega)

/-- A statistic with a seed fails as the first roll does where there are samples and all of them fail, and
only there. -/
theorem roll_eq_first_iff :
    (∃ e, p.roll (s % 2 ^ 64) l = .error e ∧ f.roll L settings p seed? limit? = .error e) ↔
      0 < settings.samples ∧
        ∀ i < settings.samples, ∃ e, p.roll ((s + (i : Int)) % 2 ^ 64) l = .error e := by
  rcases roll_cases hL hf h hs hl with
    ⟨hzero, heq⟩ | ⟨cause, hpos, hall, hfirst, heq⟩ | ⟨summary, ⟨i, hi, v, hv⟩, -, -, heq⟩ <;> rw [heq]
  · refine iff_of_false ?_ fun hfails => hfails.1.ne' hzero
    -- No roll fails for want of values.
    rintro ⟨e, hfirst, he⟩
    obtain ⟨cause, rfl⟩ := exists_cause_of_roll h s l hfirst
    cases he
  · exact iff_of_true ⟨_, hfirst, rfl⟩ ⟨hpos, hall⟩
  · refine iff_of_false ?_ fun hfails => Program.not_forall_fails hi hv hfails.2
    rintro ⟨e, -, he⟩
    cases he

/-- A statistic with a seed is that of the rolls that succeed where there is one. -/
theorem exists_roll_eq_ok
    (hsome : ∃ i < settings.samples, ∃ v, p.roll ((s + (i : Int)) % 2 ^ 64) l = .ok v) :
    ∃ summary, Describes L (p.successes s l settings.samples) f summary ∧
      f.apply L settings (p.successes s l settings.samples) = .ok summary ∧
      f.roll L settings p seed? limit? = .ok summary := by
  obtain ⟨i, hi, v, hv⟩ := hsome
  rcases roll_cases hL hf h hs hl with ⟨hzero, -⟩ | ⟨cause, -, hall, -⟩ | ⟨summary, -, hsummary⟩
  · omega
  · exact absurd hall (Program.not_forall_fails hi hv)
  · exact ⟨summary, hsummary⟩

end

/-- A statistic of a compiled text is refused for want of a seed where it has none, and only there. -/
theorem roll_eq_noSeed_iff (settings : Settings) (seed? limit? : Option Int) :
    f.roll L settings p seed? limit? = .error (.dice f.noSeed) ↔ seed? = none ∧ settings.seed = none := by
  constructor
  · intro hroll
    by_contra hseed
    obtain ⟨s, hs⟩ := (exists_startsFrom_iff settings seed?).2 hseed
    obtain ⟨l, hl⟩ := exists_rollsWith settings limit?
    rcases roll_cases hL hf h hs hl with
      ⟨-, heq⟩ | ⟨cause, -, -, -, heq⟩ | ⟨summary, -, -, -, heq⟩ <;> rw [hroll] at heq
    · exact f.noSeed_ne_noRolls (Problem.dice.inj (Except.error.inj heq))
    · cases heq
    · cases heq
  · rintro ⟨rfl, hseed⟩
    exact f.roll_of_no_seed L hseed p limit?

/-- There is nothing else that stops a statistic of a compiled text. -/
theorem cases_of_roll_eq_error {e : Problem} (he : f.roll L settings p seed? limit? = .error e) :
    e = .dice f.noSeed ∨ e = .dice f.noRolls ∨ ∃ cause, e = .dice (.rollError cause) := by
  by_cases hseed : seed? = none ∧ settings.seed = none
  · rw [(roll_eq_noSeed_iff hL hf h settings seed? limit?).2 hseed] at he
    exact .inl (Except.error.inj he).symm
  · obtain ⟨s, hs⟩ := (exists_startsFrom_iff settings seed?).2 hseed
    obtain ⟨l, hl⟩ := exists_rollsWith settings limit?
    rcases roll_cases hL hf h hs hl with
      ⟨-, heq⟩ | ⟨cause, -, -, -, heq⟩ | ⟨summary, -, -, -, heq⟩ <;> rw [heq] at he
    · exact .inr (.inl (Except.error.inj he).symm)
    · exact .inr (.inr ⟨cause, (Except.error.inj he).symm⟩)
    · cases he

end

/-- With a library for series that works as it should, any statistic but the chart of a compiled text is
refused for want of a seed exactly if none is given and the settings have none, and then whatever the library
and the program are. With a seed `s` and a limit `l`, which are those given and where none is given those of
the settings, it is refused for want of values exactly if no samples are asked for; it fails as the roll with
`s` modulo `2^64` does exactly if there are samples and the rolls with all of their seeds fail; and otherwise
it is the statistic of the values of the rolls that succeed, in the order of the seeds: the library's mean of
them, the least or the greatest of them, or the share of each. Nothing else can stop it. -/
theorem roll_of_compile {L : SeriesLibrary} (hL : L.Spec) {f : Statistic} (hf : f ≠ .chart)
    (settings : Settings) {text : String} {p : Program} (h : compile text = .ok p)
    (seed? limit? : Option Int) :
    (f.roll L settings p seed? limit? = .error (.dice (.general (f.name ++ " needs a seed"))) ↔
      seed? = none ∧ settings.seed = none) ∧
    (seed? = none → settings.seed = none → ∀ (M : SeriesLibrary) (q : Program),
      f.roll M settings q seed? limit? = .error (.dice (.general (f.name ++ " needs a seed")))) ∧
    (∀ s l : Int, (seed? = some s ∨ seed? = none ∧ settings.seed.map Int.ofNat = some s) →
      (limit? = some l ∨ limit? = none ∧ l = settings.rollLimit) →
      (f.roll L settings p seed? limit? =
          .error (.dice (.general (f.name ++ " of no rolls cannot be computed"))) ↔
        settings.samples = 0) ∧
      ((∃ e, p.roll (s % 2 ^ 64) l = .error e ∧ f.roll L settings p seed? limit? = .error e) ↔
        0 < settings.samples ∧
          ∀ i < settings.samples, ∃ e, p.roll ((s + (i : Int)) % 2 ^ 64) l = .error e) ∧
      ((∃ i < settings.samples, ∃ v, p.roll ((s + (i : Int)) % 2 ^ 64) l = .ok v) →
        ∃ summary, Describes L ((List.range settings.samples).filterMap fun i : Nat =>
            (p.roll ((s + i) % 2 ^ 64) l).toOption) f summary ∧
          f.apply L settings ((List.range settings.samples).filterMap fun i : Nat =>
            (p.roll ((s + i) % 2 ^ 64) l).toOption) = .ok summary ∧
          f.roll L settings p seed? limit? = .ok summary)) ∧
    ∀ e, f.roll L settings p seed? limit? = .error e →
      e = .dice f.noSeed ∨ e = .dice f.noRolls ∨ ∃ cause, e = .dice (.rollError cause) := by
  refine ⟨roll_eq_noSeed_iff hL hf h settings seed? limit?, ?_, fun s l hs hl => ?_,
    fun e he => cases_of_roll_eq_error hL hf h he⟩
  · rintro rfl hseed M q
    exact f.roll_of_no_seed M hseed q limit?
  · exact ⟨roll_eq_noRolls_iff hL hf h hs hl, roll_eq_first_iff hL hf h hs hl,
      exists_roll_eq_ok hL hf h hs hl⟩

/-- From the seed -1 on the die of `8/(d2-1)` shows a 1 for the second of four seeds, which fails. The least
value of the others is 8, and so is their mean. A seed of zero in the settings is one, and without one there
is no mean. -/
theorem roll_of_compile_division :
    least.roll library { samples := 4, seed := some 0 }
        ⟨[.num 8, .num 1, .num 2, .dice, .num 1, .arith .sub, .arith .div], 3⟩ (some (-1)) none =
      .ok (.value 8) ∧
    mean.roll library { samples := 4, seed := some 0 }
        ⟨[.num 8, .num 1, .num 2, .dice, .num 1, .arith .sub, .arith .div], 3⟩ (some (-1)) none =
      .ok (.mean 8.0) ∧
    least.roll library { samples := 0, seed := some 0 }
        ⟨[.num 8, .num 1, .num 2, .dice, .num 1, .arith .sub, .arith .div], 3⟩ none none =
      .error (.dice (.general "min of no rolls cannot be computed")) ∧
    mean.roll library {} ⟨[.num 8, .num 1, .num 2, .dice, .num 1, .arith .sub, .arith .div], 3⟩ none none =
      .error (.dice (.general "mean needs a seed")) := by
  have hcompile : compile "8/(d2-1)" =
      .ok ⟨[.num 8, .num 1, .num 2, .dice, .num 1, .arith .sub, .arith .div], 3⟩ := by
    with_unfolding_all rfl
  have hleast : least ≠ chart := by decide
  have hmean : mean ≠ chart := by decide
  obtain ⟨-, -, hgiven, -⟩ := roll_of_compile library_spec hleast
    { samples := 4, seed := some 0 } hcompile (some (-1)) none
  obtain ⟨-, -, hgiven', -⟩ := roll_of_compile library_spec hmean
    { samples := 4, seed := some 0 } hcompile (some (-1)) none
  obtain ⟨-, -, hnone, -⟩ := roll_of_compile library_spec hleast
    { samples := 0, seed := some 0 } hcompile none none
  obtain ⟨hseed, -, -, -⟩ := roll_of_compile library_spec hmean {} hcompile none none
  refine ⟨?_, ?_, (hnone 0 10 (.inr ⟨rfl, rfl⟩) (.inr ⟨rfl, rfl⟩)).1.2 rfl, hseed.2 ⟨rfl, rfl⟩⟩
  · obtain ⟨summary, -, happly, hroll⟩ :=
      (hgiven (-1) 10 (.inl rfl) (.inr ⟨rfl, rfl⟩)).2.2 ⟨0, by decide, 8, rfl⟩
    obtain rfl : Summary.value 8 = summary := Except.ok.inj happly
    exact hroll
  · obtain ⟨summary, -, happly, hroll⟩ :=
      (hgiven' (-1) 10 (.inl rfl) (.inr ⟨rfl, rfl⟩)).2.2 ⟨0, by decide, 8, rfl⟩
    obtain rfl : Summary.mean (Statistics.mean [8, 8, 8]) = summary := Except.ok.inj happly
    have hvalue : Statistics.mean [8, 8, 8] = 8.0 := by decide +kernel
    rw [hvalue] at hroll
    exact hroll

end Statistic

end DiceNotation
