import DiceNotation.Proofs.Evaluation.Outcome
import DiceNotation.Sampling

/-!
# Sampling a compiled text

Sampling goes through the seeds once. What one of them adds to the values, to the first error and to the
reports (`Sample.exists_add_eq_ok`), all of them add in their order (`Sample.exists_foldlM_add_eq_ok`), as
long as no run is stopped by anything but its roll; the first one that is ends the sampling with the reports
until then (`sample_of_fault`). The program of a text has no such run, so what it is sampled to are the
values in the order of the seeds if there are any or if there is no seed, and the failure of the first seed
otherwise; and there is a report on each failed seed in their order, with one more at the end where there is
a result (`sampleRolls_of_compile`).
-/

namespace DiceNotation

variable {p : Program} {limit : Int}

/-! ## Runs without a fault -/

/-- The error of a roll that fails. -/
def Program.rollError? (p : Program) (limit seed : Int) : Option DiceError :=
  match p.roll seed limit with
  | .error (.dice e) => some e
  | _ => none

/-- A run with the seed has a value, or its roll fails. -/
def Program.Sound (p : Program) (limit seed : Int) : Prop :=
  (∃ v, p.roll seed limit = .ok v) ∨ ∃ e, p.roll seed limit = .error (.dice e)

/-- A run with a value has no error. -/
theorem Program.rollError?_of_ok {seed v : Int} (h : p.roll seed limit = .ok v) :
    p.rollError? limit seed = none := by
  rw [rollError?, h]

/-- A failed roll has its error. -/
theorem Program.rollError?_of_error {seed : Int} {e : DiceError}
    (h : p.roll seed limit = .error (.dice e)) : p.rollError? limit seed = some e := by
  rw [rollError?, h]

/-- The values of some seeds are those of the runs that have one. -/
theorem Program.mem_filterMap_roll {seeds : List Int} {v : Int} :
    v ∈ seeds.filterMap (fun s => (p.roll s limit).toOption) ↔ ∃ s ∈ seeds, p.roll s limit = .ok v := by
  simp only [List.mem_filterMap, toOption_eq_some_iff]

/-! ## One seed after another -/

namespace Sample

/-- What some seeds in a row add to a sample. -/
structure Extends (p : Program) (limit : Int) (seeds : List Int) (t t' : Sample) : Prop where
  /-- The values of the runs that have one are behind those of before. -/
  values : t'.values.toList =
    t.values.toList ++ seeds.filterMap fun s => (p.roll s limit).toOption
  /-- The first error of the seeds counts if there was none before. -/
  firstError : t'.firstError = t.firstError.or (seeds.findSome? (p.rollError? limit))
  /-- There is a report on each roll that failed. -/
  records : t'.records.toList =
    t.records.toList ++ seeds.filterMap fun s => (p.rollError? limit s).map (skipRecord s)

/-- No seeds add nothing. -/
theorem Extends.nil (t : Sample) : Extends p limit [] t t :=
  ⟨(List.append_nil _).symm, (Option.or_none).symm, (List.append_nil _).symm⟩

/-- What a seed adds and then others is what they add in a row. -/
theorem Extends.cons {seed : Int} {seeds : List Int} {t t' t'' : Sample}
    (h : Extends p limit [seed] t t') (h' : Extends p limit seeds t' t'') :
    Extends p limit (seed :: seeds) t t'' where
  values := by
    rw [h'.values, h.values, List.append_assoc, ← List.filterMap_append, List.singleton_append]
  firstError := by
    rw [h'.firstError, h.firstError, Option.or_assoc, ← List.findSome?_append, List.singleton_append]
  records := by
    rw [h'.records, h.records, List.append_assoc, ← List.filterMap_append, List.singleton_append]

/-- A sound run is taken in: its value among the values, or its error as the first one if there was none
before, with a report. -/
theorem exists_add_eq_ok {seed : Int} (h : p.Sound limit seed) (t : Sample) :
    ∃ t', t.add p limit seed = .ok t' ∧ Extends p limit [seed] t t' := by
  rcases h with ⟨v, hv⟩ | ⟨e, he⟩
  · refine ⟨{ t with values := t.values.push v }, by rw [add, hv], ?_, ?_, ?_⟩
    · simp [hv, Except.toOption]
    · simp [Program.rollError?_of_ok hv]
    · simp [Program.rollError?_of_ok hv]
  · refine ⟨_, by rw [add, he], ?_, ?_, ?_⟩
    · simp [he, Except.toOption]
    · simp [Program.rollError?_of_error he]
    · simp [Program.rollError?_of_error he]

/-- Anything but a failed roll stops the sampling, with the reports until then. -/
theorem add_of_not_sound {seed : Int} (h : ¬ p.Sound limit seed) (t : Sample) :
    ∃ e, p.roll seed limit = .error e ∧ t.add p limit seed = .error ⟨e, t.records⟩ := by
  cases hroll : p.roll seed limit with
  | ok v => exact absurd (.inl ⟨v, hroll⟩) h
  | error e =>
    refine ⟨e, rfl, ?_⟩
    rw [add, hroll]
    cases e with
    | dice e => exact absurd (.inr ⟨e, hroll⟩) h
    | _ => rfl

/-- Sound runs are all taken in, in the order of their seeds. -/
theorem exists_foldlM_add_eq_ok {seeds : List Int} (h : ∀ s ∈ seeds, p.Sound limit s) (t : Sample) :
    ∃ t', seeds.foldlM (add p limit) t = .ok t' ∧ Extends p limit seeds t t' := by
  induction seeds generalizing t with
  | nil => exact ⟨t, rfl, .nil t⟩
  | cons seed seeds ih =>
    obtain ⟨hseed, hseeds⟩ := List.forall_mem_cons.1 h
    obtain ⟨t₁, ht₁, hextends₁⟩ := exists_add_eq_ok hseed t
    obtain ⟨t₂, ht₂, hextends₂⟩ := ih hseeds t₁
    refine ⟨t₂, ?_, hextends₁.cons hextends₂⟩
    rw [List.foldlM_cons, ht₁, ok_bind, ht₂]

/-- Values that are all in range are a series, unless there are none for the reason that a roll failed. -/
theorem finish_of_inRange {t : Sample} (samples : Int) (hrange : ∀ v ∈ t.values.toList, InRange v)
    (h : t.values.toList = [] → t.firstError = none) :
    t.finish p samples =
      .ok { t with records := t.records.push (sampleRecord p samples t.values.toList) } := by
  unfold finish
  split
  · next e hnil he =>
    rw [h hnil] at he
    cases he
  · exact if_pos hrange

/-- Where there are no values, the first error is the result. -/
theorem finish_of_no_values {t : Sample} {e : DiceError} (samples : Int) (hnil : t.values.toList = [])
    (he : t.firstError = some e) : t.finish p samples = .error ⟨.dice e, t.records⟩ := by
  rw [finish, hnil, he]

end Sample

/-- A sampling is stopped by the first of its runs that anything but its roll stops, whatever seeds are left,
and has reported on the rolls before it that failed. -/
theorem sample_of_fault {seed samples s : Int} {before after : List Int}
    (hseeds : deriveSeeds seed samples = before ++ s :: after)
    (hbefore : ∀ s ∈ before, p.Sound limit s) (hs : ¬ p.Sound limit s) :
    ∃ e, p.roll s limit = .error e ∧ sampleRolls p seed limit samples = .error e ∧
      sampleRecords p seed limit samples =
        before.filterMap fun s => (p.rollError? limit s).map (skipRecord s) := by
  obtain ⟨t, ht, hextends⟩ := Sample.exists_foldlM_add_eq_ok hbefore {}
  obtain ⟨e, he, hadd⟩ := Sample.add_of_not_sound hs t
  have hstopped : sample p seed limit samples = .error ⟨e, t.records⟩ := by
    rw [sample, hseeds, List.foldlM_append, ht, ok_bind, List.foldlM_cons, hadd]
    rfl
  refine ⟨e, he, by rw [sampleRolls, hstopped], ?_⟩
  rw [sampleRecords, hstopped]
  exact hextends.records

/-! ## Programs of texts -/

/-- The seeds are all that fit in 64 bits. -/
theorem isSeed_of_mem_deriveSeeds {base count s : Int} (h : s ∈ deriveSeeds base count) : IsSeed s := by
  obtain ⟨i, -, rfl⟩ := List.mem_map.1 h
  have hcount : (wordCount : Int) = 2 ^ 64 := rfl
  constructor
  · exact Int.emod_nonneg _ (by rw [hcount]; decide)
  · rw [← hcount]
    exact Int.emod_lt_of_pos _ (by rw [hcount]; decide)

section

variable {text : String} (h : compile text = .ok p) (limit seed samples : Int)

include h

/-- A run of a compiled text with one of the seeds has a value in range, or its roll fails. -/
theorem roll_cases_of_mem_deriveSeeds {s : Int} (hs : s ∈ deriveSeeds seed samples) :
    (∃ v, p.roll s limit = .ok v ∧ InRange v) ∨ ∃ e, p.roll s limit = .error (.dice (.rollError e)) :=
  Program.roll_outcome h (isSeed_of_mem_deriveSeeds hs) limit

/-- The runs of a compiled text are sound. -/
theorem sound_of_mem_deriveSeeds {s : Int} (hs : s ∈ deriveSeeds seed samples) : p.Sound limit s := by
  rcases roll_cases_of_mem_deriveSeeds h limit seed samples hs with ⟨v, hv, -⟩ | ⟨e, he⟩
  · exact .inl ⟨v, hv⟩
  · exact .inr ⟨_, he⟩

/-- The values of the runs of a compiled text are in range. -/
theorem inRange_of_mem_values {v : Int}
    (hv : v ∈ (deriveSeeds seed samples).filterMap fun s => (p.roll s limit).toOption) : InRange v := by
  obtain ⟨s, hs, hroll⟩ := p.mem_filterMap_roll.1 hv
  rcases roll_cases_of_mem_deriveSeeds h limit seed samples hs with ⟨w, hw, hrange⟩ | ⟨e, he⟩
  · obtain rfl := Except.ok.inj (hw.symm.trans hroll)
    exact hrange
  · rw [he] at hroll
    cases hroll

/-- Where no run of a compiled text has a value, all of them fail. -/
theorem exists_error_of_no_values
    (hnone : ((deriveSeeds seed samples).filterMap fun s => (p.roll s limit).toOption) = []) :
    ∀ s ∈ deriveSeeds seed samples, ∃ cause, p.roll s limit = .error (.dice (.rollError cause)) := by
  intro s hs
  rcases roll_cases_of_mem_deriveSeeds h limit seed samples hs with ⟨v, hv, -⟩ | hfail
  · have hmem := p.mem_filterMap_roll.2 ⟨s, hs, hv⟩
    rw [hnone] at hmem
    exact absurd hmem List.not_mem_nil
  · exact hfail

/-- The program of a text is sampled to the values of the runs that have one, with a report on the result
behind those on the failures, or to the failure of the run with the first seed where there are seeds but no
values. -/
theorem sample_cases :
    ∃ t, Sample.Extends p limit (deriveSeeds seed samples) {} t ∧
      ((sample p seed limit samples =
          .ok { t with records := t.records.push (sampleRecord p samples t.values.toList) } ∧
        (deriveSeeds seed samples = [] ∨
          ∃ s ∈ deriveSeeds seed samples, ∃ v, p.roll s limit = .ok v)) ∨
      ∃ s rest cause, deriveSeeds seed samples = s :: rest ∧
        p.roll s limit = .error (.dice (.rollError cause)) ∧
        (∀ s ∈ deriveSeeds seed samples, ∃ e, p.roll s limit = .error e) ∧
        sample p seed limit samples = .error ⟨.dice (.rollError cause), t.records⟩) := by
  have hsound : ∀ s ∈ deriveSeeds seed samples, p.Sound limit s :=
    fun s hs => sound_of_mem_deriveSeeds h limit seed samples hs
  obtain ⟨t, ht, hextends⟩ := Sample.exists_foldlM_add_eq_ok hsound {}
  have hvalues : t.values.toList =
      (deriveSeeds seed samples).filterMap fun s => (p.roll s limit).toOption := hextends.values
  have hrange : ∀ v ∈ t.values.toList, InRange v := by
    rw [hvalues]
    exact fun v hv => inRange_of_mem_values h limit seed samples hv
  refine ⟨t, hextends, ?_⟩
  rw [sample, ht, ok_bind]
  by_cases hnil : t.values.toList = []
  · have hfail := exists_error_of_no_values h limit seed samples (hvalues.symm.trans hnil)
    -- Without values all seeds failed, the first one first, if there is one.
    cases hseeds : deriveSeeds seed samples with
    | nil =>
      have hfirst : t.firstError = none := by
        rw [hextends.firstError, hseeds]
        rfl
      exact .inl ⟨Sample.finish_of_inRange samples hrange fun _ => hfirst, .inl rfl⟩
    | cons s rest =>
      rw [hseeds] at hfail
      obtain ⟨cause, hcause⟩ := hfail s List.mem_cons_self
      have hfirst : t.firstError = some (.rollError cause) := by
        rw [hextends.firstError, hseeds, List.findSome?_cons, Program.rollError?_of_error hcause]
        rfl
      refine .inr ⟨s, rest, cause, rfl, hcause, fun s hs => ?_, Sample.finish_of_no_values samples hnil hfirst⟩
      obtain ⟨c, hc⟩ := hfail s hs
      exact ⟨_, hc⟩
  · obtain ⟨v, hv⟩ := List.exists_mem_of_ne_nil _ hnil
    rw [hvalues] at hv
    obtain ⟨s, hs, hroll⟩ := p.mem_filterMap_roll.1 hv
    exact .inl ⟨Sample.finish_of_inRange samples hrange fun h => absurd h hnil, .inr ⟨s, hs, v, hroll⟩⟩

/-- The program of a text is sampled to the values of the runs that have one, or to the failure of the
run with the first seed where there are seeds but no values. -/
theorem sampleRolls_cases :
    (sampleRolls p seed limit samples =
        .ok ((deriveSeeds seed samples).filterMap fun s => (p.roll s limit).toOption) ∧
      (deriveSeeds seed samples = [] ∨ ∃ s ∈ deriveSeeds seed samples, ∃ v, p.roll s limit = .ok v)) ∨
    ∃ s rest cause, deriveSeeds seed samples = s :: rest ∧
      p.roll s limit = .error (.dice (.rollError cause)) ∧
      (∀ s ∈ deriveSeeds seed samples, ∃ e, p.roll s limit = .error e) ∧
      sampleRolls p seed limit samples = .error (.dice (.rollError cause)) := by
  obtain ⟨t, hextends, ⟨hok, hsome⟩ | ⟨s, rest, cause, hseeds, hs, hfail, herror⟩⟩ :=
    sample_cases h limit seed samples
  · refine .inl ⟨?_, hsome⟩
    rw [sampleRolls, hok]
    exact congrArg Except.ok hextends.values
  · exact .inr ⟨s, rest, cause, hseeds, hs, hfail, by rw [sampleRolls, herror]⟩

/-- The report on a failed run of a compiled text has the message of its failure. -/
theorem map_skipRecord {s : Int} (hs : s ∈ deriveSeeds seed samples) :
    (p.rollError? limit s).map (skipRecord s) =
      match p.roll s limit with
      | .ok _ => none
      | .error e => some ⟨.sampling, .info, "skipping seed " ++ toString s ++ ": " ++ e.message⟩ := by
  rcases roll_cases_of_mem_deriveSeeds h limit seed samples hs with ⟨v, hv, -⟩ | ⟨e, he⟩
  · rw [Program.rollError?_of_ok hv, hv]
    rfl
  · rw [Program.rollError?_of_error he, he]
    rfl

/-- The reports on a sampling of a compiled text are those on the failures, and one on the result where there
is one. -/
theorem sampleRecords_eq :
    sampleRecords p seed limit samples =
      (deriveSeeds seed samples).filterMap (fun s =>
        match p.roll s limit with
        | .ok _ => none
        | .error e => some ⟨.sampling, .info, "skipping seed " ++ toString s ++ ": " ++ e.message⟩) ++
      match sampleRolls p seed limit samples with
      | .ok vs => [sampleRecord p samples vs]
      | .error _ => [] := by
  rw [← List.filterMap_congr fun s hs => map_skipRecord h limit seed samples hs]
  obtain ⟨t, hextends, ⟨hok, -⟩ | ⟨s, rest, cause, -, -, -, herror⟩⟩ := sample_cases h limit seed samples
  · rw [sampleRecords, sampleRolls, hok]
    dsimp only
    rw [Array.toList_push, hextends.records]
    rfl
  · rw [sampleRecords, sampleRolls, herror]
    dsimp only
    rw [hextends.records, List.append_nil]
    rfl

end

/-- Sampling a compiled text runs it with the seeds from `seed` on modulo `2^64`. The result is the list
of the values of the runs that succeed, in the order of the seeds. It fails exactly if there is a seed
and the runs with all of them fail, and then as the run with the first seed does, for the roll's sake.
Each run that fails is reported on once, in the order of the seeds, and behind these reports is one with
the number of values and of samples exactly if there is a result. -/
theorem sampleRolls_of_compile {text : String} {p : Program} (h : compile text = .ok p)
    (seed limit samples : Int) :
    deriveSeeds seed samples =
      (List.range samples.toNat).map (fun i : Nat => (seed + i) % 2 ^ 64) ∧
    (∀ vs, sampleRolls p seed limit samples = .ok vs →
      vs = (deriveSeeds seed samples).filterMap (fun s => (p.roll s limit).toOption) ∧
      ∀ v ∈ vs, -2 ^ 63 ≤ v ∧ v ≤ 2 ^ 63 - 1) ∧
    ((∃ e, sampleRolls p seed limit samples = .error e) ↔
      deriveSeeds seed samples ≠ [] ∧ ∀ s ∈ deriveSeeds seed samples, ∃ e, p.roll s limit = .error e) ∧
    (∀ e, sampleRolls p seed limit samples = .error e →
      ∃ s rest, deriveSeeds seed samples = s :: rest ∧ p.roll s limit = .error e ∧
        ∃ cause, e = .dice (.rollError cause)) ∧
    sampleRecords p seed limit samples =
      (deriveSeeds seed samples).filterMap (fun s =>
        match p.roll s limit with
        | .ok _ => none
        | .error e => some ⟨.sampling, .info, "skipping seed " ++ toString s ++ ": " ++ e.message⟩) ++
      match sampleRolls p seed limit samples with
      | .ok vs => [⟨.sampling, .debug, "sampled " ++ toString vs.length ++ " of " ++ toString samples ++
          " seeds for " ++ p.text⟩]
      | .error _ => [] := by
  refine ⟨rfl, fun vs hvs => ?_, ?_, fun e he => ?_, ?_⟩
  · rcases sampleRolls_cases h limit seed samples with ⟨hok, -⟩ | ⟨s, rest, cause, -, -, -, herror⟩
    · rw [hok] at hvs
      cases hvs
      exact ⟨rfl, fun v hv => inRange_of_mem_values h limit seed samples hv⟩
    · rw [herror] at hvs
      cases hvs
  · rcases sampleRolls_cases h limit seed samples with
      ⟨hok, hsome⟩ | ⟨s, rest, cause, hseeds, -, hfail, herror⟩
    · refine iff_of_false ?_ ?_
      · rintro ⟨e, he⟩
        rw [hok] at he
        cases he
      · rintro ⟨hne, hall⟩
        rcases hsome with hempty | ⟨s, hs, v, hv⟩
        · exact hne hempty
        · obtain ⟨e, he⟩ := hall s hs
          rw [hv] at he
          cases he
    · refine iff_of_true ⟨_, herror⟩ ⟨?_, hfail⟩
      rw [hseeds]
      exact List.cons_ne_nil s rest
  · rcases sampleRolls_cases h limit seed samples with ⟨hok, -⟩ | ⟨s, rest, cause, hseeds, hs, -, herror⟩
    · rw [hok] at he
      cases he
    · rw [herror] at he
      cases he
      exact ⟨s, rest, hseeds, hs, cause, rfl⟩
  · exact sampleRecords_eq h limit seed samples

/-- The program of `8/(d2-1)` fails with the seed 0, where the die shows a 1. From the seed -1 on three of
four seeds have a value. -/
theorem sampleRolls_of_compile_division :
    sampleRolls ⟨[.num 8, .num 1, .num 2, .dice, .num 1, .arith .sub, .arith .div], 3⟩ (-1) 5 4 =
      .ok [8, 8, 8] ∧
    (sampleRecords ⟨[.num 8, .num 1, .num 2, .dice, .num 1, .arith .sub, .arith .div], 3⟩
      (-1) 5 4).head? = some ⟨.sampling, .info, "skipping seed 0: can't divide by zero"⟩ := by
  have hcompile : compile "8/(d2-1)" =
      .ok ⟨[.num 8, .num 1, .num 2, .dice, .num 1, .arith .sub, .arith .div], 3⟩ := by
    with_unfolding_all rfl
  obtain ⟨-, hvalues, hfails, -, hrecords⟩ := sampleRolls_of_compile hcompile (-1) 5 4
  constructor
  · cases hresult : sampleRolls ⟨[.num 8, .num 1, .num 2, .dice, .num 1, .arith .sub, .arith .div], 3⟩
      (-1) 5 4 with
    | ok vs =>
      rw [(hvalues vs hresult).1]
      rfl
    | error e =>
      -- The run with the first seed, which is the greatest one, does not fail.
      obtain ⟨e', he'⟩ := (hfails.1 ⟨e, hresult⟩).2 (2 ^ 64 - 1) (by decide)
      cases he'
  · rw [hrecords]
    rfl

end DiceNotation
