import DiceNotation.Proofs.Statistics.Tally
import DiceNotation.Statistics.Statistic

/-!
# What a series is summed up to

The statistics leave it to a library to count, to sort and to compare. `SeriesLibrary.Spec` says what they
need of it, each operation by itself and for any series of 64-bit integers. With such a library the table of a
series, which is counted first and sorted then, is its tally of shares (`SeriesLibrary.Spec.exists_table`). So
the least and the greatest value, which are asked for in another way, stand at its two ends, and nothing
depends on the order of the series (`statistics_of_series`). The library at hand is such a one
(`library_spec`).
-/

namespace DiceNotation

namespace Statistics

/-- A series of signed 64-bit integers. -/
def IsSeries (vs : List Int) : Prop :=
  ∀ v ∈ vs, InRange v

/-- The values are looked at one by one. -/
instance (vs : List Int) : Decidable (IsSeries vs) :=
  inferInstanceAs (Decidable (∀ v ∈ vs, InRange v))

/-- The share of a value in a series: how often it occurs by the length of the series, in floating point. -/
def share (vs : List Int) (v : Int) : Float :=
  Float.ofNat (vs.count v) / Float.ofNat vs.length

/-- The order of a series does not matter to shares. -/
theorem share_perm {vs ws : List Int} (h : vs.Perm ws) (v : Int) : share vs v = share ws v := by
  rw [share, share, h.count_eq, h.length_eq]

end Statistics

open Statistics

/-- What the statistics need of a library for series. -/
structure SeriesLibrary.Spec (L : SeriesLibrary) : Prop where
  /-- A series with a value has a mean. -/
  mean : ∀ vs, IsSeries vs → vs ≠ [] → ∃ x, L.mean vs = .ok x
  /-- The least value of a series is one of its values, and none is below it. -/
  least : ∀ vs, IsSeries vs → vs ≠ [] → ∃ v ∈ vs, L.least vs = .ok v ∧ ∀ w ∈ vs, v ≤ w
  /-- The greatest value of a series is one of its values, and none is above it. -/
  greatest : ∀ vs, IsSeries vs → vs ≠ [] → ∃ v ∈ vs, L.greatest vs = .ok v ∧ ∀ w ∈ vs, w ≤ v
  /-- Counting gives each value of a series once, with how often it occurs by the length of the series. -/
  shares : ∀ vs, IsSeries vs → ∃ rows, L.shares vs = .ok rows ∧ (rows.map Prod.fst).Nodup ∧
    ∀ v x, (v, x) ∈ rows ↔ v ∈ vs ∧ x = Float.ofNat (vs.count v) / Float.ofNat vs.length
  /-- Sorting puts rows in the order of their values, and keeps them as they are. -/
  sortRows : ∀ rows, ∃ sorted, L.sortRows rows = .ok sorted ∧ sorted.Perm rows ∧
    (sorted.map Prod.fst).Pairwise (· ≤ ·)

namespace SeriesLibrary.Spec

variable {L : SeriesLibrary} (hL : L.Spec) {vs : List Int} (hvs : IsSeries vs)

include hL

section

include hvs

/-- The table of a series is its tally of shares: what was counted has one row to a value, so sorting it makes
the values increase. -/
theorem exists_table : ∃ rows, L.table vs = .ok rows ∧ Tallies vs (share vs) rows := by
  obtain ⟨rows, hshares, hnodup, hmem⟩ := hL.shares vs hvs
  obtain ⟨sorted, hsort, hperm, hle⟩ := hL.sortRows rows
  refine ⟨sorted, by rw [SeriesLibrary.table, hshares]; exact hsort, ?_, fun v x => ?_⟩
  · have hkeys : (sorted.map Prod.fst).Nodup := (hperm.map Prod.fst).nodup_iff.2 hnodup
    have hlt : (sorted.map Prod.fst).Pairwise (· < ·) :=
      (hle.and hkeys).imp fun ⟨hle, hne⟩ => lt_of_le_of_ne hle hne
    exact List.pairwise_map.1 hlt
  · rw [hperm.mem_iff]
    exact hmem v x

/-- A series with the same values in another order has the same table. -/
theorem table_perm {ws : List Int} (hp : vs.Perm ws) : L.table ws = L.table vs := by
  have hws : IsSeries ws := fun v hv => hvs v (hp.mem_iff.2 hv)
  obtain ⟨rows, htable, htally⟩ := hL.exists_table hvs
  obtain ⟨rows', htable', htally'⟩ := hL.exists_table hws
  have hsame := htally.congr (fun _ => hp.mem_iff) (share_perm hp)
  rw [htable, htable', hsame.unique htally']

/-- Nor does the least value depend on the order. -/
theorem least_perm {ws : List Int} (hp : vs.Perm ws) (hne : vs ≠ []) : L.least ws = L.least vs := by
  have hws : IsSeries ws := fun v hv => hvs v (hp.mem_iff.2 hv)
  obtain ⟨v, hv, hleast, hle⟩ := hL.least vs hvs hne
  obtain ⟨w, hw, hleast', hle'⟩ := hL.least ws hws fun h => hne (List.perm_nil.1 (h ▸ hp))
  rw [hleast, hleast', le_antisymm (hle w (hp.mem_iff.2 hw)) (hle' v (hp.mem_iff.1 hv))]

/-- Nor does the greatest one. -/
theorem greatest_perm {ws : List Int} (hp : vs.Perm ws) (hne : vs ≠ []) :
    L.greatest ws = L.greatest vs := by
  have hws : IsSeries ws := fun v hv => hvs v (hp.mem_iff.2 hv)
  obtain ⟨v, hv, hgreatest, hle⟩ := hL.greatest vs hvs hne
  obtain ⟨w, hw, hgreatest', hle'⟩ := hL.greatest ws hws fun h => hne (List.perm_nil.1 (h ▸ hp))
  rw [hgreatest, hgreatest', le_antisymm (hle' v (hp.mem_iff.1 hv)) (hle w (hp.mem_iff.2 hw))]

end

/-- The table of a series without values has no rows. -/
theorem table_nil : L.table [] = .ok [] := by
  have hseries : IsSeries [] := fun v hv => absurd hv List.not_mem_nil
  obtain ⟨rows, htable, htally⟩ := hL.exists_table hseries
  rw [htable]
  refine congrArg Except.ok (List.eq_nil_iff_forall_not_mem.2 ?_)
  rintro ⟨v, x⟩ hrow
  exact absurd ((htally.mem_iff v x).1 hrow).1 List.not_mem_nil

end SeriesLibrary.Spec

/-! ## Statistics -/

namespace Statistic

variable {L : SeriesLibrary}

/-- A statistic of a series without values is refused, whatever the library is. -/
theorem apply_nil (L : SeriesLibrary) (f : Statistic) (settings : Settings) :
    f.apply L settings [] = .error (.dice f.noRolls) := rfl

/-- A statistic of a series with a value is what the library makes of it. -/
theorem apply_of_ne_nil (L : SeriesLibrary) (f : Statistic) (settings : Settings) {vs : List Int}
    (hne : vs ≠ []) : f.apply L settings vs = (f.summarize L settings vs).mapError .series :=
  if_neg (by simpa using hne)

/-- What a summary says of a series, by the statistic that it is: the library's mean of the values, the least
or the greatest of them, or the share of each of them in increasing order. -/
inductive Describes (L : SeriesLibrary) (vs : List Int) : Statistic → Summary → Prop
  /-- The mean is the one that the library has for the values. -/
  | mean {x : Float} (h : L.mean vs = .ok x) : Describes L vs .mean (.mean x)
  /-- The least value is below no other. -/
  | least {v : Int} (hv : v ∈ vs) (h : ∀ w ∈ vs, v ≤ w) : Describes L vs .least (.value v)
  /-- The greatest value is above no other. -/
  | greatest {v : Int} (hv : v ∈ vs) (h : ∀ w ∈ vs, w ≤ v) : Describes L vs .greatest (.value v)
  /-- Each value has one row, with how often it occurs by the length of the series. -/
  | frequencies {rows : List (Int × Float)} (hkeys : (rows.map Prod.fst).Pairwise (· < ·))
      (h : ∀ v x, (v, x) ∈ rows ↔ v ∈ vs ∧ x = Float.ofNat (vs.count v) / Float.ofNat vs.length) :
    Describes L vs .frequencies (.table rows)

/-- A statistic of a series with a value has a summary that describes it. -/
theorem exists_apply_eq_ok (hL : L.Spec) {f : Statistic} (hf : f ≠ .chart) (settings : Settings)
    {vs : List Int} (hvs : IsSeries vs) (hne : vs ≠ []) :
    ∃ summary, f.apply L settings vs = .ok summary ∧ Describes L vs f summary := by
  rw [f.apply_of_ne_nil L settings hne]
  cases f with
  | mean =>
    obtain ⟨x, hx⟩ := hL.mean vs hvs hne
    exact ⟨.mean x, by rw [summarize, hx]; rfl, .mean hx⟩
  | least =>
    obtain ⟨v, hv, hleast, hle⟩ := hL.least vs hvs hne
    exact ⟨.value v, by rw [summarize, hleast]; rfl, .least hv hle⟩
  | greatest =>
    obtain ⟨v, hv, hgreatest, hle⟩ := hL.greatest vs hvs hne
    exact ⟨.value v, by rw [summarize, hgreatest]; rfl, .greatest hv hle⟩
  | frequencies =>
    obtain ⟨rows, htable, htally⟩ := hL.exists_table hvs
    exact ⟨.table rows, by rw [summarize, htable]; rfl, .frequencies htally.increasing_keys htally.mem_iff⟩
  | chart => exact absurd rfl hf

/-- A statistic is refused for a series without values, and for no other. -/
theorem apply_eq_error_iff (hL : L.Spec) {f : Statistic} (hf : f ≠ .chart) (settings : Settings)
    {vs : List Int} (hvs : IsSeries vs) (e : Problem) :
    f.apply L settings vs = .error e ↔ vs = [] ∧ e = .dice f.noRolls := by
  by_cases hne : vs = []
  · subst hne
    rw [apply_nil, Except.error.injEq, eq_comm]
    exact (and_iff_right rfl).symm
  · obtain ⟨summary, hsummary, -⟩ := exists_apply_eq_ok hL hf settings hvs hne
    rw [hsummary]
    exact iff_of_false (fun h => by cases h) fun h => hne h.1

/-- The order of a series does not matter to a statistic besides the mean, whose rounding depends on it. -/
theorem apply_perm (hL : L.Spec) {f : Statistic} (hf : f ≠ .mean) (settings : Settings)
    {vs ws : List Int} (hvs : IsSeries vs) (hp : vs.Perm ws) :
    f.apply L settings ws = f.apply L settings vs := by
  by_cases hne : vs = []
  · subst hne
    rw [List.nil_perm.1 hp]
  · rw [f.apply_of_ne_nil L settings hne,
      f.apply_of_ne_nil L settings fun h => hne (List.perm_nil.1 (h ▸ hp))]
    refine congrArg (Except.mapError Problem.series) ?_
    cases f with
    | mean => exact absurd rfl hf
    | least => rw [summarize, summarize, hL.least_perm hvs hp hne]
    | greatest => rw [summarize, summarize, hL.greatest_perm hvs hp hne]
    | frequencies => rw [summarize, summarize, hL.table_perm hvs hp]
    | chart => rw [summarize, summarize, Chart.frame, Chart.frame, hL.table_perm hvs hp]

end Statistic

/-- With a library that counts, sorts and compares as it should, the table of a series with a value has a row
for each value that occurs, in increasing order, with the number of times that it occurs by the length of the
series in floating point, and these numbers add up to the length. The least value of the series is that of the
first row and the greatest value that of the last one, and a chart is drawn from the same rows. None of this
depends on the order of the series. A statistic of a series without values is refused, by its name, and the
table of a chart has no rows then. -/
theorem statistics_of_series {L : SeriesLibrary} (hL : L.Spec) {vs : List Int} (hvs : IsSeries vs)
    (settings : Settings) :
    (vs ≠ [] → ∃ rows : List (Int × Float),
      Statistic.frequencies.apply L settings vs = .ok (.table rows) ∧
      Chart.frame L vs = .ok ⟨("value", "probability"), rows⟩ ∧
      (rows.map Prod.fst).Pairwise (· < ·) ∧
      (∀ v, v ∈ rows.map Prod.fst ↔ v ∈ vs) ∧
      (∀ row ∈ rows, row.2 = Float.ofNat (vs.count row.1) / Float.ofNat vs.length) ∧
      (rows.map fun row => vs.count row.1).sum = vs.length ∧
      (∃ v, (rows.map Prod.fst).head? = some v ∧
        Statistic.least.apply L settings vs = .ok (.value v)) ∧
      ∃ v, (rows.map Prod.fst).getLast? = some v ∧
        Statistic.greatest.apply L settings vs = .ok (.value v)) ∧
    (∀ ws, vs.Perm ws → Chart.frame L ws = Chart.frame L vs ∧
      ∀ f : Statistic, f ≠ .mean → f.apply L settings ws = f.apply L settings vs) ∧
    (∀ f : Statistic, f ≠ .chart → ∀ e, f.apply L settings vs = .error e ↔
      vs = [] ∧ e = .dice (.general (f.name ++ " of no rolls cannot be computed"))) ∧
    (vs = [] → Chart.frame L vs = .ok ⟨("value", "probability"), []⟩) := by
  refine ⟨fun hne => ?_, fun ws hp => ⟨?_, fun f hf => Statistic.apply_perm hL hf settings hvs hp⟩,
    fun f hf => Statistic.apply_eq_error_iff hL hf settings hvs, ?_⟩
  · obtain ⟨rows, htable, htally⟩ := hL.exists_table hvs
    obtain ⟨least, hleast, hleast', hle⟩ := hL.least vs hvs hne
    obtain ⟨greatest, hgreatest, hgreatest', hge⟩ := hL.greatest vs hvs hne
    refine ⟨rows, ?_, ?_, htally.increasing_keys, htally.mem_keys_iff,
      fun row hrow => ((htally.mem_iff row.1 row.2).1 hrow).2, htally.sum_count,
      ⟨least, htally.head?_eq hleast hle, ?_⟩, ⟨greatest, htally.getLast?_eq hgreatest hge, ?_⟩⟩
    · rw [Statistic.apply_of_ne_nil L _ settings hne, Statistic.summarize, htable]
      rfl
    · rw [Chart.frame, htable]
      rfl
    · rw [Statistic.apply_of_ne_nil L _ settings hne, Statistic.summarize, hleast']
      rfl
    · rw [Statistic.apply_of_ne_nil L _ settings hne, Statistic.summarize, hgreatest']
      rfl
  · rw [Chart.frame, Chart.frame, hL.table_perm hvs hp]
  · rintro rfl
    rw [Chart.frame, hL.table_nil]
    rfl

namespace Statistics

/-! ## The library at hand -/

/-- The shares of a series are its tally with each count divided by the length, in another order. -/
theorem shares_perm (vs : List Int) :
    (shares vs).Perm ((counts vs).map fun row => (row.1, Float.ofNat row.2 / Float.ofNat vs.length)) :=
  (List.mergeSort_perm (counts vs) _).map _

/-- Each value has its share once. -/
theorem nodup_shares (vs : List Int) : ((shares vs).map Prod.fst).Nodup := by
  rw [((shares_perm vs).map Prod.fst).nodup_iff, List.map_map]
  exact (tallies_counts vs).increasing_keys.imp fun hlt => hlt.ne

/-- The shares are those of the values that occur. -/
theorem mem_shares_iff (vs : List Int) (v : Int) (x : Float) :
    (v, x) ∈ shares vs ↔ v ∈ vs ∧ x = Float.ofNat (vs.count v) / Float.ofNat vs.length := by
  rw [(shares_perm vs).mem_iff, List.mem_map]
  constructor
  · rintro ⟨⟨w, n⟩, hrow, heq⟩
    obtain ⟨rfl, rfl⟩ := Prod.mk.inj heq
    obtain ⟨hw, rfl⟩ := ((tallies_counts vs).mem_iff w n).1 hrow
    exact ⟨hw, rfl⟩
  · rintro ⟨hv, rfl⟩
    exact ⟨(v, vs.count v), ((tallies_counts vs).mem_iff v _).2 ⟨hv, rfl⟩, rfl⟩

/-- Sorted rows have their values in order. -/
theorem pairwise_sortRows (rows : List (Int × Float)) :
    ((sortRows rows).map Prod.fst).Pairwise (· ≤ ·) := by
  have hkeys : (sortRows rows).map Prod.fst = (rows.map Prod.fst).mergeSort fun a b => a ≤ b :=
    List.map_mergeSort fun _ _ _ _ => rfl
  rw [hkeys]
  exact List.pairwise_mergeSort' _ _

/-- The library at hand counts, sorts and compares as it should. -/
theorem library_spec : library.Spec where
  mean vs _ _ := ⟨mean vs, rfl⟩
  least vs _ hne := by
    cases hmin : vs.min? with
    | none => exact absurd (List.min?_eq_none_iff.1 hmin) hne
    | some v =>
      obtain ⟨hv, hle⟩ := List.min?_eq_some_iff.1 hmin
      exact ⟨v, hv, by show vs.min?.elim _ _ = _; rw [hmin]; rfl, hle⟩
  greatest vs _ hne := by
    cases hmax : vs.max? with
    | none => exact absurd (List.max?_eq_none_iff.1 hmax) hne
    | some v =>
      obtain ⟨hv, hle⟩ := List.max?_eq_some_iff.1 hmax
      exact ⟨v, hv, by show vs.max?.elim _ _ = _; rw [hmax]; rfl, hle⟩
  shares vs _ := ⟨shares vs, rfl, nodup_shares vs, mem_shares_iff vs⟩
  sortRows rows := ⟨sortRows rows, rfl, List.mergeSort_perm .., pairwise_sortRows rows⟩

end Statistics

/-- Of the four values 3, 1, 3, 3 three quarters are 3, in this order or another one. There is no mean of
none. -/
theorem statistics_of_series_repeated :
    (∃ rows : List (Int × Float),
      Statistic.frequencies.apply library {} [3, 1, 3, 3] = .ok (.table rows) ∧
      (∀ v, v ∈ rows.map Prod.fst ↔ v ∈ [3, 1, 3, 3]) ∧
      ∀ x, (3, x) ∈ rows → x = Float.ofNat 3 / Float.ofNat 4) ∧
    Statistic.frequencies.apply library {} [1, 3, 3, 3] =
      Statistic.frequencies.apply library {} [3, 1, 3, 3] ∧
    Statistic.mean.apply library {} [] = .error (.dice (.general "mean of no rolls cannot be computed")) := by
  have hseries : IsSeries [3, 1, 3, 3] := by decide
  have hempty : IsSeries [] := by decide
  obtain ⟨hvalues, horder, -, -⟩ := statistics_of_series library_spec hseries {}
  obtain ⟨-, -, hrefused, -⟩ := statistics_of_series library_spec hempty {}
  obtain ⟨rows, htable, -, -, hmem, hshare, -⟩ := hvalues (by decide)
  refine ⟨⟨rows, htable, hmem, fun x hx => hshare (3, x) hx⟩, ?_, ?_⟩
  · exact (horder [1, 3, 3, 3] (by decide)).2 .frequencies (by decide)
  · exact (hrefused .mean (by decide) _).2 ⟨rfl, rfl⟩

end DiceNotation
