import DiceNotation.Statistics.Frequency
import Mathlib.Algebra.Order.Group.Nat
import Mathlib.Algebra.Ring.Nat
import Mathlib.Data.List.Dedup
import Mathlib.Data.List.Sort
import Mathlib.Algebra.BigOperators.Group.List.Lemmas

/-!
# Tallies

A tally of a series has a row for each of its values, in increasing order, with a number that the value
determines: how often it occurs, or its share of the series. That determines the rows (`Tallies.unique`), and
with them what stands at their two ends: the least value and the greatest one (`Tallies.head?_eq`,
`Tallies.getLast?_eq`). Counting the values of a sorted series from its end keeps a tally, so the counts are
one (`tallies_counts`).
-/

namespace DiceNotation.Statistics

variable {α : Type} {vs : List Int} {weigh : Int → α}

/-! ## Rows for the values of a series -/

/-- Rows for the values of a series in their order, each with its weight. -/
structure Tallies (vs : List Int) (weigh : Int → α) (rows : List (Int × α)) : Prop where
  /-- The values increase from row to row, so each has one row. -/
  increasing : rows.Pairwise fun a b => a.1 < b.1
  /-- The rows are those of the values that occur. -/
  mem_iff : ∀ v x, (v, x) ∈ rows ↔ v ∈ vs ∧ x = weigh v

namespace Tallies

variable {rows rows' : List (Int × α)}

/-- The values of the rows increase. -/
theorem increasing_keys (h : Tallies vs weigh rows) : (rows.map Prod.fst).Pairwise (· < ·) :=
  List.pairwise_map.2 h.increasing

/-- The values of the rows are those that occur. -/
theorem mem_keys_iff (h : Tallies vs weigh rows) (v : Int) : v ∈ rows.map Prod.fst ↔ v ∈ vs := by
  constructor
  · intro hv
    obtain ⟨⟨_, x⟩, hrow, rfl⟩ := List.mem_map.1 hv
    exact ((h.mem_iff _ x).1 hrow).1
  · exact fun hv => List.mem_map.2 ⟨_, (h.mem_iff v _).2 ⟨hv, rfl⟩, rfl⟩

/-- A series has only one tally of the same weights. -/
theorem unique (h : Tallies vs weigh rows) (h' : Tallies vs weigh rows') : rows = rows' := by
  have hnodup : ∀ {rows : List (Int × α)}, Tallies vs weigh rows → rows.Nodup := fun h =>
    h.increasing.imp fun hlt heq => by
      rw [heq] at hlt
      exact lt_irrefl _ hlt
  have hperm : rows.Perm rows' := by
    refine (List.perm_ext_iff_of_nodup (hnodup h) (hnodup h')).2 ?_
    rintro ⟨v, x⟩
    rw [h.mem_iff, h'.mem_iff]
  exact hperm.eq_of_pairwise (fun a b _ _ hab hba => absurd hba (lt_asymm hab)) h.increasing h'.increasing

/-- A tally is one of any series with the same values that weighs them alike. -/
theorem congr (h : Tallies vs weigh rows) {ws : List Int} {weigh' : Int → α}
    (hmem : ∀ v, v ∈ vs ↔ v ∈ ws) (hweigh : ∀ v, weigh v = weigh' v) : Tallies ws weigh' rows :=
  ⟨h.increasing, fun v x => by rw [h.mem_iff, hmem, hweigh]⟩

/-- The values of the rows are those of the series without the repetitions, in some order. -/
theorem keys_perm_dedup (h : Tallies vs weigh rows) : (rows.map Prod.fst).Perm vs.dedup := by
  have hnodup : (rows.map Prod.fst).Nodup := h.increasing_keys.imp fun hlt => hlt.ne
  refine (List.perm_ext_iff_of_nodup hnodup (List.nodup_dedup vs)).2 fun v => ?_
  rw [h.mem_keys_iff, List.mem_dedup]

/-- The numbers of times that the values of the rows occur add up to the length of the series. -/
theorem sum_count (h : Tallies vs weigh rows) : (rows.map fun row => vs.count row.1).sum = vs.length := by
  have hkeys : (rows.map fun row => vs.count row.1) = (rows.map Prod.fst).map fun v => vs.count v := by
    rw [List.map_map]
    rfl
  rw [hkeys, (h.keys_perm_dedup.map _).sum_eq, List.sum_map_count_dedup_eq_length]

/-- The first row is that of the least value. -/
theorem head?_eq (h : Tallies vs weigh rows) {v : Int} (hv : v ∈ vs) (hleast : ∀ w ∈ vs, v ≤ w) :
    (rows.map Prod.fst).head? = some v := by
  cases rows with
  | nil => exact absurd ((h.mem_iff v _).2 ⟨hv, rfl⟩) List.not_mem_nil
  | cons first rest =>
    have hfirst : first.1 ∈ vs := (h.mem_keys_iff _).1 List.mem_cons_self
    obtain ⟨habove, -⟩ := List.pairwise_cons.1 h.increasing
    rw [List.map_cons, List.head?_cons]
    -- The row of the least value is the first one, since it is behind no other.
    rcases List.mem_cons.1 ((h.mem_iff v _).2 ⟨hv, rfl⟩) with heq | hrest
    · rw [← heq]
    · exact absurd (habove _ hrest) (not_lt.2 (hleast _ hfirst))

/-- The last row is that of the greatest value. -/
theorem getLast?_eq (h : Tallies vs weigh rows) {v : Int} (hv : v ∈ vs) (hgreatest : ∀ w ∈ vs, w ≤ v) :
    (rows.map Prod.fst).getLast? = some v := by
  have hrow := (h.mem_iff v _).2 ⟨hv, rfl⟩
  rcases List.eq_nil_or_concat' rows with rfl | ⟨before, last, rfl⟩
  · exact absurd hrow List.not_mem_nil
  · have hlast : last.1 ∈ vs := (h.mem_keys_iff _).1 (by simp)
    obtain ⟨-, -, hbelow⟩ := List.pairwise_append.1 h.increasing
    rw [List.map_append, List.map_singleton, List.getLast?_concat]
    rcases List.mem_append.1 hrow with hbefore | heq
    · have hlt := hbelow _ hbefore last (List.mem_singleton_self _)
      exact absurd hlt (not_lt.2 (hgreatest _ hlast))
    · rw [← List.mem_singleton.1 heq]

end Tallies

/-! ## Counting -/

section Counting

variable {rows : List (Int × Nat)}

/-- A value below all rows gets a row before them. -/
theorem Tallies.cons (h : Tallies vs vs.count rows) {v : Int} (hv : ∀ row ∈ rows, v < row.1) :
    Tallies (v :: vs) (v :: vs).count ((v, 1) :: rows) := by
  have hnew : v ∉ vs := fun hmem => lt_irrefl v (hv _ ((h.mem_iff v _).2 ⟨hmem, rfl⟩))
  refine ⟨List.pairwise_cons.2 ⟨hv, h.increasing⟩, fun u m => ?_⟩
  rw [List.mem_cons, h.mem_iff]
  by_cases hu : u = v
  · simp [hu, hnew, List.count_eq_zero.2 hnew]
  · simp [hu, List.count_cons_of_ne (Ne.symm hu)]

/-- A value that has the first row is counted there. -/
theorem Tallies.again {v : Int} {n : Nat} (h : Tallies vs vs.count ((v, n) :: rows)) :
    Tallies (v :: vs) (v :: vs).count ((v, n + 1) :: rows) := by
  obtain ⟨habove, hincreasing⟩ := List.pairwise_cons.1 h.increasing
  obtain ⟨-, hn⟩ := (h.mem_iff v n).1 List.mem_cons_self
  refine ⟨List.pairwise_cons.2 ⟨habove, hincreasing⟩, fun u m => ?_⟩
  by_cases hu : u = v
  · -- No other row is of the same value.
    have hother : (v, m) ∉ rows := fun hm => lt_irrefl v (habove _ hm)
    simp [hu, hother, hn]
  · have hrow := h.mem_iff u m
    simp only [List.mem_cons, Prod.mk.injEq, hu, false_and, false_or] at hrow ⊢
    rw [hrow, List.count_cons_of_ne (Ne.symm hu)]

/-- Counting a value that is not above the ones counted so far keeps a tally. -/
theorem Tallies.countValue (h : Tallies vs vs.count rows) {v : Int} (hv : ∀ w ∈ vs, v ≤ w) :
    Tallies (v :: vs) (v :: vs).count (Statistics.countValue v rows) := by
  match rows, h with
  | [], h => exact h.cons fun row hrow => absurd hrow List.not_mem_nil
  | (w, n) :: rest, h =>
    obtain ⟨habove, -⟩ := List.pairwise_cons.1 h.increasing
    obtain ⟨hw, -⟩ := (h.mem_iff w n).1 List.mem_cons_self
    rw [Statistics.countValue]
    by_cases hvw : v = w
    · subst hvw
      rw [if_pos rfl]
      exact h.again
    · -- The value is below the first row, and so below all of them.
      have hlt : v < w := lt_of_le_of_ne (hv w hw) hvw
      rw [if_neg hvw]
      exact h.cons (List.forall_mem_cons.2 ⟨hlt, fun row hrow => hlt.trans (habove row hrow)⟩)

/-- Counting the values of a sorted series from its end makes a tally. -/
theorem tallies_foldr (h : vs.Pairwise (· ≤ ·)) : Tallies vs vs.count (vs.foldr countValue []) := by
  induction vs with
  | nil => exact ⟨.nil, by simp⟩
  | cons v vs ih =>
    obtain ⟨hv, hvs⟩ := List.pairwise_cons.1 h
    exact (ih hvs).countValue hv

/-- The counts of a series are a tally of it. -/
theorem tallies_counts (vs : List Int) : Tallies vs vs.count (counts vs) := by
  have hsorted : (vs.mergeSort fun a b => a ≤ b).Pairwise (· ≤ ·) := List.pairwise_mergeSort' _ vs
  have hperm : (vs.mergeSort fun a b => a ≤ b).Perm vs := List.mergeSort_perm vs _
  exact (tallies_foldr hsorted).congr (fun v => hperm.mem_iff) fun v => hperm.count_eq v

end Counting

end DiceNotation.Statistics
