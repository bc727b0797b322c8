import DiceNotation.Proofs.Evaluation.Sampling
import Mathlib.Data.List.Nodup

/-!
# Sampling in batches

A sampling may be split into batches, each of which goes on with the seeds where the one before it ended.
The seeds of the batches are those of the whole, also across the end of the 64 bits: a seed depends on its
base modulo `2^64` only, and no seed comes twice before all of them have come. So the values of the whole
are those of the batches, one batch behind the other (`deriveSeeds_batches`).
-/

namespace DiceNotation

/-! ## Seeds -/

/-- Seeds in a row are so many from the base on, and then those from where these end. -/
theorem deriveSeeds_add (base : Int) (m n : Nat) :
    deriveSeeds base (m + n : Nat) = deriveSeeds base m ++ deriveSeeds (base + m) n := by
  rw [deriveSeeds, deriveSeeds, deriveSeeds, Int.toNat_natCast, Int.toNat_natCast, Int.toNat_natCast,
    List.range_add, List.map_append, List.map_map]
  refine congrArg (_ ++ ·) (List.map_congr_left fun i _ => ?_)
  rw [Function.comp_apply, Int.natCast_add, Int.add_assoc]

/-- Seeds do not change when their base does by a multiple of their number. -/
theorem deriveSeeds_add_mul (base k count : Int) :
    deriveSeeds (base + k * 2 ^ 64) count = deriveSeeds base count := by
  have hcount : (wordCount : Int) = 2 ^ 64 := rfl
  rw [deriveSeeds, deriveSeeds, hcount]
  refine List.map_congr_left fun i _ => ?_
  rw [Int.add_right_comm, Int.add_mul_emod_self_right]

/-- A seed in a row is as it stands the counter that its generator starts from. -/
theorem ofSeed_of_mem_deriveSeeds {base count s : Int} (h : s ∈ deriveSeeds base count) :
    ∃ c : UInt64, Counter.ofSeed s = .ok c ∧ (c.toNat : Int) = s := by
  obtain ⟨hnonneg, hlt⟩ := isSeed_of_mem_deriveSeeds h
  have hsize : s.toNat < UInt64.size := by
    show s.toNat < 2 ^ 64
    omega
  refine ⟨UInt64.ofNat s.toNat, ofSeed_of_isSeed ⟨hnonneg, hlt⟩, ?_⟩
  rw [UInt64.toNat_ofNat_of_lt' hsize, Int.toNat_of_nonneg hnonneg]

/-- No seed comes twice among as many as there are. -/
theorem nodup_deriveSeeds (base : Int) {count : Int} (h : count ≤ 2 ^ 64) :
    (deriveSeeds base count).Nodup := by
  refine List.Nodup.map_on (fun i hi j hj hij => ?_) List.nodup_range
  have hcount : (wordCount : Int) = 2 ^ 64 := rfl
  rw [List.mem_range] at hi hj
  rw [hcount] at hij
  -- Positions in the row that have the same seed are a multiple of the number of seeds apart.
  have hdvd : (2 ^ 64 : Int) ∣ (i : Int) - j := by
    rw [← Int.add_sub_add_left base (i : Int) j]
    exact Int.dvd_of_emod_eq_zero (Int.emod_eq_emod_iff_emod_sub_eq_zero.1 hij)
  omega

/-! ## Values -/

/-- The values that a sampling gives, and none where it fails. -/
def sampledValues (p : Program) (seed limit samples : Int) : List Int :=
  match sampleRolls p seed limit samples with
  | .ok vs => vs
  | .error _ => []

/-- The values of a sampling of a compiled text are those of the runs that have one, also where all of the
runs fail and the sampling with them. -/
theorem sampledValues_of_compile {text : String} {p : Program} (h : compile text = .ok p)
    (seed limit samples : Int) :
    sampledValues p seed limit samples =
      (deriveSeeds seed samples).filterMap fun s => (p.roll s limit).toOption := by
  unfold sampledValues
  rcases sampleRolls_cases h limit seed samples with ⟨hok, -⟩ | ⟨s, rest, cause, -, -, hfail, herror⟩
  · rw [hok]
  · rw [herror]
    refine (List.filterMap_eq_nil_iff.2 fun s hs => ?_).symm
    obtain ⟨e, he⟩ := hfail s hs
    rw [he]
    rfl

/-- The seeds of two batches in a row are those of the whole, for any base and any numbers of seeds. They do
not change when the base does by a multiple of `2^64`, each of them is one that a generator starts from, and
up to `2^64` of them are all different. So the values that a compiled text is sampled to are those of the
first batch and behind them those of the second. -/
theorem deriveSeeds_batches (base : Int) :
    (∀ m n : Nat, deriveSeeds base (m + n) = deriveSeeds base m ++ deriveSeeds (base + m) n) ∧
    (∀ k count : Int, deriveSeeds (base + k * 2 ^ 64) count = deriveSeeds base count) ∧
    (∀ count : Int, ∀ s ∈ deriveSeeds base count, 0 ≤ s ∧ s < 2 ^ 64 ∧
      ∃ c : UInt64, Counter.ofSeed s = .ok c ∧ (c.toNat : Int) = s) ∧
    (∀ count : Int, count ≤ 2 ^ 64 → (deriveSeeds base count).Nodup) ∧
    ∀ (text : String) (p : Program), compile text = .ok p → ∀ (limit : Int) (m n : Nat),
      sampledValues p base limit (m + n) =
        sampledValues p base limit m ++ sampledValues p (base + m) limit n := by
  refine ⟨deriveSeeds_add base, deriveSeeds_add_mul base, fun count s hs => ?_,
    fun count => nodup_deriveSeeds base, fun text p h limit m n => ?_⟩
  · obtain ⟨hnonneg, hlt⟩ := isSeed_of_mem_deriveSeeds hs
    exact ⟨hnonneg, hlt, ofSeed_of_mem_deriveSeeds hs⟩
  · rw [sampledValues_of_compile h, sampledValues_of_compile h, sampledValues_of_compile h,
      ← List.filterMap_append]
    exact congrArg (List.filterMap _) (deriveSeeds_add base m n)

/-- The seeds from -1 on wrap around behind the first one. A batch with this seed and one with the three
behind it have the values of all four, of which the seed 0 has none. -/
theorem deriveSeeds_batches_wrap :
    deriveSeeds (-1) 4 = [2 ^ 64 - 1, 0, 1, 2] ∧ (deriveSeeds (-1) (2 ^ 64)).Nodup ∧
    (∃ c : UInt64, Counter.ofSeed (2 ^ 64 - 1) = .ok c ∧ (c.toNat : Int) = 2 ^ 64 - 1) ∧
    [8, 8, 8] =
      sampledValues ⟨[.num 8, .num 1, .num 2, .dice, .num 1, .arith .sub, .arith .div], 3⟩ (-1) 5 1 ++
      sampledValues ⟨[.num 8, .num 1, .num 2, .dice, .num 1, .arith .sub, .arith .div], 3⟩ 0 5 3 := by
  have hcompile : compile "8/(d2-1)" =
      .ok ⟨[.num 8, .num 1, .num 2, .dice, .num 1, .arith .sub, .arith .div], 3⟩ := by
    with_unfolding_all rfl
  obtain ⟨-, -, hseed, hnodup, hvalues⟩ := deriveSeeds_batches (-1)
  have hfour : deriveSeeds (-1) 4 = [2 ^ 64 - 1, 0, 1, 2] := by decide
  have hfirst : (2 ^ 64 - 1 : Int) ∈ deriveSeeds (-1) 4 := by
    rw [hfour]
    exact List.mem_cons_self
  refine ⟨hfour, hnodup (2 ^ 64) (le_refl _), (hseed 4 _ hfirst).2.2, ?_⟩
  exact Eq.trans (by rfl) (hvalues "8/(d2-1)" _ hcompile 5 1 3)

end DiceNotation
