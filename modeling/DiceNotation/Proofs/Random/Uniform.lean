import DiceNotation.Proofs.Random.Verdict
import DiceNotation.Random.Generator
import Mathlib.Algebra.BigOperators.Group.Finset.Basic
import Mathlib.Algebra.Order.Floor.Div
import Mathlib.Data.Set.Card
import Mathlib.Order.Interval.Finset.Nat

/-!
# Samples are unbiased

Each number below a bound `n` is the answer to equally many words. The words that are answered with `k`
are those whose product with `n` lies in an interval of `2^64 - 2^64 % n` numbers, which is a multiple
of `n` and so holds as many products wherever the interval starts (`card_products`). The words that are
left over are rejected, and counting all words gives their number.
-/

namespace DiceNotation

/-! ## Counting products -/

variable {n : Nat}

/-- The numbers whose products with `n` lie in an interval of the length of `q` times `n` are `q`
neighbours. -/
theorem mem_Ico_ceilDiv_iff (h0 : 0 < n) (a q r : Nat) :
    r ∈ Finset.Ico (a ⌈/⌉ n) (a ⌈/⌉ n + q) ↔ a ≤ r * n ∧ r * n < a + q * n := by
  have hceil : ∀ b : Nat, b ⌈/⌉ n ≤ r ↔ b ≤ r * n := by
    intro b
    rw [ceilDiv_le_iff_le_mul h0, Nat.mul_comm]
  have hshift : (a + q * n) ⌈/⌉ n = a ⌈/⌉ n + q := by
    rw [Nat.ceilDiv_eq_add_pred_div, Nat.ceilDiv_eq_add_pred_div,
      show a + q * n + n - 1 = a + n - 1 + q * n by omega, Nat.add_mul_div_right _ _ h0]
  rw [Finset.mem_Ico, hceil, ← hshift, ← not_le, hceil, not_le]

/-- An interval of the length of `q` times `n` holds `q` products with `n`. -/
theorem card_products (h0 : 0 < n) {a q N : Nat} (h : a + q * n ≤ N * n) :
    {r ∈ Finset.range N | a ≤ r * n ∧ r * n < a + q * n}.card = q := by
  have hinterval : {r ∈ Finset.range N | a ≤ r * n ∧ r * n < a + q * n} =
      Finset.Ico (a ⌈/⌉ n) (a ⌈/⌉ n + q) := by
    ext r
    rw [Finset.mem_filter, Finset.mem_range, mem_Ico_ceilDiv_iff h0]
    refine and_iff_right_of_imp fun hr => ?_
    exact Nat.lt_of_mul_lt_mul_right (lt_of_lt_of_le hr.2 h)
  rw [hinterval, Nat.card_Ico, Nat.add_sub_cancel_left]

/-- A product has the high half `k` and a low half no less than the threshold when it lies in the
interval of `k`. -/
theorem threshold_le_and_div_eq_iff {N : Nat} (hN : 0 < N) (n k m : Nat) :
    N % n ≤ m % N ∧ m / N = k ↔
      k * N + N % n ≤ m ∧ m < k * N + N % n + N / n * n := by
  have hsplit := Nat.div_add_mod' m N
  have hlt := Nat.mod_lt m hN
  have hlength := Nat.div_add_mod' N n
  constructor
  · rintro ⟨hlow, rfl⟩
    omega
  · rintro ⟨hle, hlt'⟩
    -- The interval lies within the products that have the high half `k`.
    have hk : m / N = k := by
      rw [Nat.div_eq_iff hN]
      omega
    rw [hk] at hsplit
    omega

/-- As many words are answered with one number as with any other. -/
theorem card_answered {N k : Nat} (h0 : 0 < n) (hn : n ≤ N) (hk : k < n) :
    {r ∈ Finset.range N | N % n ≤ r * n % N ∧ r * n / N = k}.card = N / n := by
  have hN : 0 < N := Nat.lt_of_lt_of_le h0 hn
  have hroom : k * N + N % n + N / n * n ≤ N * n := by
    have hnext : (k + 1) * N ≤ n * N := Nat.mul_le_mul_right N hk
    have hlength := Nat.div_add_mod' N n
    rw [Nat.add_mul, Nat.mul_comm n] at hnext
    omega
  simp only [threshold_le_and_div_eq_iff hN]
  exact card_products h0 hroom

/-- The words that are rejected are those that are too many for all numbers to have as many. -/
theorem card_rejected {N : Nat} (h0 : 0 < n) (hn : n ≤ N) :
    {r ∈ Finset.range N | r * n % N < N % n}.card = N % n := by
  have hN : 0 < N := Nat.lt_of_lt_of_le h0 hn
  -- The others are answered, and there are `n` answers with equally many words each.
  have hanswered : {r ∈ Finset.range N | ¬ r * n % N < N % n}.card = n * (N / n) := by
    -- The high half of the product of a word is below the bound.
    have hmaps : ∀ r ∈ {r ∈ Finset.range N | ¬ r * n % N < N % n}, r * n / N ∈ Finset.range n := by
      intro r hr
      have hr := Finset.mem_range.1 (Finset.mem_filter.1 hr).1
      rw [Finset.mem_range, Nat.div_lt_iff_lt_mul hN, Nat.mul_comm n]
      exact Nat.mul_lt_mul_of_pos_right hr h0
    rw [Finset.card_eq_sum_card_fiberwise hmaps]
    have hfiber : ∀ k ∈ Finset.range n,
        {r ∈ {r ∈ Finset.range N | ¬ r * n % N < N % n} | r * n / N = k}.card = N / n := by
      intro k hk
      rw [Finset.filter_filter, ← card_answered h0 hn (Finset.mem_range.1 hk)]
      simp only [Nat.not_lt]
    rw [Finset.sum_congr rfl hfiber, Finset.sum_const, Finset.card_range, smul_eq_mul]
  have hall := Finset.card_filter_add_card_filter_not (s := Finset.range N)
    (fun r => r * n % N < N % n)
  rw [hanswered, Finset.card_range] at hall
  have hsplit := Nat.div_add_mod N n
  omega

/-! ## Counting words -/

/-- There are as many words with a property of their numbers as there are numbers of words with it. -/
theorem ncard_words (P : Nat → Prop) [DecidablePred P] :
    {w : UInt64 | P w.toNat}.ncard = {r ∈ Finset.range wordCount | P r}.card := by
  have himage : UInt64.toNat '' {w : UInt64 | P w.toNat} =
      ({r ∈ Finset.range wordCount | P r} : Finset Nat) := by
    ext r
    rw [Finset.coe_filter, Set.mem_image]
    constructor
    · rintro ⟨w, hw, rfl⟩
      exact ⟨Finset.mem_range.2 w.toNat_lt, hw⟩
    · rintro ⟨hr, hP⟩
      have hword : (UInt64.ofNat r).toNat = r :=
        UInt64.toNat_ofNat_of_lt (Finset.mem_range.1 hr)
      refine ⟨UInt64.ofNat r, ?_, hword⟩
      show P (UInt64.ofNat r).toNat
      rw [hword]
      exact hP
  have hinjective : Function.Injective UInt64.toNat := fun _ _ h => UInt64.toNat_inj.1 h
  rw [← Set.ncard_image_of_injective _ hinjective, himage, Set.ncard_coe_finset]

/-! ## Accepted and rejected words -/

/-- A word is accepted for the bound `n` as the number `k`: with any source, a sample that takes the word
first is `k` and takes no other. -/
def Accepts (n : Nat) (w : UInt64) (k : Nat) : Prop :=
  ∀ {σ : Type} (W : WordSource σ) (tries : Nat) (s s' : σ), W.next? s = some (w, s') →
    W.sample tries n s = (.ok k, s')

/-- A word is rejected for the bound `n`: with any source, a sample that takes the word first is one
from the words behind it. -/
def Rejects (n : Nat) (w : UInt64) : Prop :=
  ∀ {σ : Type} (W : WordSource σ) (tries : Nat) (s s' : σ), W.next? s = some (w, s') →
    W.sample (tries + 1) n s = W.sample tries n s'

/-- A word is accepted as the number of its verdict. The list of the word alone shows that there is no
other. -/
theorem accepts_iff (h0 : 0 < n) (hn : n < wordCount) {w : UInt64} {k : Nat} :
    Accepts n w k ↔ verdict n w = some k := by
  constructor
  · intro h
    have hk := h Script.words 0 [w] [] rfl
    rw [WordSource.sample_of_next? _ h0 hn 0 (s := [w]) rfl] at hk
    cases hv : verdict n w with
    | none =>
      rw [hv] at hk
      cases hk
    | some k' =>
      rw [hv] at hk
      have hanswer := congrArg Prod.fst hk
      rw [Int.ofNat_inj.1 (Except.ok.inj hanswer)]
  · intro h σ W tries s s' hnext
    rw [W.sample_of_next? h0 hn tries hnext, h]

/-- A word is rejected when it has no verdict. -/
theorem rejects_iff (h0 : 0 < n) (hn : n < wordCount) {w : UInt64} :
    Rejects n w ↔ verdict n w = none := by
  constructor
  · intro h
    have hend := h Script.words 0 [w] [] rfl
    rw [WordSource.sample_of_next? _ h0 hn 1 (s := [w]) rfl,
      WordSource.sample_of_end _ h0 hn 0 (s := []) rfl] at hend
    cases hv : verdict n w with
    | none => rfl
    | some k =>
      rw [hv] at hend
      cases hend
  · intro h σ W tries s s' hnext
    rw [W.sample_of_next? h0 hn (tries + 1) hnext, h]

/-- Of all words of 64 bits, `2^64 / n` are accepted for the bound `n` as each of the numbers below it,
and the other `2^64 % n` are rejected. -/
theorem sample_unbiased {n k : Nat} (h0 : 0 < n) (hn : n < 2 ^ 64) (hk : k < n) :
    {w : UInt64 | Accepts n w k}.ncard = 2 ^ 64 / n ∧
      {w : UInt64 | Rejects n w}.ncard = 2 ^ 64 % n := by
  constructor
  · simp only [accepts_iff h0 hn, verdict_eq_some_iff]
    rw [ncard_words fun r => wordCount % n ≤ r * n % wordCount ∧ r * n / wordCount = k]
    exact card_answered h0 (Nat.le_of_lt hn) hk
  · simp only [rejects_iff h0 hn, verdict_eq_none_iff]
    rw [ncard_words fun r => r * n % wordCount < wordCount % n]
    exact card_rejected h0 (Nat.le_of_lt hn)

/-- Each face of a die of six sides has as many words, and four words are rejected. -/
theorem sample_unbiased_six :
    {w : UInt64 | Accepts 6 w 5}.ncard = 3074457345618258602 ∧
      {w : UInt64 | Rejects 6 w}.ncard = 4 := by
  have h := sample_unbiased (n := 6) (k := 5) (by decide) (by decide) (by decide)
  exact h

end DiceNotation
