import DiceNotation.Proofs.Random.Period
import Mathlib.Data.Nat.Find

/-!
# Rejecting words until one is unbiased

The plain way to a number below `n` is to take words until the low half of the product of one of them
with `n` is at least `2^64 % n`, and to answer with the high half of that product
(`WordSource.reject`). A sample does the same with less work: it is this loop on every source of words,
whether one of them can be used or not (`WordSource.sample_eq_reject`).

So a sample is decided by the first unbiased word of its source (`WordSource.FirstUnbiased`), behind which
the source is left. The bound on the tries only matters when it is below the number of words before that
one. The words of the counter have an unbiased one among any `2^64` in a row, for every bound, so its
samples end without a bound on the tries as well.
-/

namespace DiceNotation

/-- A word that a bound does not reject: the low half of its product with the bound is not below the
number of words that are too many. -/
def Unbiased (n : Nat) (w : UInt64) : Prop :=
  wordCount % n ≤ w.toNat * n % wordCount

/-- The product of a word and a bound is computed and compared. -/
instance (n : Nat) (w : UInt64) : Decidable (Unbiased n w) :=
  inferInstanceAs (Decidable (_ ≤ _))

/-- An unbiased word is answered with the high half of its product with the bound. -/
theorem verdict_of_unbiased {n : Nat} {w : UInt64} (h : Unbiased n w) :
    verdict n w = some (w.toNat * n / wordCount) :=
  verdict_eq_some_iff.2 ⟨h, rfl⟩

/-- Any other word is rejected. -/
theorem verdict_of_not_unbiased {n : Nat} {w : UInt64} (h : ¬ Unbiased n w) : verdict n w = none :=
  verdict_eq_none_iff.2 (Nat.not_le.1 h)

namespace WordSource

variable {σ : Type} {W : WordSource σ}

/-! ## Words in a row -/

/-- The word behind `k` others, and the state behind it. -/
def read (W : WordSource σ) : Nat → σ → Option (UInt64 × σ)
  | 0, s => W.next? s
  | k + 1, s =>
    match W.next? s with
    | none => none
    | some (_, s) => W.read k s

/-- Behind the first word, the others are those of the state behind it. -/
theorem read_succ {s s' : σ} {w : UInt64} (h : W.next? s = some (w, s')) (k : Nat) :
    W.read (k + 1) s = W.read k s' := by
  rw [read, h]

/-- A word that is read has a first word, which is itself or before it. -/
theorem exists_next?_of_read {k : Nat} {s : σ} {e : UInt64 × σ} (h : W.read k s = some e) :
    ∃ w s', W.next? s = some (w, s') := by
  cases k with
  | zero => exact ⟨e.1, e.2, h⟩
  | succ k =>
    rw [read] at h
    rcases hnext : W.next? s with _ | ⟨w, s'⟩
    · rw [hnext] at h
      cases h
    · exact ⟨w, s', rfl⟩

/-- There are words at all places before a word. -/
theorem exists_read_of_le {i k : Nat} (hik : i ≤ k) {s : σ} {e : UInt64 × σ}
    (h : W.read k s = some e) : ∃ w s', W.read i s = some (w, s') := by
  induction i generalizing k s with
  | zero => exact exists_next?_of_read h
  | succ i ih =>
    obtain ⟨k, rfl⟩ : ∃ k', k = k' + 1 := ⟨k - 1, by omega⟩
    obtain ⟨w, s', hnext⟩ := exists_next?_of_read h
    rw [read_succ hnext] at h ⊢
    exact ih (Nat.le_of_succ_le_succ hik) h

/-! ## The first unbiased word -/

/-- The first word that the bound `n` does not reject is `w`. It stands behind `k` words that are
rejected, and `s'` is the state behind it. -/
structure FirstUnbiased (W : WordSource σ) (n : Nat) (s : σ) (k : Nat) (w : UInt64) (s' : σ) : Prop where
  /-- The word is read behind `k` others. -/
  read : W.read k s = some (w, s')
  /-- It is not rejected. -/
  unbiased : Unbiased n w
  /-- The words before it are rejected. -/
  before : ∀ i < k, ∃ w' s'', W.read i s = some (w', s'') ∧ ¬ Unbiased n w'

/-- Where some word is not rejected there is a first one. -/
theorem exists_firstUnbiased {n i : Nat} {s s' : σ} {w : UInt64} (h : W.read i s = some (w, s'))
    (hw : Unbiased n w) : ∃ k ≤ i, ∃ w s', W.FirstUnbiased n s k w s' := by
  classical
  have hexists : ∃ k w s', W.read k s = some (w, s') ∧ Unbiased n w := ⟨i, w, s', h, hw⟩
  obtain ⟨wk, sk, hread, hunbiased⟩ := Nat.find_spec hexists
  have hle : Nat.find hexists ≤ i := Nat.find_min' hexists ⟨w, s', h, hw⟩
  refine ⟨Nat.find hexists, hle, wk, sk, hread, hunbiased, fun j hj => ?_⟩
  obtain ⟨w', s'', hread'⟩ := exists_read_of_le (Nat.le_of_lt hj) hread
  exact ⟨w', s'', hread', fun hw' => Nat.find_min hexists hj ⟨w', s'', hread', hw'⟩⟩

/-! ## The loop -/

/-- Takes words until one is unbiased, of which at most `tries` are rejected, and answers with the high
half of its product. -/
def reject (W : WordSource σ) (n : Nat) : Nat → σ → Except SampleError Int × σ
  | tries, s =>
    match W.next? s with
    | none => (.error .exhausted, s)
    | some (w, s) =>
      if Unbiased n w then (.ok (w.toNat * n / wordCount : Nat), s)
      else
        match tries with
        | 0 => (.error .exhausted, s)
        | tries + 1 => W.reject n tries s

section

variable {n : Nat} {s s' : σ} {w : UInt64} (hnext : W.next? s = some (w, s'))

include hnext

/-- The loop ends with a word that is unbiased. -/
theorem reject_of_unbiased (hw : Unbiased n w) (tries : Nat) :
    W.reject n tries s = (.ok (w.toNat * n / wordCount : Nat), s') := by
  rw [reject, hnext]
  exact if_pos hw

/-- The loop goes on behind a word that is rejected, with a try less. -/
theorem reject_succ (hw : ¬ Unbiased n w) (tries : Nat) :
    W.reject n (tries + 1) s = W.reject n tries s' := by
  rw [reject, hnext]
  exact if_neg hw

/-- The loop gives up behind a word that is rejected when there is no try left. -/
theorem reject_zero (hw : ¬ Unbiased n w) : W.reject n 0 s = (.error .exhausted, s') := by
  rw [reject, hnext]
  exact if_neg hw

end

/-- Where the words end, so does the loop. -/
theorem reject_of_end {s : σ} (hnext : W.next? s = none) (n tries : Nat) :
    W.reject n tries s = (.error .exhausted, s) := by
  rw [reject, hnext]

/-- A sample is the loop, on every source of words. -/
theorem sample_eq_reject {n : Nat} (h0 : 0 < n) (hn : n < wordCount) (tries : Nat) (s : σ) :
    W.sample tries n s = W.reject n tries s := by
  induction tries generalizing s with
  | zero =>
    rcases hnext : W.next? s with _ | ⟨w, s'⟩
    · rw [W.sample_of_end h0 hn 0 hnext, reject_of_end hnext]
    · rw [W.sample_of_next? h0 hn 0 hnext]
      by_cases hw : Unbiased n w
      · rw [verdict_of_unbiased hw, reject_of_unbiased hnext hw]
      · rw [verdict_of_not_unbiased hw, reject_zero hnext hw]
  | succ tries ih =>
    rcases hnext : W.next? s with _ | ⟨w, s'⟩
    · rw [W.sample_of_end h0 hn (tries + 1) hnext, reject_of_end hnext]
    · rw [W.sample_of_next? h0 hn (tries + 1) hnext]
      by_cases hw : Unbiased n w
      · rw [verdict_of_unbiased hw, reject_of_unbiased hnext hw]
      · rw [verdict_of_not_unbiased hw, reject_succ hnext hw]
        exact ih s'

/-- The loop ends with the first unbiased word when it has tries for those before it. -/
theorem FirstUnbiased.reject_eq {n k : Nat} {s s' : σ} {w : UInt64} (h : W.FirstUnbiased n s k w s')
    {tries : Nat} (hk : k ≤ tries) :
    W.reject n tries s = (.ok (w.toNat * n / wordCount : Nat), s') := by
  induction k generalizing s tries with
  | zero => exact reject_of_unbiased h.read h.unbiased tries
  | succ k ih =>
    obtain ⟨tries, rfl⟩ : ∃ t, tries = t + 1 := ⟨tries - 1, by omega⟩
    obtain ⟨w₀, s₀, hnext, hrejected⟩ := h.before 0 (Nat.succ_pos k)
    -- Behind the first word, which is rejected, the loop looks for the same word.
    have hrest : W.FirstUnbiased n s₀ k w s' := by
      refine ⟨(read_succ hnext k).symm.trans h.read, h.unbiased, fun i hi => ?_⟩
      rw [← read_succ hnext]
      exact h.before (i + 1) (Nat.succ_lt_succ hi)
    rw [reject_succ hnext hrejected]
    exact ih hrest (Nat.le_of_succ_le_succ hk)

/-- A sample is decided by the first unbiased word, whatever the bound on the tries is above the number
of the words before it. -/
theorem FirstUnbiased.sample_eq {n k : Nat} (h0 : 0 < n) (hn : n < wordCount) {s s' : σ} {w : UInt64}
    (h : W.FirstUnbiased n s k w s') {tries : Nat} (hk : k ≤ tries) :
    W.sample tries n s = (.ok (w.toNat * n / wordCount : Nat), s') :=
  (sample_eq_reject h0 hn tries s).trans (h.reject_eq hk)

/-- The number that an unbiased word is answered with is below the bound. -/
theorem FirstUnbiased.lt {n k : Nat} (h0 : 0 < n) {s s' : σ} {w : UInt64}
    (h : W.FirstUnbiased n s k w s') : w.toNat * n / wordCount < n :=
  Counter.lt_of_verdict h0 (verdict_of_unbiased h.unbiased)

/-- For a bound of 64 bits a sample is the plain loop on every source of words. When one of the words is
unbiased, it is the high half of the product of the first such word and the bound, a number below the
bound, and it takes the words up to this one and no more, with every number of tries that are enough for
those before it. What is no bound is refused, and no word is taken for it. -/
theorem sample_firstUnbiased (W : WordSource σ) (n : Int) (s : σ) :
    (IsBound n →
      (∀ tries, W.sample tries n s = W.reject n.toNat tries s) ∧
      ∀ i w s', W.read i s = some (w, s') → Unbiased n.toNat w →
        ∃ j ≤ i, ∃ w s', W.FirstUnbiased n.toNat s j w s' ∧
          ((w.toNat * n.toNat / wordCount : Nat) : Int) < n ∧
          ∀ tries, j ≤ tries →
            W.sample tries n s = (.ok (w.toNat * n.toNat / wordCount : Nat), s')) ∧
    (¬ IsBound n → ∀ tries, W.sample tries n s = (.error (.badBound n), s)) := by
  refine ⟨fun hbound => ?_, fun hbound tries => if_neg hbound⟩
  obtain ⟨n, rfl⟩ := Int.eq_ofNat_of_zero_le (Int.le_of_lt hbound.1)
  have h0 : 0 < n := Int.natCast_pos.1 hbound.1
  have hn : n < wordCount := Int.ofNat_lt.1 hbound.2
  rw [Int.toNat_natCast]
  refine ⟨fun tries => sample_eq_reject h0 hn tries s, fun i w s' hread hw => ?_⟩
  obtain ⟨j, hj, w, s', hfirst⟩ := exists_firstUnbiased hread hw
  exact ⟨j, hj, w, s', hfirst, Int.ofNat_lt.2 (hfirst.lt h0), fun tries hle => hfirst.sample_eq h0 hn hle⟩

/-- For the bound 3 the word zero is rejected, so behind two of them the third word is the one that
counts, and the fourth is not taken. -/
theorem sample_firstUnbiased_three :
    IsBound 3 ∧ Script.words.read 2 [0, 0, 0x8000000000000000, 7] = some (0x8000000000000000, [7]) ∧
      Unbiased 3 0x8000000000000000 ∧
      Script.words.sample 4 3 [0, 0, 0x8000000000000000, 7] = (.ok 1, [7]) := by
  refine ⟨by decide, rfl, by decide, ?_⟩
  obtain ⟨hbound, -⟩ := sample_firstUnbiased Script.words 3 [0, 0, 0x8000000000000000, 7]
  obtain ⟨j, hj, w, s', hfirst, -, hsample⟩ :=
    (hbound (by decide)).2 2 0x8000000000000000 [7] rfl (by decide)
  have hzero : j ≠ 0 := by
    rintro rfl
    obtain ⟨rfl, -⟩ := Prod.mk.inj (Option.some.inj hfirst.read)
    exact absurd hfirst.unbiased (by decide)
  have hone : j ≠ 1 := by
    rintro rfl
    obtain ⟨rfl, -⟩ := Prod.mk.inj (Option.some.inj hfirst.read)
    exact absurd hfirst.unbiased (by decide)
  obtain rfl : j = 2 := by omega
  obtain ⟨rfl, rfl⟩ := Prod.mk.inj (Option.some.inj hfirst.read)
  exact hsample 4 (by decide)

end WordSource

/-! ## The counter -/

namespace Counter

/-- The words of the counter are the counters behind the steps, mixed. -/
theorem read_words (k : Nat) (s : UInt64) :
    words.read k s = some (mix ((· + increment)^[k + 1] s), (· + increment)^[k + 1] s) := by
  induction k generalizing s with
  | zero => rfl
  | succ k ih =>
    have hnext : words.next? s = some (mix (s + increment), s + increment) := rfl
    rw [WordSource.read_succ hnext, ih, Function.iterate_succ_apply _ (k + 1)]

/-- From every counter and for every bound of 64 bits a sample ends. Among `2^64` words in a row there is
one that is not rejected, and the sample is answered with the first such word. With all numbers of tries
that are enough for the words before it the outcome is the same, so no bound on them is needed for the
sample to end. -/
theorem sample_settles {n : Int} (hn : IsBound n) (s : UInt64) :
    ∃ k < 2 ^ 64, ∃ w s', words.FirstUnbiased n.toNat s k w s' ∧
      (wordCount - n.toNat) % n.toNat ≤ w.toNat * n.toNat % wordCount ∧
      sampler.sample n s = (.ok (w.toNat * n.toNat / wordCount : Nat), s') ∧
      ∀ tries, k ≤ tries → words.sample tries n s = sampler.sample n s := by
  obtain ⟨n, rfl⟩ := Int.eq_ofNat_of_zero_le (Int.le_of_lt hn.1)
  have h0 : 0 < n := Int.natCast_pos.1 hn.1
  have hcount : n < wordCount := Int.ofNat_lt.1 hn.2
  rw [Int.toNat_natCast]
  obtain ⟨i, hi, haccepted⟩ := exists_accepted h0 hcount s
  obtain ⟨k, hk, w, s', hfirst⟩ :=
    WordSource.exists_firstUnbiased (read_words i s) (verdict_eq_some_iff.1 haccepted).1
  have hlt : k < 2 ^ 64 := Nat.lt_of_le_of_lt hk hi
  have hsample : sampler.sample n s = (.ok (w.toNat * n / wordCount : Nat), s') :=
    hfirst.sample_eq h0 hcount (Nat.le_of_lt hlt)
  refine ⟨k, hlt, w, s', hfirst, ?_, hsample, fun tries hle => ?_⟩
  · rw [WordSource.threshold_eq (Nat.le_of_lt hcount)]
    exact hfirst.unbiased
  · rw [hsample]
    exact hfirst.sample_eq h0 hcount hle

/-- The bound `2^63 + 1` rejects nearly half of the words. From the counter 3 the first word is one of
these, and the second one is not. -/
theorem sample_settles_second :
    IsBound 0x8000000000000001 ∧
      sampler.sample 0x8000000000000001 3 = (.ok 3689257814155023832, 0x40EC3AC8F17AC861) := by
  have hbound : IsBound 0x8000000000000001 := by decide
  obtain ⟨k, -, w, s', hfirst, -, hsample, -⟩ := sample_settles hbound 3
  have hzero : k ≠ 0 := by
    rintro rfl
    obtain ⟨rfl, -⟩ := Prod.mk.inj (Option.some.inj hfirst.read)
    exact absurd hfirst.unbiased (by decide)
  have hone : ¬ 1 < k := by
    intro hk
    obtain ⟨w', s'', hread, hrejected⟩ := hfirst.before 1 hk
    obtain ⟨rfl, -⟩ := Prod.mk.inj (Option.some.inj hread)
    exact hrejected (by decide)
  obtain rfl : k = 1 := by omega
  obtain ⟨rfl, rfl⟩ := Prod.mk.inj (Option.some.inj hfirst.read)
  rw [hsample]
  decide

end Counter

end DiceNotation
