import DiceNotation.Proofs.Random.Rejection
import Mathlib.Data.Nat.ModEq

/-!
# The cycle of the counter

Where the counter stands is known from the number of its words that were taken, whatever they were taken
for: a word of its own takes one, a sample takes those that it rejects and the one that it is answered with,
and a bound that is refused takes none. `WordSource.traced` is the source that also notes the states it
comes to, so the words of a run are counted by the code that takes them (`Counter.foldl_after_traced`).

The counter that `k` words lead to is the seed and `k` times the increment, modulo `2^64`
(`Counter.toNat_advance`). The increment is odd, so two numbers of words lead to one counter just
when they agree modulo `2^64`, and any `2^64` words in a row lead to every counter once.
-/

namespace DiceNotation

/-! ## Requests -/

/-- What is asked of a source of words. -/
inductive Request
  /-- A word as it is. -/
  | word
  /-- A number below a bound. -/
  | sample (bound : Int)
  deriving DecidableEq, Repr

variable {σ : Type}

/-- The state behind a request, where `W` gives the words and `S` the samples. -/
def Request.after (W : WordSource σ) (S : Sampler σ) (s : σ) : Request → σ
  | word =>
    match W.next? s with
    | none => s
    | some (_, s) => s
  | sample n => (S.sample n s).2

/-- The words of any generator that has words. -/
def Generator.words : WordSource Generator where
  next? := nextWord?

/-- The source that also notes the state behind each word that is taken from it, the latest last. -/
def WordSource.traced (W : WordSource σ) : WordSource (σ × List σ) where
  next? := fun (s, visited) => (W.next? s).map fun (w, s) => (w, s, visited ++ [s])

namespace Counter

/-- Samples from a counter, with the counters that their words lead through. -/
def tracedSampler : Sampler (UInt64 × List UInt64) where
  sample := words.traced.sample wordCount

/-! ## Counters in a row -/

/-- The counter that `k` words lead to. -/
def advance (k : Nat) (s : UInt64) : UInt64 :=
  (fun s => (next s).2)^[k] s

/-- The counters that `k` words lead through, to the last one. -/
def trail (k : Nat) (s : UInt64) : List UInt64 :=
  (List.range k).map fun i => advance (i + 1) s

/-- The counter behind words in a row is the one behind the second part of them, from that behind the first
one. -/
theorem advance_add (j k : Nat) (s : UInt64) : advance (j + k) s = advance k (advance j s) := by
  rw [advance, Nat.add_comm, Function.iterate_add_apply]
  rfl

/-- Words in a row lead through the counters of the first part, and then through those of the second one. -/
theorem trail_add (j k : Nat) (s : UInt64) : trail (j + k) s = trail j s ++ trail k (advance j s) := by
  rw [trail, List.range_add, List.map_append, List.map_map]
  refine congrArg (trail j s ++ ·) (List.map_congr_left fun i _ => ?_)
  rw [Function.comp_apply, Nat.add_assoc, advance_add]

/-- The number of a counter is the one that it started from and as many increments as there were words. -/
theorem toNat_advance (k : Nat) (s : UInt64) :
    (advance k s).toNat = (s.toNat + k * 0xA0761D6478BD642F) % 2 ^ 64 := by
  have hadvance : advance k s = s + UInt64.ofNat k * increment := iterate_eq k s
  have hincrement : increment.toNat = 0xA0761D6478BD642F := rfl
  rw [hadvance, UInt64.toNat_add, UInt64.toNat_mul, UInt64.toNat_ofNat', hincrement]
  omega

/-- Two numbers of words lead to one counter just when they agree modulo `2^64`. -/
theorem advance_eq_iff (i j : Nat) (s : UInt64) :
    advance i s = advance j s ↔ i ≡ j [MOD 2 ^ 64] := by
  -- The increment is odd, so it can be cancelled.
  have hcoprime : Nat.gcd (2 ^ 64) 0xA0761D6478BD642F = 1 := by decide
  rw [← UInt64.toNat_inj, toNat_advance, toNat_advance]
  constructor
  · intro h
    have hproducts : i * 0xA0761D6478BD642F ≡ j * 0xA0761D6478BD642F [MOD 2 ^ 64] :=
      Nat.ModEq.add_left_cancel' s.toNat h
    exact hproducts.cancel_right_of_coprime hcoprime
  · intro h
    exact (h.mul_right 0xA0761D6478BD642F).add_left s.toNat

/-- Any `2^64` words in a row lead to each counter once. -/
theorem existsUnique_advance (i : Nat) (s t : UInt64) :
    ∃! m, i < m ∧ m ≤ i + 2 ^ 64 ∧ advance m s = t := by
  obtain ⟨k, hk, ht⟩ := exists_iterate_eq (advance i s) t
  refine ⟨i + (k + 1), ⟨by omega, by omega, ?_⟩, fun m ⟨hlt, hle, hm⟩ => ?_⟩
  · rw [advance_add]
    exact ht
  · have hsame : advance m s = advance (i + (k + 1)) s := by
      rw [hm, advance_add]
      exact ht.symm
    have hmod : m % 2 ^ 64 = (i + (k + 1)) % 2 ^ 64 := (advance_eq_iff m (i + (k + 1)) s).1 hsame
    omega

/-! ## Words that are noted -/

/-- The words of the counter, with the counters that they lead through. -/
theorem read_traced (k : Nat) (s : UInt64) (visited : List UInt64) :
    words.traced.read k (s, visited) =
      some (mix (advance (k + 1) s), advance (k + 1) s, visited ++ trail (k + 1) s) := by
  induction k generalizing s visited with
  | zero => rfl
  | succ k ih =>
    have hnext : words.traced.next? (s, visited) =
        some (mix (advance 1 s), advance 1 s, visited ++ trail 1 s) := rfl
    rw [WordSource.read_succ hnext, ih, List.append_assoc, ← trail_add, ← advance_add,
      Nat.add_comm 1]

/-- To note the counters of a sample changes nothing about its words: the first one that is unbiased is the
same, with the counters that led to it. -/
theorem firstUnbiased_traced {n k : Nat} {s s' : UInt64} {w : UInt64}
    (h : words.FirstUnbiased n s k w s') (visited : List UInt64) :
    s' = advance (k + 1) s ∧
      words.traced.FirstUnbiased n (s, visited) k w (s', visited ++ trail (k + 1) s) := by
  have hword := h.read
  rw [read_words] at hword
  obtain ⟨rfl, rfl⟩ := Prod.mk.inj (Option.some.inj hword)
  refine ⟨rfl, read_traced k s visited, h.unbiased, fun i hi => ?_⟩
  obtain ⟨w', s'', hread, hrejected⟩ := h.before i hi
  rw [read_words] at hread
  obtain ⟨rfl, rfl⟩ := Prod.mk.inj (Option.some.inj hread)
  exact ⟨_, _, read_traced i s visited, hrejected⟩

/-- A sample is the same whether its counters are noted or not. They are those of the words that it
rejects and of the one that it is answered with. -/
theorem sample_traced {n : Int} (hn : IsBound n) (s : UInt64) :
    ∃ (a : Nat) (k : Nat), sampler.sample n s = (.ok (a : Int), advance k s) ∧
      ∀ visited, tracedSampler.sample n (s, visited) = (.ok (a : Int), advance k s, visited ++ trail k s) := by
  obtain ⟨n, rfl⟩ := Int.eq_ofNat_of_zero_le (Int.le_of_lt hn.1)
  have h0 : 0 < n := Int.natCast_pos.1 hn.1
  have hcount : n < wordCount := Int.ofNat_lt.1 hn.2
  obtain ⟨i, hi, haccepted⟩ := exists_accepted h0 hcount s
  obtain ⟨k, hk, w, s', hfirst⟩ :=
    WordSource.exists_firstUnbiased (read_words i s) (verdict_eq_some_iff.1 haccepted).1
  have htries : k ≤ wordCount := Nat.le_of_lt (Nat.lt_of_le_of_lt hk hi)
  obtain ⟨rfl, -⟩ := firstUnbiased_traced hfirst []
  refine ⟨w.toNat * n / wordCount, k + 1, hfirst.sample_eq h0 hcount htries, fun visited => ?_⟩
  exact (firstUnbiased_traced hfirst visited).2.sample_eq h0 hcount htries

/-! ## Requests in a row -/

/-- A request takes some words of the counter, which are those that are noted. -/
theorem after_traced (s : UInt64) (r : Request) :
    ∃ k, Request.after words sampler s r = advance k s ∧
      ∀ visited, Request.after words.traced tracedSampler (s, visited) r =
        (advance k s, visited ++ trail k s) := by
  cases r with
  | word => exact ⟨1, rfl, fun _ => rfl⟩
  | sample n =>
    by_cases hn : IsBound n
    · obtain ⟨a, k, hsample, htraced⟩ := sample_traced hn s
      exact ⟨k, congrArg Prod.snd hsample, fun visited => congrArg Prod.snd (htraced visited)⟩
    · -- What is no bound is refused before a word is taken.
      refine ⟨0, congrArg Prod.snd (if_neg hn), fun visited => ?_⟩
      rw [trail, List.range_zero, List.map_nil, List.append_nil]
      exact congrArg Prod.snd (if_neg hn)

/-- Requests in a row take some words of the counter, which are those that are noted. -/
theorem foldl_after_traced (requests : List Request) (s : UInt64) :
    ∃ k, requests.foldl (Request.after words sampler) s = advance k s ∧
      ∀ visited, requests.foldl (Request.after words.traced tracedSampler) (s, visited) =
        (advance k s, visited ++ trail k s) := by
  induction requests generalizing s with
  | nil =>
    refine ⟨0, rfl, fun visited => ?_⟩
    rw [trail, List.range_zero, List.map_nil, List.append_nil]
    rfl
  | cons r requests ih =>
    -- The words of the first request come before those of the others, which go on from its counter.
    obtain ⟨j, hr, hrtraced⟩ := after_traced s r
    obtain ⟨k, hrest, hrestTraced⟩ := ih (advance j s)
    refine ⟨j + k, ?_, fun visited => ?_⟩
    · rw [List.foldl_cons, hr, hrest, advance_add]
    · rw [List.foldl_cons, hrtraced, hrestTraced, List.append_assoc, ← trail_add, ← advance_add]

end Counter

/-- Requests leave a seeded generator at the counter where they leave its counter. -/
theorem Generator.foldl_after (requests : List Request) (s : UInt64) :
    requests.foldl (Request.after words sampler) (seeded s) =
      seeded (requests.foldl (Request.after Counter.words Counter.sampler) s) := by
  refine List.foldl_hom seeded fun s r => ?_
  cases r with
  | word => rfl
  | sample n => rfl

/-- A seeded generator refuses what is no bound, and stays as it is. -/
theorem Generator.sample_of_not_isBound {n : Int} (hn : ¬ IsBound n) (s : UInt64) :
    sampler.sample n (seeded s) = (.error (.badBound n), seeded s) := by
  have hcounter : Counter.sampler.sample n s = (.error (.badBound n), s) := if_neg hn
  show ((Counter.sampler.sample n s).1, seeded (Counter.sampler.sample n s).2) = _
  rw [hcounter]

/-- A generator that starts from a seed stands, behind any requests, at the seed and as many increments as
words were taken for them, modulo `2^64`, and it came through the counters on the way there one after the
other. No word is taken for a bound that is refused. The counters behind `i` words and behind `j` words are
the same just when `i` and `j` agree modulo `2^64`, so any `2^64` words in a row lead to each counter
once. -/
theorem Generator.seeded_cycle {seed : Int} (h0 : 0 ≤ seed) (hseed : seed < 2 ^ 64) :
    ∃ s : UInt64, ofSeed seed = .ok (seeded s) ∧
      (∀ requests : List Request, ∃ visited : List UInt64,
        requests.foldl (Request.after words sampler) (seeded s) =
          seeded (Counter.advance visited.length s) ∧
        requests.foldl (Request.after Counter.words.traced Counter.tracedSampler) (s, []) =
          (Counter.advance visited.length s, visited) ∧
        visited = (List.range visited.length).map fun i => Counter.advance (i + 1) s) ∧
      (∀ (n : Int) (t : UInt64) (visited : List UInt64), ¬ IsBound n →
        sampler.sample n (seeded t) = (.error (.badBound n), seeded t) ∧
        Counter.tracedSampler.sample n (t, visited) = (.error (.badBound n), t, visited)) ∧
      (∀ k : Nat, ((Counter.advance k s).toNat : Int) = (seed + k * 0xA0761D6478BD642F) % 2 ^ 64) ∧
      (∀ i j : Nat, Counter.advance i s = Counter.advance j s ↔ i ≡ j [MOD 2 ^ 64]) ∧
      ∀ (i : Nat) (t : UInt64), ∃! m, i < m ∧ m ≤ i + 2 ^ 64 ∧ Counter.advance m s = t := by
  have hsize : seed.toNat < UInt64.size := by
    show seed.toNat < 2 ^ 64
    omega
  have hstart : Counter.ofSeed seed = .ok (UInt64.ofNat seed.toNat) := if_pos ⟨h0, hseed⟩
  refine ⟨UInt64.ofNat seed.toNat, by rw [ofSeed, hstart]; rfl, fun requests => ?_,
    fun n t visited hn => ⟨sample_of_not_isBound hn t, if_neg hn⟩, fun k => ?_, fun i j => Counter.advance_eq_iff i j _,
    fun i t => Counter.existsUnique_advance i _ t⟩
  · obtain ⟨k, hafter, htraced⟩ := Counter.foldl_after_traced requests (UInt64.ofNat seed.toNat)
    have hlength : (Counter.trail k (UInt64.ofNat seed.toNat)).length = k := by
      rw [Counter.trail, List.length_map, List.length_range]
    refine ⟨Counter.trail k (UInt64.ofNat seed.toNat), ?_, ?_, ?_⟩
    · rw [foldl_after, hafter, hlength]
    · rw [htraced, hlength, List.nil_append]
    · rw [hlength]
      rfl
  · rw [Counter.toNat_advance, UInt64.toNat_ofNat_of_lt' hsize]
    omega

/-- From the seed 3 the bound `2^63 + 1` takes two words, the first of which it rejects. The bound 0 takes
none, so the next word is the third one. -/
theorem Generator.seeded_cycle_third :
    [Request.sample 0x8000000000000001, .sample 0, .word].foldl (Request.after words sampler) (seeded 3) =
        seeded 0xE162582D6A382C90 ∧
      sampler.sample 0 (seeded 3) = (.error (.badBound 0), seeded 3) ∧
      Counter.advance (2 ^ 64 + 2) 3 = Counter.advance 2 3 := by
  have hnonneg : (0 : Int) ≤ 3 := by decide
  obtain ⟨s, hs, hrequests, hrefused, -, hcycle, -⟩ := seeded_cycle hnonneg (by decide)
  obtain rfl : 3 = s := by
    injection hs with hs
    injection hs
  refine ⟨?_, (hrefused 0 3 [] (by decide)).1, (hcycle _ _).2 (by decide)⟩
  obtain ⟨visited, hafter, htraced, -⟩ :=
    hrequests [.sample 0x8000000000000001, .sample 0, .word]
  have hrun : [Request.sample 0x8000000000000001, .sample 0, .word].foldl
      (Request.after Counter.words.traced Counter.tracedSampler) (3, []) =
        (0xE162582D6A382C90, [0xA0761D6478BD6432, 0x40EC3AC8F17AC861, 0xE162582D6A382C90]) := by
    decide +kernel
  rw [hrun] at htraced
  obtain ⟨hstate, -⟩ := Prod.mk.inj htraced
  rw [hafter, ← hstate]

end DiceNotation
