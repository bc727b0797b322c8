import DiceNotation.Token
import Mathlib.Data.Set.Card
import Mathlib.Tactic.Ring

/-!
# Parentheses in a sequence of tokens

What it means for two parentheses of a sequence of tokens to belong together, and for its runs of
opening parentheses to close in one piece and to nest no deeper than some bound. Nothing here knows of
a grammar: positions are counted in tokens, and two parentheses match when what stands between them is
balanced.

`height` counts the parentheses that are open behind some tokens. A match is the first return of the
height (`matches_iff`), so in a sequence that starts with a balanced part the matches are those of the
two parts (`matches_append_left`, `matches_append_right`). The properties of runs follow: of a sequence
of two balanced parts they hold when they hold of both, and of a balanced part in parentheses when they
hold of the part with one level more, or with none where the part is a pair of parentheses itself.
-/

namespace DiceNotation.Paren

/-! ## Matches and runs -/

/-- How many more parentheses open than close among tokens. -/
def height (ts : List Token) : Int :=
  ts.count .openParen - ts.count .closeParen

/-- Tokens with as many parentheses that close as open, and never more of them up to some position. -/
structure Balanced (ts : List Token) : Prop where
  /-- No beginning closes more than it opens. -/
  nonneg : ∀ k, 0 ≤ height (ts.take k)
  /-- All that is opened is closed. -/
  height_eq : height ts = 0

/-- The parenthesis that opens at position `i` is closed by the one at position `j`. -/
structure Matches (ts : List Token) (i j : Nat) : Prop where
  /-- A parenthesis opens at the first position. -/
  opens : ts[i]? = some .openParen
  /-- A parenthesis closes at the second one. -/
  closes : ts[j]? = some .closeParen
  /-- It closes behind where it opens. -/
  lt : i < j
  /-- What stands between the two is balanced. -/
  between : Balanced ((ts.take j).drop (i + 1))

/-- A run of opening parentheses starts at position `i`. -/
def StartsRun (ts : List Token) (i : Nat) : Prop :=
  ts[i]? = some .openParen ∧ ∀ j, j + 1 = i → ts[j]? ≠ some .openParen

/-- Each run of opening parentheses is closed by parentheses that stand side by side too: of two
neighbours that open, the second is closed right before the first. -/
def RunsClose (ts : List Token) : Prop :=
  ∀ i j j', Matches ts i j → Matches ts (i + 1) j' → j = j' + 1

/-- The runs, by their first positions, that are open around position `k`. -/
def enclosingRuns (ts : List Token) (k : Nat) : Set Nat :=
  {i | StartsRun ts i ∧ ∃ j, Matches ts i j ∧ i < k ∧ k < j}

/-- No run of opening parentheses stands inside `n` others or more. -/
def RunsNestBelow (n : Nat) (ts : List Token) : Prop :=
  ∀ k, StartsRun ts k → (enclosingRuns ts k).ncard < n

/-! ## Heights -/

/-- Without tokens nothing is open. -/
@[simp] theorem height_nil : height [] = 0 := rfl

/-- Heights of parts add up. -/
@[simp] theorem height_append (a b : List Token) : height (a ++ b) = height a + height b := by
  simp only [height, List.count_append, Nat.cast_add]
  ring

/-- A token changes the height by what it opens or closes. -/
@[simp] theorem height_cons (t : Token) (a : List Token) :
    height (t :: a) = height [t] + height a :=
  height_append [t] a

/-- A parenthesis that opens is one more. -/
@[simp] theorem height_open : height [.openParen] = 1 := rfl

/-- A parenthesis that closes is one less. -/
@[simp] theorem height_close : height [.closeParen] = -1 := rfl

/-- Tokens without parentheses change no height. -/
theorem height_of_notMem {ts : List Token} (ho : .openParen ∉ ts) (hc : .closeParen ∉ ts) :
    height ts = 0 := by
  rw [height, List.count_eq_zero.2 ho, List.count_eq_zero.2 hc]
  rfl

/-- A token that is no parenthesis changes no height. -/
theorem height_other {t : Token} (ho : t ≠ .openParen) (hc : t ≠ .closeParen) : height [t] = 0 :=
  height_of_notMem (List.mem_singleton.not.2 ho.symm) (List.mem_singleton.not.2 hc.symm)

/-- The height behind a token is the height before it and that of the token. -/
theorem height_take_succ {ts : List Token} {k : Nat} {t : Token} (h : ts[k]? = some t) :
    height (ts.take (k + 1)) = height (ts.take k) + height [t] := by
  rw [List.take_add_one, h, height_append]
  rfl

/-- Only a parenthesis that closes lowers the height. -/
theorem closes_of_height_lt {ts : List Token} {k : Nat} (hk : k < ts.length)
    (h : height (ts.take (k + 1)) < height (ts.take k)) : ts[k]? = some .closeParen := by
  obtain ⟨t, ht⟩ : ∃ t, ts[k]? = some t := ⟨ts.get ⟨k, hk⟩, List.getElem?_eq_getElem hk⟩
  have hstep := height_take_succ ht
  by_cases hc : t = .closeParen
  · rw [ht, hc]
  · exfalso
    by_cases ho : t = .openParen
    · rw [ho, height_open] at hstep
      omega
    · rw [height_other ho hc] at hstep
      omega

/-- The height of a stretch of tokens is the difference of the heights at its ends. -/
theorem height_stretch (ts : List Token) {i j : Nat} (h : i ≤ j) :
    height ((ts.take j).drop i) = height (ts.take j) - height (ts.take i) := by
  have hsplit := height_append ((ts.take j).take i) ((ts.take j).drop i)
  rw [List.take_append_drop, List.take_take, Nat.min_eq_left h] at hsplit
  omega

/-- A match is the first return to the height before its opening parenthesis. -/
theorem matches_iff {ts : List Token} {i j : Nat} :
    Matches ts i j ↔ ts[i]? = some .openParen ∧ ts[j]? = some .closeParen ∧ i < j ∧
      (∀ k, i < k → k ≤ j → height (ts.take i) < height (ts.take k)) ∧
      height (ts.take (j + 1)) = height (ts.take i) := by
  -- The heights within the stretch between the two positions, seen from its start.
  have hstretch : ∀ k, i + 1 ≤ k → k ≤ j → ((ts.take j).drop (i + 1)).take (k - (i + 1)) =
      (ts.take k).drop (i + 1) := by
    intro k hk hkj
    rw [List.take_drop, List.take_take]
    congr 2
    omega
  constructor
  · intro h
    have hi := height_take_succ h.opens
    have hj := height_take_succ h.closes
    rw [height_open] at hi
    rw [height_close] at hj
    have hle : i + 1 ≤ j := h.lt
    have hlevel := h.between.height_eq
    rw [height_stretch ts hle] at hlevel
    refine ⟨h.opens, h.closes, h.lt, ?_, by omega⟩
    intro k hik hkj
    have hle : i + 1 ≤ k := hik
    have hk := h.between.nonneg (k - (i + 1))
    rw [hstretch k hle hkj, height_stretch ts hle] at hk
    omega
  · rintro ⟨hopen, hclose, hlt, habove, hback⟩
    have hi := height_take_succ hopen
    have hj := height_take_succ hclose
    rw [height_open] at hi
    rw [height_close] at hj
    have hle : i + 1 ≤ j := hlt
    refine ⟨hopen, hclose, hlt, ?_, ?_⟩
    · intro m
      rcases Nat.le_total (i + 1 + m) j with hm | hm
      · have hk := hstretch (i + 1 + m) (by omega) hm
        rw [Nat.add_sub_cancel_left] at hk
        have hpos := habove (i + 1 + m) (by omega) hm
        rw [hk, height_stretch ts (by omega)]
        omega
      · have hlen : ((ts.take j).drop (i + 1)).length ≤ m := by
          rw [List.length_drop, List.length_take]
          omega
        have hpos := habove j hlt (le_refl j)
        rw [List.take_of_length_le hlen, height_stretch ts hle]
        omega
    · rw [height_stretch ts hle]
      omega

/-- A parenthesis is closed only once. -/
theorem Matches.unique {ts : List Token} {i j j' : Nat} (h : Matches ts i j)
    (h' : Matches ts i j') : j = j' := by
  obtain ⟨-, -, hij, habove, hback⟩ := matches_iff.1 h
  obtain ⟨-, -, hij', habove', hback'⟩ := matches_iff.1 h'
  rcases Nat.lt_trichotomy j j' with hlt | heq | hgt
  · have hpos := habove' (j + 1) (by omega) (by omega)
    omega
  · exact heq
  · have hpos := habove (j' + 1) (by omega) (by omega)
    omega

/-- A parenthesis behind which the height returns to what it was before it is closed: by the token at
which it returns first. -/
theorem exists_matches_of_height_le {ts : List Token} {i k : Nat} (hopen : ts[i]? = some .openParen)
    (hik : i < k) (hk : k ≤ ts.length) (hle : height (ts.take k) ≤ height (ts.take i)) :
    ∃ j, Matches ts i j := by
  have hfirst := height_take_succ hopen
  rw [height_open] at hfirst
  -- The least position behind which the height has returned.
  have hex : ∃ k, i < k ∧ height (ts.take k) ≤ height (ts.take i) := ⟨k, hik, hle⟩
  obtain ⟨hlt, hback⟩ := Nat.find_spec hex
  have hleast : ∀ m, m < Nat.find hex → i < m → height (ts.take i) < height (ts.take m) :=
    fun m hm him => not_le.1 fun hle => Nat.find_min hex hm ⟨him, hle⟩
  have hlast : Nat.find hex ≤ k := Nat.find_min' hex ⟨hik, hle⟩
  generalize Nat.find hex = m at hlt hback hleast hlast
  obtain ⟨j, rfl⟩ : ∃ j, m = j + 1 := ⟨m - 1, by omega⟩
  -- It is not behind the parenthesis itself, which has raised the height.
  have hij : i < j := by
    rcases Nat.lt_succ_iff_lt_or_eq.1 hlt with hij | rfl
    · exact hij
    · omega
  have habove := hleast j (Nat.lt_succ_self j) hij
  have hclose : ts[j]? = some .closeParen := closes_of_height_lt (by omega) (by omega)
  have hstep := height_take_succ hclose
  rw [height_close] at hstep
  refine ⟨j, matches_iff.2 ⟨hopen, hclose, hij, fun m him hmj => ?_, by omega⟩⟩
  exact hleast m (by omega) him

/-- A match stands within the tokens. -/
theorem Matches.lt_length {ts : List Token} {i j : Nat} (h : Matches ts i j) : j < ts.length :=
  (List.getElem?_eq_some_iff.1 h.closes).1

/-! ## Balanced tokens -/

/-- One balanced sequence behind another is balanced. -/
theorem Balanced.append {a b : List Token} (ha : Balanced a) (hb : Balanced b) :
    Balanced (a ++ b) := by
  refine ⟨fun k => ?_, ?_⟩
  · rw [List.take_append, height_append]
    exact Int.add_nonneg (ha.nonneg k) (hb.nonneg (k - a.length))
  · rw [height_append, ha.height_eq, hb.height_eq, Int.add_zero]

/-- Parentheses around a balanced sequence keep it balanced. -/
theorem Balanced.group {a : List Token} (ha : Balanced a) :
    Balanced (.openParen :: (a ++ [.closeParen])) := by
  refine ⟨fun k => ?_, ?_⟩
  · cases k with
    | zero => exact le_refl 0
    | succ k =>
      have hpos := ha.nonneg k
      have hlast : -1 ≤ height ([Token.closeParen].take (k - a.length)) := by
        cases k - a.length with
        | zero => decide
        | succ m => rw [List.take_succ_cons, List.take_nil]; decide
      rw [List.take_succ_cons, List.take_append, height_cons, height_append, height_open]
      omega
  · rw [height_cons, height_append, ha.height_eq, height_open, height_close]
    rfl

/-- Tokens without parentheses are balanced. -/
theorem balanced_of_notMem {ts : List Token} (ho : .openParen ∉ ts) (hc : .closeParen ∉ ts) :
    Balanced ts := by
  refine ⟨fun k => ?_, height_of_notMem ho hc⟩
  have hk : height (ts.take k) = 0 :=
    height_of_notMem (fun h => ho (List.mem_of_mem_take h)) fun h => hc (List.mem_of_mem_take h)
  exact hk.ge

/-- A token that is no parenthesis is balanced. -/
theorem balanced_other {t : Token} (ho : t ≠ .openParen) (hc : t ≠ .closeParen) :
    Balanced [t] :=
  balanced_of_notMem (List.mem_singleton.not.2 ho.symm) (List.mem_singleton.not.2 hc.symm)

/-- A balanced sequence does not end with a parenthesis that opens. -/
theorem Balanced.getElem?_last_ne {a : List Token} (ha : Balanced a) {i : Nat}
    (hi : i + 1 = a.length) : a[i]? ≠ some .openParen := by
  intro h
  have hlast := height_take_succ h
  have hpos := ha.nonneg i
  rw [List.take_of_length_le (Nat.le_of_eq hi.symm), ha.height_eq, height_open] at hlast
  omega

/-- In a balanced sequence, a parenthesis at the start is closed, since the height is zero again at the
end. -/
theorem Balanced.exists_matches {a : List Token} (ha : Balanced a)
    (hopen : a[0]? = some .openParen) : ∃ j, Matches a 0 j := by
  have hlen : 0 < a.length := (List.getElem?_eq_some_iff.1 hopen).1
  refine exists_matches_of_height_le hopen hlen (le_refl _) ?_
  rw [List.take_length, List.take_zero, ha.height_eq, height_nil]

/-! ## Matches in parts -/

/-- Behind the first part of a sequence stand the tokens of the second part. -/
theorem getElem?_length_add (a b : List Token) (k : Nat) : (a ++ b)[a.length + k]? = b[k]? := by
  rw [List.getElem?_append_right (Nat.le_add_right _ _), Nat.add_sub_cancel_left]

/-- In a sequence that starts with a balanced part, the matches of that part stay within it. -/
theorem matches_append_left {a b : List Token} (ha : Balanced a) {i j : Nat}
    (hi : i < a.length) : Matches (a ++ b) i j ↔ Matches a i j := by
  have htake : ∀ k, k ≤ a.length → (a ++ b).take k = a.take k :=
    fun k hk => List.take_append_of_le_length hk
  constructor
  · intro h
    obtain ⟨hopen, hclose, hlt, habove, hback⟩ := matches_iff.1 h
    -- Between the two parentheses the height stays above where it was, and at the end of the balanced
    -- part it is zero, so the match cannot reach beyond that end.
    have hj : j < a.length := by
      by_contra hge
      have hpos := habove a.length hi (Nat.not_lt.1 hge)
      rw [htake i (Nat.le_of_lt hi), htake a.length (le_refl _), List.take_length,
        ha.height_eq] at hpos
      exact absurd (ha.nonneg i) (not_le.2 hpos)
    rw [List.getElem?_append_left hi] at hopen
    rw [List.getElem?_append_left hj] at hclose
    rw [htake (j + 1) hj, htake i (Nat.le_of_lt hi)] at hback
    refine matches_iff.2 ⟨hopen, hclose, hlt, ?_, hback⟩
    intro k hik hkj
    have hpos := habove k hik hkj
    rwa [htake i (Nat.le_of_lt hi), htake k (by omega)] at hpos
  · intro h
    obtain ⟨hopen, hclose, hlt, habove, hback⟩ := matches_iff.1 h
    have hj := h.lt_length
    refine matches_iff.2 ⟨?_, ?_, hlt, ?_, ?_⟩
    · rwa [List.getElem?_append_left hi]
    · rwa [List.getElem?_append_left hj]
    · intro k hik hkj
      rw [htake i (Nat.le_of_lt hi), htake k (by omega)]
      exact habove k hik hkj
    · rwa [htake (j + 1) hj, htake i (Nat.le_of_lt hi)]

/-- The matches behind the first part of a sequence are those of the second part. -/
theorem matches_append_right {a b : List Token} {i j : Nat} :
    Matches (a ++ b) (a.length + i) (a.length + j) ↔ Matches b i j := by
  have hheight : ∀ k, height ((a ++ b).take (a.length + k)) = height a + height (b.take k) :=
    fun k => by rw [List.take_length_add_append, height_append]
  rw [matches_iff, matches_iff, getElem?_length_add, getElem?_length_add, Nat.add_assoc, hheight,
    hheight]
  refine and_congr_right fun _ => and_congr_right fun _ =>
    and_congr Nat.add_lt_add_iff_left (and_congr ?_ ?_)
  · constructor
    · intro h k hik hkj
      have hpos := h (a.length + k) (by omega) (by omega)
      rw [hheight] at hpos
      omega
    · intro h k hik hkj
      have hpos := h (k - a.length) (by omega) (by omega)
      have hk : k = a.length + (k - a.length) := by omega
      rw [hk, hheight]
      omega
  · constructor <;> intro h <;> omega

/-- A match that starts behind the first part of a sequence ends behind it. -/
theorem Matches.exists_right {a b : List Token} {i j : Nat} (h : Matches (a ++ b) (a.length + i) j) :
    ∃ j', j = a.length + j' ∧ Matches b i j' := by
  have hj : j = a.length + (j - a.length) := by have := h.lt; omega
  rw [hj] at h
  exact ⟨j - a.length, hj, matches_append_right.1 h⟩

/-- Parentheses around a balanced sequence match. -/
theorem matches_group {a : List Token} (ha : Balanced a) {j : Nat} :
    Matches (.openParen :: (a ++ [.closeParen])) 0 j ↔ j = a.length + 1 := by
  have hmatch : Matches (.openParen :: (a ++ [.closeParen])) 0 (a.length + 1) := by
    refine ⟨rfl, ?_, Nat.succ_pos _, ?_⟩
    · rw [List.getElem?_cons_succ, List.getElem?_append_right (le_refl _), Nat.sub_self]
      rfl
    · rw [List.take_succ_cons, List.take_left, List.drop_succ_cons, List.drop_zero]
      exact ha
  constructor
  · exact fun h => h.unique hmatch
  · rintro rfl
    exact hmatch

/-- Within parentheses around a balanced sequence, the matches are those of the sequence. -/
theorem matches_group_inner {a : List Token} (ha : Balanced a) {i j : Nat} (hi : i < a.length) :
    Matches (.openParen :: (a ++ [.closeParen])) (i + 1) (j + 1) ↔ Matches a i j := by
  rw [← matches_append_left ha hi (b := [.closeParen])]
  have h := matches_append_right (a := [.openParen]) (b := a ++ [.closeParen]) (i := i) (j := j)
  rwa [List.length_singleton, Nat.add_comm 1 i, Nat.add_comm 1 j] at h

/-! ## Runs that close in one piece -/

/-- Where no parenthesis opens, no run has to close. -/
theorem runsClose_other {t : Token} (h : t ≠ .openParen) : RunsClose [t] := by
  intro i j j' hm
  have hopen := hm.opens
  cases i with
  | zero => exact absurd (Option.some.inj hopen) h
  | succ i => simp at hopen

/-- Two balanced parts have to close their runs each. -/
theorem runsClose_append {a b : List Token} (ha : Balanced a) :
    RunsClose (a ++ b) ↔ RunsClose a ∧ RunsClose b := by
  constructor
  · intro h
    constructor
    · intro i j j' hm hm'
      have hj := hm.lt_length
      have hj' := hm'.lt_length
      have hlt := hm.lt
      have hlt' := hm'.lt
      exact h i j j' ((matches_append_left ha (by omega)).2 hm)
        ((matches_append_left ha (by omega)).2 hm')
    · intro i j j' hm hm'
      have heq := h (a.length + i) (a.length + j) (a.length + j')
        (matches_append_right.2 hm) (matches_append_right.2 hm')
      omega
  · rintro ⟨hca, hcb⟩ i j j' hm hm'
    -- Parentheses that match stand in the same part, and so do the two that open next to each other:
    -- the inner one opens before the outer one closes.
    rcases Nat.lt_or_ge i a.length with hi | hi
    · rw [matches_append_left ha hi] at hm
      have hj := hm.lt_length
      have hlt := hm.lt
      rw [matches_append_left ha (by omega)] at hm'
      exact hca i j j' hm hm'
    · obtain ⟨k, rfl⟩ := Nat.exists_eq_add_of_le hi
      rw [Nat.add_assoc] at hm'
      obtain ⟨m, rfl, hb⟩ := hm.exists_right
      obtain ⟨m', rfl, hb'⟩ := hm'.exists_right
      have heq := hcb k m m' hb hb'
      omega

/-- Parentheses around a balanced part continue the run that it starts with, if any, so that has to
be closed at its end. -/
theorem runsClose_group {a : List Token} (ha : Balanced a) :
    RunsClose (.openParen :: (a ++ [.closeParen])) ↔
      RunsClose a ∧ ∀ j, Matches a 0 j → j + 1 = a.length := by
  constructor
  · intro h
    constructor
    · intro i j j' hm hm'
      have hlt := hm.lt_length
      have hlt' := hm.lt
      have heq := h (i + 1) (j + 1) (j' + 1) ((matches_group_inner ha (by omega)).2 hm)
        ((matches_group_inner ha (by have := hm'.lt; have := hm'.lt_length; omega)).2 hm')
      omega
    · intro j hm
      have hlt := hm.lt_length
      have heq := h 0 (a.length + 1) (j + 1) ((matches_group ha).2 rfl)
        ((matches_group_inner ha (by omega)).2 hm)
      omega
  · rintro ⟨hca, hfirst⟩ i j j' hm hm'
    -- The inner one of the two parentheses stands within the part.
    have hi : i < a.length := by
      have hlen := hm'.lt_length
      have hlt := hm'.lt
      rw [List.length_cons, List.length_append, List.length_singleton] at hlen
      omega
    obtain ⟨m', rfl⟩ : ∃ m', j' = m' + 1 := ⟨j' - 1, by have := hm'.lt; omega⟩
    rw [matches_group_inner ha hi] at hm'
    cases i with
    | zero =>
      rw [matches_group ha] at hm
      have heq := hfirst m' hm'
      omega
    | succ i =>
      obtain ⟨m, rfl⟩ : ∃ m, j = m + 1 := ⟨j - 1, by have := hm.lt; omega⟩
      rw [matches_group_inner ha (by omega)] at hm
      have heq := hca i m m' hm hm'
      omega

/-! ## Runs around runs -/

/-- The first part of a sequence starts its runs where it does alone. -/
theorem startsRun_append_left {a b : List Token} {i : Nat} (hi : i < a.length) :
    StartsRun (a ++ b) i ↔ StartsRun a i := by
  rw [StartsRun, StartsRun, List.getElem?_append_left hi]
  refine and_congr_right fun _ => forall_congr' fun j => imp_congr_right fun hj => ?_
  rw [List.getElem?_append_left (by omega)]

/-- Behind a balanced part, a sequence starts its runs where it does alone. -/
theorem startsRun_append_right {a b : List Token} (ha : Balanced a) {i : Nat} :
    StartsRun (a ++ b) (a.length + i) ↔ StartsRun b i := by
  rw [StartsRun, StartsRun, getElem?_length_add]
  refine and_congr_right fun _ => ⟨fun h j hj => ?_, fun h j hj => ?_⟩
  · rw [← getElem?_length_add a b]
    exact h (a.length + j) (by omega)
  · rcases Nat.lt_or_ge j a.length with hlt | hge
    · -- A balanced part does not end with a parenthesis that opens, so no run goes on over its end.
      rw [List.getElem?_append_left hlt]
      exact ha.getElem?_last_ne (by omega)
    · obtain ⟨k, rfl⟩ := Nat.exists_eq_add_of_le hge
      rw [getElem?_length_add]
      exact h k (by omega)

/-- Within parentheses, a part starts its runs where it does alone, except for one at its start, which
begins with the parenthesis around it. -/
theorem startsRun_group_inner {a : List Token} {i : Nat} (hi : i < a.length) :
    StartsRun (.openParen :: (a ++ [.closeParen])) (i + 1) ↔ StartsRun a i ∧ i ≠ 0 := by
  rw [StartsRun, StartsRun, List.getElem?_cons_succ, List.getElem?_append_left hi]
  constructor
  · rintro ⟨hopen, hprev⟩
    have hne : i ≠ 0 := by
      rintro rfl
      exact hprev 0 rfl rfl
    refine ⟨⟨hopen, fun j hj => ?_⟩, hne⟩
    have h := hprev (j + 1) (by omega)
    rwa [List.getElem?_cons_succ, List.getElem?_append_left (by omega)] at h
  · rintro ⟨⟨hopen, hprev⟩, hne⟩
    refine ⟨hopen, fun j hj => ?_⟩
    obtain ⟨m, rfl⟩ : ∃ m, j = m + 1 := ⟨j - 1, by omega⟩
    rw [List.getElem?_cons_succ, List.getElem?_append_left (by omega)]
    exact hprev m (by omega)

/-- Only finitely many runs are open somewhere. -/
theorem finite_enclosingRuns (ts : List Token) (k : Nat) : (enclosingRuns ts k).Finite :=
  (Set.finite_lt_nat k).subset fun _ hi => hi.2.choose_spec.2.1

/-- No run is open at the start. -/
@[simp] theorem enclosingRuns_zero (ts : List Token) : enclosingRuns ts 0 = ∅ := by
  rw [Set.eq_empty_iff_forall_notMem]
  rintro i ⟨-, j, -, hi, -⟩
  exact Nat.not_lt_zero i hi

/-- In a balanced first part, what follows it opens no runs. -/
theorem enclosingRuns_append_left {a b : List Token} (ha : Balanced a) {k : Nat}
    (hk : k < a.length) : enclosingRuns (a ++ b) k = enclosingRuns a k := by
  ext i
  constructor
  · rintro ⟨hs, j, hm, hik, hkj⟩
    have hi : i < a.length := by omega
    exact ⟨(startsRun_append_left hi).1 hs, j, (matches_append_left ha hi).1 hm, hik, hkj⟩
  · rintro ⟨hs, j, hm, hik, hkj⟩
    have hi : i < a.length := by omega
    exact ⟨(startsRun_append_left hi).2 hs, j, (matches_append_left ha hi).2 hm, hik, hkj⟩

/-- Behind a balanced part all of its runs are closed. -/
theorem enclosingRuns_append_right {a b : List Token} (ha : Balanced a) {k : Nat} :
    enclosingRuns (a ++ b) (a.length + k) = (a.length + ·) '' enclosingRuns b k := by
  ext i
  constructor
  · rintro ⟨hs, j, hm, hik, hkj⟩
    rcases Nat.lt_or_ge i a.length with hi | hi
    · have hj := ((matches_append_left ha hi).1 hm).lt_length
      omega
    · obtain ⟨m, rfl⟩ := Nat.exists_eq_add_of_le hi
      obtain ⟨j', rfl, hb⟩ := hm.exists_right
      exact ⟨m, ⟨(startsRun_append_right ha).1 hs, j', hb, by omega, by omega⟩, rfl⟩
  · rintro ⟨m, ⟨hs, j, hm, hmk, hkj⟩, rfl⟩
    exact ⟨(startsRun_append_right ha).2 hs, a.length + j, matches_append_right.2 hm,
      Nat.add_lt_add_left hmk _, Nat.add_lt_add_left hkj _⟩

/-- Parentheses around a balanced part open one run, which takes the place of the run at the start of
the part, if any. -/
theorem enclosingRuns_group {a : List Token} (ha : Balanced a) {k : Nat} (hk : k < a.length) :
    enclosingRuns (.openParen :: (a ++ [.closeParen])) (k + 1) =
      insert 0 ((· + 1) '' (enclosingRuns a k \ {0})) := by
  ext i
  constructor
  · rintro ⟨hs, j, hm, hik, hkj⟩
    cases i with
    | zero => exact Set.mem_insert _ _
    | succ i =>
      obtain ⟨m, rfl⟩ : ∃ m, j = m + 1 := ⟨j - 1, by omega⟩
      obtain ⟨hs', hne⟩ := (startsRun_group_inner (by omega)).1 hs
      rw [matches_group_inner ha (by omega)] at hm
      exact Set.mem_insert_of_mem _ ⟨i, ⟨⟨hs', m, hm, by omega, by omega⟩, hne⟩, rfl⟩
  · rintro (rfl | ⟨m, ⟨⟨hs, j, hm, hmk, hkj⟩, hne⟩, rfl⟩)
    · refine ⟨⟨rfl, fun j hj => absurd hj (Nat.succ_ne_zero j)⟩, a.length + 1,
        (matches_group ha).2 rfl, Nat.succ_pos k, Nat.succ_lt_succ hk⟩
    · exact ⟨(startsRun_group_inner (by omega)).2 ⟨hs, hne⟩, j + 1,
        (matches_group_inner ha (by omega)).2 hm, Nat.succ_lt_succ hmk, Nat.succ_lt_succ hkj⟩

/-- Where no parenthesis opens, no run is nested. -/
theorem runsNestBelow_of_notMem {ts : List Token} (h : .openParen ∉ ts) (n : Nat) : RunsNestBelow n ts :=
  fun _ hs => absurd (List.mem_of_getElem? hs.1) h

/-- A token that does not open one has no runs. -/
theorem runsNestBelow_other {t : Token} (h : t ≠ .openParen) (n : Nat) : RunsNestBelow n [t] :=
  runsNestBelow_of_notMem (List.mem_singleton.not.2 h.symm) n

/-- The runs of two balanced parts nest as they do in each part. -/
theorem runsNestBelow_append {a b : List Token} (ha : Balanced a) (n : Nat) :
    RunsNestBelow n (a ++ b) ↔ RunsNestBelow n a ∧ RunsNestBelow n b := by
  have hright : ∀ k, (enclosingRuns (a ++ b) (a.length + k)).ncard = (enclosingRuns b k).ncard := by
    intro k
    rw [enclosingRuns_append_right ha]
    exact Set.ncard_image_of_injective _ (add_right_injective a.length)
  constructor
  · intro h
    refine ⟨fun k hs => ?_, fun k hs => ?_⟩
    · have hk := (List.getElem?_eq_some_iff.1 hs.1).1
      have hlt := h k ((startsRun_append_left hk).2 hs)
      rwa [enclosingRuns_append_left ha hk] at hlt
    · have hlt := h (a.length + k) ((startsRun_append_right ha).2 hs)
      rwa [hright] at hlt
  · rintro ⟨hna, hnb⟩ k hs
    rcases Nat.lt_or_ge k a.length with hk | hk
    · rw [enclosingRuns_append_left ha hk]
      exact hna k ((startsRun_append_left hk).1 hs)
    · obtain ⟨m, rfl⟩ := Nat.exists_eq_add_of_le hk
      rw [hright]
      exact hnb m ((startsRun_append_right ha).1 hs)

/-- A run in parentheses starts at the first of them, or where it does within them. -/
theorem startsRun_group_cases {a : List Token} {k : Nat}
    (hs : StartsRun (.openParen :: (a ++ [.closeParen])) k) :
    k = 0 ∨ ∃ m, k = m + 1 ∧ m < a.length ∧ StartsRun a m ∧ m ≠ 0 := by
  cases k with
  | zero => exact .inl rfl
  | succ m =>
    have hm : m < a.length := by
      by_contra hge
      have hopen := hs.1
      rw [List.getElem?_cons_succ, List.getElem?_append_right (Nat.not_lt.1 hge)] at hopen
      cases hd : m - a.length with
      | zero => rw [hd] at hopen; cases hopen
      | succ d => rw [hd] at hopen; cases hopen
    exact .inr ⟨m, rfl, hm, (startsRun_group_inner hm).1 hs⟩

/-- The run that parentheses open counts for all that is within them, but not beside a run that it
begins. -/
theorem ncard_enclosingRuns_group {a : List Token} (ha : Balanced a) {k : Nat} (hk : k < a.length) :
    (enclosingRuns (.openParen :: (a ++ [.closeParen])) (k + 1)).ncard =
      (enclosingRuns a k \ {0}).ncard + 1 := by
  have hfin : ((· + 1) '' (enclosingRuns a k \ {0})).Finite :=
    ((finite_enclosingRuns a k).subset Set.sdiff_subset).image _
  have hzero : 0 ∉ (· + 1) '' (enclosingRuns a k \ {0}) := by
    rintro ⟨m, -, hm⟩
    exact Nat.succ_ne_zero m hm
  rw [enclosingRuns_group ha hk, Set.ncard_insert_of_notMem hzero hfin,
    Set.ncard_image_of_injective _ (add_left_injective 1)]

/-- Parentheses around a balanced part that starts with none nest its runs one deeper. -/
theorem runsNestBelow_group {a : List Token} (ha : Balanced a) (ho : a[0]? ≠ some .openParen)
    (n : Nat) : RunsNestBelow n (.openParen :: (a ++ [.closeParen])) ↔
      0 < n ∧ RunsNestBelow (n - 1) a := by
  -- No run starts at the first token of the part, so all around a position count.
  have hcard : ∀ k, k < a.length →
      (enclosingRuns (.openParen :: (a ++ [.closeParen])) (k + 1)).ncard =
        (enclosingRuns a k).ncard + 1 := by
    intro k hk
    rw [ncard_enclosingRuns_group ha hk, Set.sdiff_singleton_eq_self]
    exact fun h => ho h.1.1
  constructor
  · intro h
    have hpos := h 0 ⟨rfl, fun j hj => absurd hj (Nat.succ_ne_zero j)⟩
    rw [enclosingRuns_zero, Set.ncard_empty] at hpos
    refine ⟨hpos, fun k hs => ?_⟩
    have hk := (List.getElem?_eq_some_iff.1 hs.1).1
    have hne : k ≠ 0 := by
      rintro rfl
      exact ho hs.1
    have hlt := h (k + 1) ((startsRun_group_inner hk).2 ⟨hs, hne⟩)
    rw [hcard k hk] at hlt
    omega
  · rintro ⟨hpos, hna⟩ k hs
    rcases startsRun_group_cases hs with rfl | ⟨m, rfl, hm, hsm, -⟩
    · rw [enclosingRuns_zero, Set.ncard_empty]
      exact hpos
    · have hlt := hna m hsm
      rw [hcard m hm]
      omega

/-- Parentheses around a balanced part that is one pair of parentheses itself belong to its run. -/
theorem runsNestBelow_group_run {a : List Token} (ha : Balanced a) {j : Nat} (hm : Matches a 0 j)
    (hj : j + 1 = a.length) (n : Nat) :
    RunsNestBelow n (.openParen :: (a ++ [.closeParen])) ↔ RunsNestBelow n a := by
  have hstart : StartsRun a 0 := ⟨hm.opens, fun j hj => absurd hj (Nat.succ_ne_zero j)⟩
  -- The run at the first token of the part is around all others, so one is lost and one won.
  have hcard : ∀ k, k < a.length → StartsRun a k → k ≠ 0 →
      (enclosingRuns (.openParen :: (a ++ [.closeParen])) (k + 1)).ncard =
        (enclosingRuns a k).ncard := by
    intro k hk hs hne
    have hkj : k ≠ j := by
      rintro rfl
      have hopen := hs.1
      rw [hm.closes] at hopen
      cases hopen
    have hmem : 0 ∈ enclosingRuns a k := ⟨hstart, j, hm, Nat.pos_of_ne_zero hne, by omega⟩
    rw [ncard_enclosingRuns_group ha hk,
      Set.ncard_sdiff_singleton_add_one hmem (finite_enclosingRuns a k)]
  constructor
  · intro h k hs
    have hk := (List.getElem?_eq_some_iff.1 hs.1).1
    rcases Nat.eq_zero_or_pos k with rfl | hpos
    · have hlt := h 0 ⟨rfl, fun j hj => absurd hj (Nat.succ_ne_zero j)⟩
      rwa [enclosingRuns_zero] at hlt ⊢
    · have hlt := h (k + 1) ((startsRun_group_inner hk).2 ⟨hs, Nat.ne_of_gt hpos⟩)
      rwa [hcard k hk hs (Nat.ne_of_gt hpos)] at hlt
  · intro hna k hs
    rcases startsRun_group_cases hs with rfl | ⟨m, rfl, hlt, hsm, hne⟩
    · have hlt := hna 0 hstart
      rwa [enclosingRuns_zero] at hlt ⊢
    · rw [hcard m hlt hsm hne]
      exact hna m hsm

end DiceNotation.Paren
