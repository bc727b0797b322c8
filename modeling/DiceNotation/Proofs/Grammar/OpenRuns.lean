import DiceNotation.Proofs.Grammar.Parentheses

/-!
# Parentheses that are still open

Which parentheses of a sequence of tokens are not closed in it, and so which of its runs are open behind
it. The sequence is a beginning of something, so nothing says that it is balanced.

`OpenSizes ts ns` says that the runs that are open behind `ts` have, from the innermost one on, as many
open parentheses as the list `ns` says. It does so by heights and not by positions: each open run starts
at the height that the runs around it make. One lemma says for each kind of token what it does to the
sizes (`OpenSizes.other`, `.start`, `.more` and `.close`), and the number of open runs is that of their
sizes (`OpenSizes.ncard_eq`).
-/

namespace DiceNotation.Paren

/-- The parenthesis that opens at position `i` is closed by none. -/
def Unclosed (ts : List Token) (i : Nat) : Prop :=
  ts[i]? = some .openParen ∧ ∀ j, ¬ Matches ts i j

/-- The runs, by their first positions, that are open behind a sequence of tokens. -/
def openRuns (ts : List Token) : Set Nat :=
  {i | StartsRun ts i ∧ Unclosed ts i}

/-! ## Open parentheses by heights -/

/-- A parenthesis is not closed when the height never returns to what it was before it. -/
theorem unclosed_iff {ts : List Token} {i : Nat} :
    Unclosed ts i ↔ ts[i]? = some .openParen ∧
      ∀ k, i < k → k ≤ ts.length → height (ts.take i) < height (ts.take k) := by
  constructor
  · rintro ⟨hopen, hnone⟩
    refine ⟨hopen, fun k hik hk => not_le.1 fun hle => ?_⟩
    obtain ⟨j, hj⟩ := exists_matches_of_height_le hopen hik hk hle
    exact hnone j hj
  · rintro ⟨hopen, habove⟩
    refine ⟨hopen, fun j hj => ?_⟩
    have hlt := hj.lt_length
    obtain ⟨-, -, hij, -, hback⟩ := matches_iff.1 hj
    have hpos := habove (j + 1) (by omega) (by omega)
    omega

/-- One more token leaves a parenthesis open as long as the height stays above it. -/
theorem unclosed_append_singleton {ts : List Token} {t : Token} {i : Nat} (hi : i < ts.length) :
    Unclosed (ts ++ [t]) i ↔ Unclosed ts i ∧ height (ts.take i) < height (ts ++ [t]) := by
  have htake : ∀ k, k ≤ ts.length → (ts ++ [t]).take k = ts.take k :=
    fun k hk => List.take_append_of_le_length hk
  have hwhole : (ts ++ [t]).take (ts.length + 1) = ts ++ [t] :=
    List.take_of_length_le (by rw [List.length_append, List.length_singleton])
  rw [unclosed_iff, unclosed_iff, List.getElem?_append_left hi, and_assoc]
  refine and_congr_right fun _ => ⟨fun h => ⟨fun k hik hk => ?_, ?_⟩, fun h k hik hk => ?_⟩
  · have hlt := h k hik (by rw [List.length_append]; omega)
    rwa [htake i (Nat.le_of_lt hi), htake k hk] at hlt
  · have hlt := h (ts.length + 1) (by omega) (by rw [List.length_append, List.length_singleton])
    rwa [htake i (Nat.le_of_lt hi), hwhole] at hlt
  · rw [htake i (Nat.le_of_lt hi)]
    rcases Nat.lt_or_ge ts.length k with hlt | hle
    · -- Behind the new token stands nothing else.
      have hk' : k = ts.length + 1 := by
        rw [List.length_append, List.length_singleton] at hk
        omega
      rw [hk', hwhole]
      exact h.2
    · rw [htake k hle]
      exact h.1 k hik hle

/-- A parenthesis that opens at the end is open. -/
theorem unclosed_length (ts : List Token) : Unclosed (ts ++ [.openParen]) ts.length := by
  refine unclosed_iff.2 ⟨by rw [List.getElem?_append_right (le_refl _), Nat.sub_self]; rfl, ?_⟩
  intro k hik hk
  have hk' : k = ts.length + 1 := by
    rw [List.length_append, List.length_singleton] at hk
    omega
  have hwhole : (ts ++ [Token.openParen]).take (ts.length + 1) = ts ++ [.openParen] :=
    List.take_of_length_le (by rw [List.length_append, List.length_singleton])
  rw [hk', hwhole, List.take_left, height_append, height_open]
  omega

/-- A run starts at the end of tokens with the parenthesis that opens there, if none opens right
before it. -/
theorem startsRun_length {ts : List Token} {t : Token} :
    StartsRun (ts ++ [t]) ts.length ↔ t = .openParen ∧ ts.getLast? ≠ some .openParen := by
  have hend : (ts ++ [t])[ts.length]? = some t := by
    rw [List.getElem?_append_right (le_refl _), Nat.sub_self]
    rfl
  rw [StartsRun, hend, Option.some_inj, List.getLast?_eq_getElem?]
  refine and_congr_right fun _ => ⟨fun h hlast => ?_, fun h j hj => ?_⟩
  · have hlen := (List.getElem?_eq_some_iff.1 hlast).1
    refine h (ts.length - 1) (by omega) ?_
    rw [List.getElem?_append_left hlen]
    exact hlast
  · have hj' : j = ts.length - 1 := by omega
    rw [List.getElem?_append_left (by omega), hj']
    exact h

/-- The runs that are open behind one more token: those from before that the height stays above of, and
a new one where the token starts one. -/
theorem mem_openRuns_append_singleton {ts : List Token} {t : Token} {i : Nat} :
    i ∈ openRuns (ts ++ [t]) ↔
      (i ∈ openRuns ts ∧ height (ts.take i) < height (ts ++ [t])) ∨
      (i = ts.length ∧ t = .openParen ∧ ts.getLast? ≠ some .openParen) := by
  constructor
  · rintro ⟨hstart, hopen⟩
    have hlen := (List.getElem?_eq_some_iff.1 hopen.1).1
    rw [List.length_append, List.length_singleton] at hlen
    rcases Nat.lt_succ_iff_lt_or_eq.1 hlen with hlt | rfl
    · obtain ⟨hopen, hheight⟩ := (unclosed_append_singleton hlt).1 hopen
      exact .inl ⟨⟨(startsRun_append_left hlt).1 hstart, hopen⟩, hheight⟩
    · exact .inr ⟨rfl, startsRun_length.1 hstart⟩
  · rintro (⟨⟨hstart, hopen⟩, hheight⟩ | ⟨rfl, rfl, hlast⟩)
    · have hlt := (List.getElem?_eq_some_iff.1 hopen.1).1
      exact ⟨(startsRun_append_left hlt).2 hstart, (unclosed_append_singleton hlt).2 ⟨hopen, hheight⟩⟩
    · exact ⟨startsRun_length.2 ⟨rfl, hlast⟩, unclosed_length ts⟩

/-! ## Sizes of open runs -/

/-- The heights that runs of these sizes start at, which those around them make. -/
def bases : List Nat → List Int
  | [] => []
  | _ :: ns => (ns.sum : Int) :: bases ns

/-- The runs that are open behind `ts` have the sizes `ns`, the innermost one first. -/
structure OpenSizes (ts : List Token) (ns : List Nat) : Prop where
  /-- An open run has an open parenthesis. -/
  pos : ∀ n ∈ ns, 0 < n
  /-- No other parentheses are open. -/
  height_eq : height ts = ns.sum
  /-- The runs start at the heights that the sizes make. -/
  heights : ∀ b, (∃ i ∈ openRuns ts, height (ts.take i) = b) ↔ b ∈ bases ns

/-- A run starts below the height that it reaches. -/
theorem lt_of_mem_bases {ns : List Nat} (hpos : ∀ n ∈ ns, 0 < n) {b : Int} (h : b ∈ bases ns) :
    b < ns.sum := by
  induction ns with
  | nil => cases h
  | cons n ns ih =>
    have hn : 0 < n := hpos n List.mem_cons_self
    rw [List.sum_cons, Nat.cast_add]
    rcases List.mem_cons.1 h with rfl | h
    · omega
    · have hlt := ih (fun m hm => hpos m (List.mem_cons_of_mem _ hm)) h
      omega

/-- Runs around each other start at different heights. -/
theorem nodup_bases {ns : List Nat} (hpos : ∀ n ∈ ns, 0 < n) : (bases ns).Nodup := by
  induction ns with
  | nil => exact List.nodup_nil
  | cons n ns ih =>
    have hrest : ∀ m ∈ ns, 0 < m := fun m hm => hpos m (List.mem_cons_of_mem _ hm)
    exact List.nodup_cons.2 ⟨fun h => lt_irrefl _ (lt_of_mem_bases hrest h), ih hrest⟩

/-- There is a base for each run. -/
@[simp] theorem length_bases (ns : List Nat) : (bases ns).length = ns.length := by
  induction ns with
  | nil => rfl
  | cons n ns ih => rw [bases, List.length_cons, List.length_cons, ih]

/-- Open runs start at different heights. -/
theorem injOn_height_openRuns (ts : List Token) :
    Set.InjOn (fun i => height (ts.take i)) (openRuns ts) := by
  have hlt : ∀ i ∈ openRuns ts, ∀ j ∈ openRuns ts, i < j → height (ts.take i) < height (ts.take j) := by
    intro i hi j hj hij
    have hlen := (List.getElem?_eq_some_iff.1 hj.2.1).1
    exact (unclosed_iff.1 hi.2).2 j hij (Nat.le_of_lt hlen)
  intro i hi j hj heq
  have heq : height (ts.take i) = height (ts.take j) := heq
  rcases Nat.lt_trichotomy i j with hij | hij | hij
  · have h := hlt i hi j hj hij
    omega
  · exact hij
  · have h := hlt j hj i hi hij
    omega

namespace OpenSizes

variable {ts : List Token} {ns : List Nat}

/-- There are as many open runs as sizes. -/
theorem ncard_eq (h : OpenSizes ts ns) : (openRuns ts).ncard = ns.length := by
  have himage : (fun i => height (ts.take i)) '' openRuns ts = ((bases ns).toFinset : Set Int) := by
    ext b
    rw [List.coe_toFinset]
    exact h.heights b
  rw [← (injOn_height_openRuns ts).ncard_image, himage, Set.ncard_coe_finset,
    List.toFinset_card_of_nodup (nodup_bases h.pos), length_bases]

/-- At the start nothing is open. -/
theorem nil : OpenSizes [] [] := by
  refine ⟨fun n hn => absurd hn List.not_mem_nil, rfl, fun b => iff_of_false ?_ List.not_mem_nil⟩
  rintro ⟨i, hi, -⟩
  cases hi.1.1

/-- What holds of a height at an open run of `ts` can be said with one more token behind it. -/
theorem exists_append_singleton_iff {t : Token} {b : Int} :
    (∃ i ∈ openRuns (ts ++ [t]), height ((ts ++ [t]).take i) = b) ↔
      (∃ i ∈ openRuns ts, height (ts.take i) = b) ∧ b < height (ts ++ [t]) ∨
      b = height ts ∧ t = .openParen ∧ ts.getLast? ≠ some .openParen := by
  have htake : ∀ i ∈ openRuns ts, (ts ++ [t]).take i = ts.take i := fun i hi =>
    List.take_append_of_le_length (Nat.le_of_lt (List.getElem?_eq_some_iff.1 hi.2.1).1)
  constructor
  · rintro ⟨i, hi, rfl⟩
    rcases mem_openRuns_append_singleton.1 hi with ⟨hmem, hheight⟩ | ⟨rfl, hopen⟩
    · rw [htake i hmem]
      exact .inl ⟨⟨i, hmem, rfl⟩, hheight⟩
    · rw [List.take_left]
      exact .inr ⟨rfl, hopen⟩
  · rintro (⟨⟨i, hi, rfl⟩, hheight⟩ | ⟨rfl, hopen⟩)
    · exact ⟨i, mem_openRuns_append_singleton.2 (.inl ⟨hi, hheight⟩), by rw [htake i hi]⟩
    · exact ⟨ts.length, mem_openRuns_append_singleton.2 (.inr ⟨rfl, hopen⟩), by rw [List.take_left]⟩

/-- A token besides parentheses changes nothing. -/
theorem other (h : OpenSizes ts ns) {t : Token} (ho : t ≠ .openParen) (hc : t ≠ .closeParen) :
    OpenSizes (ts ++ [t]) ns := by
  have hheight : height (ts ++ [t]) = ns.sum := by
    rw [height_append, height_other ho hc, h.height_eq, Int.add_zero]
  refine ⟨h.pos, hheight, fun b => ?_⟩
  rw [exists_append_singleton_iff, h.heights, hheight]
  constructor
  · rintro (⟨hb, -⟩ | ⟨-, hopen, -⟩)
    · exact hb
    · exact absurd hopen ho
  · exact fun hb => .inl ⟨hb, lt_of_mem_bases h.pos hb⟩

/-- A parenthesis that opens behind another token starts a run. -/
theorem start (h : OpenSizes ts ns) (hlast : ts.getLast? ≠ some .openParen) :
    OpenSizes (ts ++ [.openParen]) (1 :: ns) := by
  have hheight : height (ts ++ [.openParen]) = ns.sum + 1 := by
    rw [height_append, height_open, h.height_eq]
  refine ⟨List.forall_mem_cons.2 ⟨Nat.one_pos, h.pos⟩, ?_, fun b => ?_⟩
  · rw [hheight, List.sum_cons, Nat.cast_add, Nat.cast_one]
    omega
  · rw [exists_append_singleton_iff, h.heights, hheight, h.height_eq, bases, List.mem_cons]
    constructor
    · rintro (⟨hb, -⟩ | ⟨hb, -⟩)
      · exact .inr hb
      · exact .inl hb
    · rintro (hb | hb)
      · exact .inr ⟨hb, rfl, hlast⟩
      · have hlt := lt_of_mem_bases h.pos hb
        exact .inl ⟨hb, by omega⟩

/-- A parenthesis that opens behind another one makes its run longer. -/
theorem more {n : Nat} (h : OpenSizes ts (n :: ns)) (hlast : ts.getLast? = some .openParen) :
    OpenSizes (ts ++ [.openParen]) ((n + 1) :: ns) := by
  have hheight : height (ts ++ [.openParen]) = (n :: ns).sum + 1 := by
    rw [height_append, height_open, h.height_eq]
  obtain ⟨-, hrest⟩ := List.forall_mem_cons.1 h.pos
  refine ⟨List.forall_mem_cons.2 ⟨Nat.succ_pos n, hrest⟩, ?_, fun b => ?_⟩
  · rw [hheight, List.sum_cons, List.sum_cons]
    omega
  · -- The run starts where it did.
    rw [exists_append_singleton_iff, h.heights, hheight]
    constructor
    · rintro (⟨hb, -⟩ | ⟨-, -, hne⟩)
      · exact hb
      · exact absurd hlast hne
    · intro hb
      have hlt := lt_of_mem_bases h.pos hb
      exact .inl ⟨hb, by omega⟩

/-- A parenthesis that closes takes one from the innermost run, which ends with its last one. -/
theorem close {n : Nat} (h : OpenSizes ts ((n + 1) :: ns)) :
    OpenSizes (ts ++ [.closeParen]) (if n = 0 then ns else n :: ns) := by
  have hheight : height (ts ++ [.closeParen]) = n + ns.sum := by
    rw [height_append, height_close, h.height_eq, List.sum_cons]
    omega
  obtain ⟨-, hrest⟩ := List.forall_mem_cons.1 h.pos
  -- What opens a run is not what closes one.
  have hbases : ∀ b, (∃ i ∈ openRuns (ts ++ [.closeParen]),
      height ((ts ++ [Token.closeParen]).take i) = b) ↔ b ∈ bases ((n + 1) :: ns) ∧ b < n + ns.sum := by
    intro b
    rw [exists_append_singleton_iff, h.heights, hheight]
    simp
  split
  · next hn =>
    refine ⟨hrest, ?_, fun b => ?_⟩
    · rw [hheight, hn]
      omega
    · rw [hbases, bases, List.mem_cons]
      constructor
      · rintro ⟨rfl | hb, hlt⟩
        · omega
        · exact hb
      · intro hb
        have hlt := lt_of_mem_bases hrest hb
        exact ⟨.inr hb, by omega⟩
  · next hn =>
    refine ⟨List.forall_mem_cons.2 ⟨Nat.pos_of_ne_zero hn, hrest⟩, ?_, fun b => ?_⟩
    · rw [hheight, List.sum_cons, Nat.cast_add]
    · rw [hbases, bases, bases]
      refine and_iff_left_of_imp fun hb => ?_
      rcases List.mem_cons.1 hb with rfl | hb
      · omega
      · have hlt := lt_of_mem_bases hrest hb
        omega

end OpenSizes

end DiceNotation.Paren
