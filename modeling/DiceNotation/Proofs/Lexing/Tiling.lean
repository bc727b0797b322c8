import DiceNotation.Proofs.Lexing.Spans

/-!
# Spans tile a text

The spans that a text is cut into lose no character and share none (`Tiles`). Before the next span from a
position on there are only blanks, and what the span covers is punctuation, or digits or junk up to the
first character that is neither. That a run of digits or junk does not begin earlier is no matter of one
span: reading goes on at positions at which no such run goes on (`IsCut`), and each span hands this on to
the next one by where it ends. So the spans of a text are its characters of punctuation and its maximal
runs of digits and of junk (`spansFrom_tiling`).
-/

namespace DiceNotation

open Text (isBlank)

variable {cs : List Char} {p q : Char → Bool}

/-! ## Runs of characters -/

/-- The characters from `start` on belong to a class up to `stop`, where they no longer do. -/
structure IsRun (p : Char → Bool) (cs : List Char) (start stop : Nat) : Prop where
  /-- There is a character. -/
  lt : start < stop
  /-- Each of them belongs to the class. -/
  inside : ∀ k, start ≤ k → k < stop → ∃ c, cs[k]? = some c ∧ p c = true
  /-- The one behind them does not. -/
  behind : ∀ c, cs[stop]? = some c → p c = false

/-- A run that does not begin earlier either: no run of the class is longer and contains it. -/
structure IsMaximalRun (p : Char → Bool) (cs : List Char) (start stop : Nat) : Prop
    extends IsRun p cs start stop where
  /-- The one before them does not. -/
  before : ∀ k c, k + 1 = start → cs[k]? = some c → p c = false

/-- No run of a class goes on over a position: the characters on its two sides do not both belong to
it. -/
def IsCut (p : Char → Bool) (cs : List Char) (pos : Nat) : Prop :=
  ∀ k c d, k + 1 = pos → cs[k]? = some c → cs[pos]? = some d → p c = true → p d = false

/-- At its start a text goes on from nothing. -/
theorem isCut_zero (p : Char → Bool) (cs : List Char) : IsCut p cs 0 :=
  fun k _ _ hk => absurd hk (Nat.succ_ne_zero k)

section

variable {i j i' j' k : Nat}

/-- The characters at a place with a given text make a run when the text behind them does not go on with
the class. -/
theorem isRun_of_drop_eq {xs ys : List Char} (h : cs.drop i = xs ++ ys) (hne : xs ≠ [])
    (hxs : ∀ c ∈ xs, p c = true) (hys : ∀ c ∈ ys.head?, p c = false) :
    IsRun p cs i (i + xs.length) where
  lt := Nat.lt_add_of_pos_right (List.length_pos_iff.2 hne)
  inside k hik hk := by
    obtain ⟨m, rfl⟩ := Nat.exists_eq_add_of_le hik
    have hm : m < xs.length := Nat.lt_of_add_lt_add_left hk
    refine ⟨xs[m], ?_, hxs _ (List.getElem_mem hm)⟩
    rw [← List.getElem?_drop, h, List.getElem?_append_left hm, List.getElem?_eq_getElem hm]
  behind c hc := by
    rw [← List.getElem?_drop, h, List.getElem?_append_right (Nat.le_refl _), Nat.sub_self,
      ← List.head?_eq_getElem?] at hc
    exact hys c hc

/-- A run is over where it stops. -/
theorem IsRun.isCut (h : IsRun p cs i j) : IsCut p cs j :=
  fun _ _ d _ _ hd _ => h.behind d hd

/-- A run ends no run of another class, since its last character is not of that class. -/
theorem IsRun.isCut_of_disjoint (h : IsRun p cs i j) (hpq : ∀ c, p c = true → q c = false) :
    IsCut q cs j := by
  intro k c d hk hc _ hqc
  have hlt := h.lt
  obtain ⟨c', hc', hp⟩ := h.inside k (by omega) (by omega)
  obtain rfl : c' = c := Option.some.inj (hc'.symm.trans hc)
  rw [hpq c' hp] at hqc
  cases hqc

/-- A run behind nothing but blanks, which begin where no run goes on, is maximal. -/
theorem IsRun.isMaximalRun {pos : Nat} (h : IsRun p cs i j) (hp : ∀ c, isBlank c = true → p c = false)
    (hcut : IsCut p cs pos) (hle : pos ≤ i)
    (hblank : ∀ k c, pos ≤ k → k < i → cs[k]? = some c → isBlank c = true) :
    IsMaximalRun p cs i j where
  toIsRun := h
  before k c hk hc := by
    rcases Nat.eq_or_lt_of_le hle with rfl | hlt
    · -- Nothing is between the cut and the run, which begins with a character of the class.
      obtain ⟨d, hd, hpd⟩ := h.inside pos (Nat.le_refl pos) h.lt
      rw [← Bool.not_eq_true]
      intro hpc
      rw [hcut k c d hk hc hd hpc] at hpd
      cases hpd
    · exact hp c (hblank k c (by omega) (by omega) hc)

/-- A maximal run begins no later than a run with which it shares a character. -/
theorem IsMaximalRun.start_le (h : IsMaximalRun p cs i j) (h' : IsRun p cs i' j') (hk : i ≤ k)
    (hk' : k < j') : i ≤ i' := by
  by_contra hlt
  obtain ⟨c, hc, hp⟩ := h'.inside (i - 1) (by omega) (by omega)
  rw [h.before (i - 1) c (by omega) hc] at hp
  cases hp

/-- A run stops no later than one with which it shares a character. -/
theorem IsRun.stop_le (h : IsRun p cs i j) (h' : IsRun p cs i' j') (hk : i ≤ k) (hk' : k < j') :
    j ≤ j' := by
  by_contra hlt
  obtain ⟨c, hc, hp⟩ := h.inside j' (by omega) (by omega)
  rw [h'.behind c hc] at hp
  cases hp

/-- Maximal runs that share a character are the same. -/
theorem IsMaximalRun.unique (h : IsMaximalRun p cs i j) (h' : IsMaximalRun p cs i' j') (hik : i ≤ k)
    (hkj : k < j) (hik' : i' ≤ k) (hkj' : k < j') : i = i' ∧ j = j' :=
  ⟨Nat.le_antisymm (h.start_le h'.toIsRun hik hkj') (h'.start_le h.toIsRun hik' hkj),
    Nat.le_antisymm (h.stop_le h'.toIsRun hik hkj') (h'.stop_le h.toIsRun hik' hkj)⟩

end

/-! ## Classes of characters -/

/-- Punctuation is a token of its own kind. -/
theorem Token.ne_of_ofPunctuation? {c : Char} {t : Token} (h : Token.ofPunctuation? c = some t) :
    t ≠ .number ∧ t ≠ .junk ∧ t ≠ .finish := by
  unfold Token.ofPunctuation? at h
  split at h <;> cases h <;> decide

/-- Junk is no digit. -/
theorem not_isDigit_of_isJunk {c : Char} (h : isJunk c = true) : isDigit c = false := by
  rw [← Bool.not_eq_true]
  intro hd
  rw [not_isJunk_of_isDigit hd] at h
  cases h

/-- The kind of lexeme that a character is part of. A blank is part of none. -/
def Token.ofChar? (c : Char) : Option Token :=
  if isBlank c then none
  else some ((Token.ofPunctuation? c).getD (if isDigit c then .number else .junk))

namespace Token

variable {c : Char}

/-- Blanks, and only they, are part of no lexeme. -/
theorem ofChar?_eq_none_iff : ofChar? c = none ↔ isBlank c = true := by
  simp [ofChar?]

/-- Punctuation is part of its own token. -/
theorem ofChar?_of_punctuation {t : Token} (h : ofPunctuation? c = some t) : ofChar? c = some t := by
  rw [ofChar?, not_isBlank_of_ofPunctuation? h, h]
  rfl

/-- What belongs to a run is no punctuation, at which runs end. -/
theorem ofPunctuation?_eq_none (h : ¬ IsBreak c) : ofPunctuation? c = none :=
  Option.eq_none_iff_forall_ne_some.2 fun _ hp => h (isBreak_of_ofPunctuation? hp)

/-- A digit is part of a number. -/
theorem ofChar?_of_isDigit (h : isDigit c = true) : ofChar? c = some .number := by
  have hbreak : ¬ IsBreak c := fun hb => by
    rw [hb.not_digit] at h
    cases h
  rw [ofChar?, not_isBlank_of_isDigit h, ofPunctuation?_eq_none hbreak, h]
  rfl

/-- A character of junk is part of junk. -/
theorem ofChar?_of_isJunk (h : isJunk c = true) : ofChar? c = some .junk := by
  have hbreak : ¬ IsBreak c := fun hb => by
    rw [hb.not_junk] at h
    cases h
  have hblank : isBlank c = false :=
    Bool.eq_false_iff.2 fun hb => hbreak (isBreak_of_isBlank hb)
  rw [ofChar?, hblank, ofPunctuation?_eq_none hbreak, not_isDigit_of_isJunk h]
  rfl

end Token

/-- A number goes on as far as there are digits, and junk as far as there is junk. -/
theorem Lexeme.ends_of_first? {rest : List Char} {l : Lexeme} (h : first? cs = some (l, rest)) {c : Char}
    (hc : c ∈ rest.head?) :
    (l.token = .number → isDigit c = false) ∧ (l.token = .junk → isJunk c = false) := by
  unfold first? at h
  split at h
  · cases h
  · next d ds =>
    have hends : ∀ p : Char → Bool, c ∈ (ds.dropWhile p).head? → p c = false := by
      intro p hp
      have hhead := List.head?_dropWhile_not p ds
      rw [Option.mem_def.1 hp] at hhead
      simpa using hhead
    split at h
    · next t hp =>
      cases h
      obtain ⟨hnumber, hjunk, -⟩ := Token.ne_of_ofPunctuation? hp
      exact ⟨fun ht => absurd ht hnumber, fun ht => absurd ht hjunk⟩
    · split at h
      · cases h
        exact ⟨fun _ => hends isDigit hc, fun ht => Token.noConfusion ht⟩
      · cases h
        exact ⟨fun ht => Token.noConfusion ht, fun _ => hends isJunk hc⟩

/-! ## Spans that stand in a text -/

/-- A span covers the positions of its characters. -/
def Span.Covers (s : Span) (k : Nat) : Prop :=
  s.start ≤ k ∧ k < s.stop

/-- A span as a text can have it: punctuation, or a maximal run of digits or of junk. -/
inductive Span.Stands (cs : List Char) : Span → Prop
  /-- A mark of punctuation is one by itself. -/
  | punctuation {k : Nat} {c : Char} {t : Token} (char : cs[k]? = some c)
      (token : Token.ofPunctuation? c = some t) : Stands cs ⟨t, k, k + 1⟩
  /-- A number is a maximal run of digits. -/
  | number {i j : Nat} (run : IsMaximalRun isDigit cs i j) : Stands cs ⟨.number, i, j⟩
  /-- Junk is a maximal run of it. -/
  | junk {i j : Nat} (run : IsMaximalRun isJunk cs i j) : Stands cs ⟨.junk, i, j⟩

namespace Span.Stands

variable {s s' : Span}

/-- A span is not empty. -/
theorem lt (h : s.Stands cs) : s.start < s.stop := by
  cases h with
  | punctuation char token => exact Nat.lt_succ_self _
  | number run => exact run.lt
  | junk run => exact run.lt

/-- Only the end of the text is named so. -/
theorem token_ne_finish (h : s.Stands cs) : s.token ≠ .finish := by
  cases h with
  | punctuation char token => exact (Token.ne_of_ofPunctuation? token).2.2
  | number run => exact Token.noConfusion
  | junk run => exact Token.noConfusion

/-- What a span covers is of its kind. -/
theorem exists_char (h : s.Stands cs) {k : Nat} (hk : s.Covers k) :
    ∃ c, cs[k]? = some c ∧ Token.ofChar? c = some s.token := by
  obtain ⟨hstart, hstop⟩ := hk
  cases h with
  | @punctuation k' c t char token =>
    obtain rfl : k' = k := Nat.le_antisymm hstart (Nat.le_of_lt_succ hstop)
    exact ⟨c, char, Token.ofChar?_of_punctuation token⟩
  | number run =>
    obtain ⟨c, hc, hdigit⟩ := run.inside k hstart hstop
    exact ⟨c, hc, Token.ofChar?_of_isDigit hdigit⟩
  | junk run =>
    obtain ⟨c, hc, hjunk⟩ := run.inside k hstart hstop
    exact ⟨c, hc, Token.ofChar?_of_isJunk hjunk⟩

/-- Spans that cover a position together are the same. -/
theorem eq_of_covers (h : s.Stands cs) (h' : s'.Stands cs) {k : Nat} (hk : s.Covers k)
    (hk' : s'.Covers k) : s = s' := by
  obtain ⟨c, hc, hkind⟩ := h.exists_char hk
  obtain ⟨c', hc', hkind'⟩ := h'.exists_char hk'
  obtain rfl : c = c' := Option.some.inj (hc.symm.trans hc')
  -- The character that they share tells the kind of both, so they are of one kind.
  have htoken : s.token = s'.token := Option.some.inj (hkind.symm.trans hkind')
  obtain ⟨hstart, hstop⟩ := hk
  obtain ⟨hstart', hstop'⟩ := hk'
  cases h with
  | punctuation char token =>
    cases h' with
    | punctuation char' token' =>
      dsimp only at hstart hstop hstart' hstop' htoken
      obtain rfl := htoken
      congr 1 <;> omega
    | number run' => exact absurd htoken (Token.ne_of_ofPunctuation? token).1
    | junk run' => exact absurd htoken (Token.ne_of_ofPunctuation? token).2.1
  | number run =>
    cases h' with
    | punctuation char' token' => exact absurd htoken.symm (Token.ne_of_ofPunctuation? token').1
    | number run' =>
      obtain ⟨rfl, rfl⟩ := run.unique run' hstart hstop hstart' hstop'
      rfl
    | junk run' => cases htoken
  | junk run =>
    cases h' with
    | punctuation char' token' => exact absurd htoken.symm (Token.ne_of_ofPunctuation? token').2.1
    | number run' => cases htoken
    | junk run' =>
      obtain ⟨rfl, rfl⟩ := run.unique run' hstart hstop hstart' hstop'
      rfl

/-- Where a span stops, no run of digits and no run of junk goes on. -/
theorem isCut (h : s.Stands cs) : IsCut isDigit cs s.stop ∧ IsCut isJunk cs s.stop := by
  cases h with
  | @punctuation k c t char token =>
    have hbreak := isBreak_of_ofPunctuation? token
    have hlast : ∀ k' c', k' + 1 = k + 1 → cs[k']? = some c' → c' = c := by
      intro k' c' hk' hc'
      obtain rfl := Nat.succ.inj hk'
      exact Option.some.inj (hc'.symm.trans char)
    refine ⟨fun k' c' d hk' hc' _ hd => ?_, fun k' c' d hk' hc' _ hj => ?_⟩
    · rw [hlast k' c' hk' hc', hbreak.not_digit] at hd
      cases hd
    · rw [hlast k' c' hk' hc', hbreak.not_junk] at hj
      cases hj
  | number run =>
    exact ⟨run.toIsRun.isCut, run.toIsRun.isCut_of_disjoint fun _ => not_isJunk_of_isDigit⟩
  | junk run =>
    exact ⟨run.toIsRun.isCut_of_disjoint fun _ => not_isDigit_of_isJunk, run.toIsRun.isCut⟩

end Span.Stands

/-! ## The next span -/

section

variable {pos : Nat}

/-- The next span starts with what is left behind the blanks, which at the end of the text is
nothing. -/
theorem start_spanAt (cs : List Char) (pos : Nat) :
    (spanAt cs pos).start = cs.length - ((cs.drop pos).dropWhile isBlank).length := by
  rw [spanAt]
  dsimp only
  split
  · next hnone =>
    rw [List.dropWhile_eq_nil_iff.2 (Lexeme.read?_eq_none_iff.1 hnone)]
    rfl
  · rfl

/-- Before the next span there are only blanks. -/
theorem isBlank_of_lt_start {k : Nat} (hpos : pos ≤ k) (hk : k < (spanAt cs pos).start) {c : Char}
    (hc : cs[k]? = some c) : isBlank c = true := by
  obtain ⟨m, rfl⟩ := Nat.exists_eq_add_of_le hpos
  have hsplit := List.takeWhile_append_dropWhile (p := isBlank) (l := cs.drop pos)
  have hlength := congrArg List.length hsplit
  rw [List.length_append, List.length_drop] at hlength
  rw [start_spanAt] at hk
  have hm : m < ((cs.drop pos).takeWhile isBlank).length := by omega
  rw [← List.getElem?_drop, ← hsplit, List.getElem?_append_left hm] at hc
  exact List.mem_takeWhile_imp (List.mem_of_getElem? hc)

/-- The next span does not start before the position from which it is looked for. -/
theorem le_start_spanAt (hpos : pos ≤ cs.length) : pos ≤ (spanAt cs pos).start := by
  have hle : ((cs.drop pos).dropWhile isBlank).length ≤ (cs.drop pos).length :=
    (List.dropWhile_sublist _).length_le
  rw [List.length_drop] at hle
  rw [start_spanAt]
  omega

/-- From a cut on, the next span before the end stands in the text. -/
theorem stands_spanAt (hdigit : IsCut isDigit cs pos) (hjunk : IsCut isJunk cs pos)
    (h : (spanAt cs pos).token ≠ .finish) : (spanAt cs pos).Stands cs := by
  rcases hread : Lexeme.read? (cs.drop pos) with _ | ⟨l, rest⟩
  · exact absurd (spanAt_token_eq_finish_iff.2 hread) h
  · obtain ⟨start, hspan, hle, hdrop⟩ := spanAt_of_read? hread
    have hblank : ∀ k c, pos ≤ k → k < start → cs[k]? = some c → isBlank c = true := by
      intro k c hpos hk hc
      refine isBlank_of_lt_start hpos ?_ hc
      rw [hspan]
      exact hk
    rw [hspan]
    -- On the right a run ends where reading stopped. On the left it starts behind blanks, or at the
    -- position itself, which is a cut.
    cases Lexeme.genuine_of_read? hread with
    | @punctuation c t hp =>
      refine .punctuation ?_ hp
      have hhead := congrArg List.head? hdrop
      rw [List.head?_drop] at hhead
      exact hhead
    | number ne digits =>
      have hends : ∀ c ∈ rest.head?, isDigit c = false :=
        fun c hc => (Lexeme.ends_of_first? hread hc).1 rfl
      have hdigits : IsRun isDigit cs start _ := isRun_of_drop_eq hdrop ne digits hends
      exact .number (hdigits.isMaximalRun (fun c hc => (isBreak_of_isBlank hc).not_digit) hdigit hle
        hblank)
    | junk ne chars =>
      have hends : ∀ c ∈ rest.head?, isJunk c = false :=
        fun c hc => (Lexeme.ends_of_first? hread hc).2 rfl
      have hchars : IsRun isJunk cs start _ := isRun_of_drop_eq hdrop ne chars hends
      exact .junk (hchars.isMaximalRun (fun c hc => (isBreak_of_isBlank hc).not_junk) hjunk hle
        hblank)

end

/-! ## All spans -/

/-- Spans in a row tile a text from a position on: only blanks are before the first one and between
each and the next one, and the last one is the end of the text. -/
inductive Tiles (cs : List Char) : Nat → List Span → Prop
  /-- Behind the last lexeme there are only blanks, up to the end. -/
  | finish {pos : Nat} (le : pos ≤ cs.length)
      (blank : ∀ k c, pos ≤ k → cs[k]? = some c → isBlank c = true) :
      Tiles cs pos [⟨.finish, cs.length, cs.length⟩]
  /-- There are only blanks before a lexeme, and the others follow at its end. -/
  | next {pos : Nat} {s : Span} {ss : List Span} (le : pos ≤ s.start)
      (blank : ∀ k c, pos ≤ k → k < s.start → cs[k]? = some c → isBlank c = true)
      (stands : s.Stands cs) (rest : Tiles cs s.stop ss) : Tiles cs pos (s :: ss)

/-- From a cut on, the spans of a text tile it. -/
theorem tiles_spansFrom {pos : Nat} (hpos : pos ≤ cs.length) (hdigit : IsCut isDigit cs pos)
    (hjunk : IsCut isJunk cs pos) : Tiles cs pos (spansFrom cs pos) := by
  induction pos using spansFrom.induct cs with
  | case1 pos hfinish =>
    have hspan := spanAt_of_read?_eq_none (spanAt_token_eq_finish_iff.1 hfinish)
    rw [spansFrom, if_pos hfinish, hspan]
    refine .finish hpos fun k c hk hc => isBlank_of_lt_start hk ?_ hc
    rw [hspan]
    exact (List.getElem?_eq_some_iff.1 hc).1
  | case2 pos hfinish ih =>
    -- A span that stands in the text stops at a cut, from which the other spans go on.
    have hstands := stands_spanAt hdigit hjunk hfinish
    rw [spansFrom, if_neg hfinish]
    exact .next (le_start_spanAt hpos) (fun k c hk hlt hc => isBlank_of_lt_start hk hlt hc) hstands
      (ih (lt_stop_of_token_ne_finish hfinish).2 hstands.isCut.1 hstands.isCut.2)

namespace Tiles

variable {pos : Nat} {ss : List Span}

/-- The end of the text comes last, behind spans that stand in it. -/
theorem exists_eq_concat (h : Tiles cs pos ss) :
    ∃ body, ss = body ++ [⟨.finish, cs.length, cs.length⟩] ∧ ∀ s ∈ body, s.Stands cs := by
  induction h with
  | finish le blank => exact ⟨[], rfl, fun s hs => absurd hs List.not_mem_nil⟩
  | @next pos s ss le blank stands rest ih =>
    obtain ⟨body, rfl, hbody⟩ := ih
    exact ⟨s :: body, rfl, List.forall_mem_cons.2 ⟨stands, hbody⟩⟩

/-- No span starts before the position. -/
theorem le_start (h : Tiles cs pos ss) : ∀ s ∈ ss, pos ≤ s.start := by
  induction h with
  | finish le blank => exact List.forall_mem_singleton.2 le
  | @next pos s ss le blank stands rest ih =>
    have hstop : pos ≤ s.stop := Nat.le_trans le (Nat.le_of_lt stands.lt)
    exact List.forall_mem_cons.2 ⟨le, fun s' hs' => Nat.le_trans hstop (ih s' hs')⟩

/-- Each span stops before the later ones start. -/
theorem pairwise (h : Tiles cs pos ss) : ss.Pairwise fun s t => s.stop ≤ t.start := by
  induction h with
  | finish le blank => exact List.pairwise_singleton _ _
  | next le blank stands rest ih => exact List.pairwise_cons.2 ⟨rest.le_start, ih⟩

/-- What is not blank is covered. -/
theorem exists_covers (h : Tiles cs pos ss) {k : Nat} (hk : pos ≤ k) {c : Char} (hc : cs[k]? = some c)
    (hblank : isBlank c = false) : ∃ s ∈ ss, s.Covers k := by
  induction h with
  | finish le blank =>
    rw [blank k c hk hc] at hblank
    cases hblank
  | @next pos s ss le blank stands rest ih =>
    -- The character is before the first span, in it, or behind it.
    rcases Nat.lt_or_ge k s.start with hstart | hstart
    · rw [blank k c hk hstart hc] at hblank
      cases hblank
    · rcases Nat.lt_or_ge k s.stop with hstop | hstop
      · exact ⟨s, List.mem_cons_self, hstart, hstop⟩
      · obtain ⟨s', hs', hcovers⟩ := ih hstop
        exact ⟨s', List.mem_cons_of_mem _ hs', hcovers⟩

end Tiles

/-- The spans of a text tile it. -/
theorem tiles_spans (cs : List Char) : Tiles cs 0 (spansFrom cs 0) :=
  tiles_spansFrom (Nat.zero_le _) (isCut_zero _ _) (isCut_zero _ _)

/-- The spans of a text, besides its end, are those that stand in it. -/
theorem mem_spansFrom_iff {s : Span} :
    s ∈ spansFrom cs 0 ↔ s.Stands cs ∨ s = ⟨.finish, cs.length, cs.length⟩ := by
  obtain ⟨body, hbody, hstands⟩ := (tiles_spans cs).exists_eq_concat
  have hmem : ∀ {s}, s ∈ spansFrom cs 0 ↔ s ∈ body ∨ s = ⟨.finish, cs.length, cs.length⟩ := by
    intro s
    rw [hbody, List.mem_append, List.mem_singleton]
  rw [hmem]
  refine or_congr_left ⟨hstands s, fun h => ?_⟩
  -- Its first character is covered by a span of the text, which is the only one that covers it.
  have hfirst : s.Covers s.start := ⟨Nat.le_refl _, h.lt⟩
  obtain ⟨c, hc, hkind⟩ := h.exists_char hfirst
  have hblank : isBlank c = false := by
    rw [← Bool.not_eq_true, ← Token.ofChar?_eq_none_iff, hkind]
    exact Option.some_ne_none _
  obtain ⟨s', hs', hcovers⟩ := (tiles_spans cs).exists_covers (Nat.zero_le _) hc hblank
  rcases hmem.1 hs' with hs' | rfl
  · rw [h.eq_of_covers (hstands s' hs') hfirst hcovers]
    exact hs'
  · exact absurd hcovers.2 (Nat.not_lt.2 hcovers.1)

/-- The blanks are what no span of a text covers. -/
theorem isBlank_iff_forall_not_covers {k : Nat} {c : Char} (hc : cs[k]? = some c) :
    isBlank c = true ↔ ∀ s ∈ spansFrom cs 0, ¬ s.Covers k := by
  refine ⟨fun hblank s hs hcovers => ?_, fun hnone => ?_⟩
  · rcases mem_spansFrom_iff.1 hs with h | rfl
    · -- What a span covers is of some kind, which a blank is not.
      obtain ⟨c', hc', hkind⟩ := h.exists_char hcovers
      obtain rfl : c' = c := Option.some.inj (hc'.symm.trans hc)
      rw [Token.ofChar?_eq_none_iff.2 hblank] at hkind
      cases hkind
    · exact absurd hcovers.2 (Nat.not_lt.2 hcovers.1)
  · rw [← Bool.not_eq_false]
    intro hblank
    obtain ⟨s, hs, hcovers⟩ := (tiles_spans cs).exists_covers (Nat.zero_le k) hc hblank
    exact hnone s hs hcovers

/-- The numbers of a text are its maximal runs of digits. -/
theorem number_mem_spansFrom_iff {i j : Nat} :
    ⟨.number, i, j⟩ ∈ spansFrom cs 0 ↔ IsMaximalRun isDigit cs i j := by
  refine ⟨fun h => ?_, fun h => mem_spansFrom_iff.2 (.inl (.number h))⟩
  rcases mem_spansFrom_iff.1 h with h | h
  · cases h with
    | punctuation char token => exact absurd rfl (Token.ne_of_ofPunctuation? token).1
    | number run => exact run
  · cases h

/-- The junk of a text is in its maximal runs. -/
theorem junk_mem_spansFrom_iff {i j : Nat} :
    ⟨.junk, i, j⟩ ∈ spansFrom cs 0 ↔ IsMaximalRun isJunk cs i j := by
  refine ⟨fun h => ?_, fun h => mem_spansFrom_iff.2 (.inl (.junk h))⟩
  rcases mem_spansFrom_iff.1 h with h | h
  · cases h with
    | punctuation char token => exact absurd rfl (Token.ne_of_ofPunctuation? token).2.1
    | junk run => exact run
  · cases h

/-- The spans of a text, found one behind another from its start, end with the empty one at the end of the
text, and no other one is empty or named the end. They are in order and share no character, and the
characters outside of them are the blanks. Each character of punctuation is a span of its own, and the
other spans are the maximal runs of digits and the maximal runs of junk, which is what is neither blank
nor a digit nor punctuation. -/
theorem spansFrom_tiling (cs : List Char) :
    (∃ body, spansFrom cs 0 = body ++ [⟨.finish, cs.length, cs.length⟩] ∧
      ∀ s ∈ body, s.token ≠ .finish ∧ s.start < s.stop) ∧
    (spansFrom cs 0).Pairwise (fun s t => s.stop ≤ t.start) ∧
    (∀ k c, cs[k]? = some c → (isBlank c = true ↔ ∀ s ∈ spansFrom cs 0, ¬ s.Covers k)) ∧
    (∀ k c t, cs[k]? = some c → Token.ofPunctuation? c = some t →
      ⟨t, k, k + 1⟩ ∈ spansFrom cs 0) ∧
    (∀ i j, ⟨.number, i, j⟩ ∈ spansFrom cs 0 ↔ IsMaximalRun isDigit cs i j) ∧
    ∀ i j, ⟨.junk, i, j⟩ ∈ spansFrom cs 0 ↔ IsMaximalRun isJunk cs i j := by
  have htiles := tiles_spans cs
  obtain ⟨body, hbody, hstands⟩ := htiles.exists_eq_concat
  have hend : ∃ body, spansFrom cs 0 = body ++ [⟨.finish, cs.length, cs.length⟩] ∧
      ∀ s ∈ body, s.token ≠ .finish ∧ s.start < s.stop :=
    ⟨body, hbody, fun s hs => ⟨(hstands s hs).token_ne_finish, (hstands s hs).lt⟩⟩
  have hpunctuation : ∀ k c t, cs[k]? = some c → Token.ofPunctuation? c = some t →
      ⟨t, k, k + 1⟩ ∈ spansFrom cs 0 :=
    fun k c t hc ht => mem_spansFrom_iff.2 (.inl (.punctuation hc ht))
  exact ⟨hend, htiles.pairwise, fun k c hc => isBlank_iff_forall_not_covers hc, hpunctuation,
    fun i j => number_mem_spansFrom_iff, fun i j => junk_mem_spansFrom_iff⟩

/-- In ` 12d??` the digits, the letter between and the junk are spans, and the blank is in none. -/
theorem spansFrom_tiling_dice :
    (∀ s ∈ spansFrom [' ', '1', '2', 'd', '?', '?'] 0, ¬ s.Covers 0) ∧
      ⟨.number, 1, 3⟩ ∈ spansFrom [' ', '1', '2', 'd', '?', '?'] 0 ∧
      ⟨.dice, 3, 4⟩ ∈ spansFrom [' ', '1', '2', 'd', '?', '?'] 0 ∧
      IsMaximalRun isJunk [' ', '1', '2', 'd', '?', '?'] 4 6 := by
  obtain ⟨-, -, hblank, hpunctuation, hnumber, hjunk⟩ :=
    spansFrom_tiling [' ', '1', '2', 'd', '?', '?']
  have hdigits : IsMaximalRun isDigit [' ', '1', '2', 'd', '?', '?'] 1 3 := by
    refine ⟨⟨by decide, fun k hk hlt => ?_, fun c hc => ?_⟩, fun k c hk hc => ?_⟩
    · obtain rfl | rfl : k = 1 ∨ k = 2 := by omega
      · exact ⟨'1', rfl, rfl⟩
      · exact ⟨'2', rfl, rfl⟩
    · cases hc
      rfl
    · obtain rfl : k = 0 := by omega
      cases hc
      rfl
  have hspan : ⟨.junk, 4, 6⟩ ∈ spansFrom [' ', '1', '2', 'd', '?', '?'] 0 := by
    with_unfolding_all decide
  exact ⟨(hblank 0 ' ' rfl).1 rfl, (hnumber 1 3).2 hdigits, hpunctuation 3 'd' .dice rfl rfl,
    (hjunk 4 6).1 hspan⟩

end DiceNotation
