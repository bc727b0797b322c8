import DiceNotation.Proofs.Grammar.Refusing

/-!
# The error of a text is that of its first offence

The refusal of the acceptor is the report of the first offence of the lexemes. As the acceptor knows of
the tokens behind it what the offences at the next lexeme are about, each kind of offence there is a
condition on its state, and the induction goes over what is left of the text, with no offence before it.

With the parsers' own errors, which are the refusals, this gives the error of each text that does not
compile (`compile_eq_error_iff_firstOffence`).
-/

namespace DiceNotation

open Paren Acceptor

/-! ## The kinds of lexemes in parts -/

/-- The kinds of lexemes in two parts. -/
theorem kinds_append (ls ls' : List Lexeme) :
    kinds (ls ++ ls') = ls.map Lexeme.token ++ kinds ls' := by
  rw [kinds, kinds, List.map_append, List.append_assoc]

/-- Before what is left of a text stand the kinds of the lexemes before it. -/
theorem take_kinds_append (ls ls' : List Lexeme) :
    (kinds (ls ++ ls')).take ls.length = ls.map Lexeme.token := by
  rw [kinds_append]
  exact List.take_left' (List.length_map _)

/-- What is left of a text starts with its first kind. -/
theorem getElem?_kinds_append (ls ls' : List Lexeme) :
    (kinds (ls ++ ls'))[ls.length]? = (kinds ls').head? := by
  have hlength : (ls.map Lexeme.token).length = ls.length := List.length_map _
  rw [kinds_append, List.getElem?_append_right (Nat.le_of_eq hlength), hlength, Nat.sub_self,
    List.head?_eq_getElem?]

/-- Up to the first kind of what is left of a text. -/
theorem take_succ_kinds_append (ls ls' : List Lexeme) {t : Token} (h : (kinds ls').head? = some t) :
    (kinds (ls ++ ls')).take (ls.length + 1) = ls.map Lexeme.token ++ [t] := by
  rw [List.take_add_one, take_kinds_append, getElem?_kinds_append, h]
  rfl

/-- The text of the first lexeme of what is left of a text. -/
theorem textAt_append (ls ls' : List Lexeme) :
    textAt (ls ++ ls') ls.length = (ls'.head?.map Lexeme.text).getD "" := by
  rw [textAt, List.getElem?_append_right (le_refl _), Nat.sub_self, List.head?_eq_getElem?]

/-- What is left of a text behind its first lexeme. -/
theorem drop_succ_append (ls ls' : List Lexeme) (l : Lexeme) :
    (ls ++ l :: ls').drop (ls.length + 1) = ls' := by
  rw [List.drop_append, List.drop_of_length_le (Nat.le_succ _), Nat.add_sub_cancel_left]
  rfl

/-! ## Offences where the acceptor stands -/

namespace Offence

variable {room : Nat} {q : Acceptor} {ls rest : List Lexeme} {l : Lexeme}

/-- A lexeme is junk. -/
theorem junk_at_iff : junk.At (ls ++ l :: rest) ls.length ↔ l.token = .junk := by
  rw [At, getElem?_kinds_append]
  exact Option.some_inj

/-- A lexeme is misplaced where the acceptor has no step. -/
theorem misplaced_at_iff (h : Passes room init (ls.map Lexeme.token) q) (hl : l.token ≠ .finish) :
    misplaced.At (ls ++ l :: rest) ls.length ↔ ∀ q', ¬ TokenStep q l.token q' := by
  have hle : ls.length ≤ (ls ++ l :: rest).length := by
    rw [List.length_append]
    exact Nat.le_add_right _ _
  rw [At, and_iff_right hle, take_succ_kinds_append (t := l.token) ls (l :: rest) rfl,
    h.viable_append_singleton_iff hl, not_exists]

/-- The end of a text is misplaced where the acceptor says that the text may not end. -/
theorem misplaced_at_end_iff (h : Passes room init (ls.map Lexeme.token) q) :
    misplaced.At ls ls.length ↔ ¬ q.MayEnd := by
  have htake := take_succ_kinds_append (t := .finish) ls [] rfl
  rw [List.append_nil] at htake
  rw [At, and_iff_right (le_refl _), htake, h.viable_finish_iff]

/-- Where the acceptor needs an operand, the text does. -/
theorem awaitsOperand_iff (h : Passes room init (ls.map Lexeme.token) q) :
    AwaitsOperand ((kinds (ls ++ rest)).take ls.length) ↔ q.phase.Awaits := by
  rw [take_kinds_append]
  exact h.describes.awaits.symm

/-- A lexeme is too large where an operand is needed. -/
theorem tooLarge_at_iff (h : Passes room init (ls.map Lexeme.token) q) :
    tooLarge.At (ls ++ l :: rest) ls.length ↔ l.TooLarge ∧ q.phase.Awaits := by
  have hget : (ls ++ l :: rest)[ls.length]? = some l := by
    rw [List.getElem?_append_right (le_refl _), Nat.sub_self]
    rfl
  rw [At, awaitsOperand_iff h, hget]
  constructor
  · rintro ⟨l', hl, hn, hp, hlt⟩
    cases hl
    exact ⟨⟨hn, hlt⟩, hp⟩
  · rintro ⟨⟨hn, hlt⟩, hp⟩
    exact ⟨l, rfl, hn, hp, hlt⟩

/-- A parenthesis is too deep where an operand is needed. -/
theorem tooDeep_at_iff (h : Passes room init (ls.map Lexeme.token) q) :
    tooDeep.At (ls ++ l :: rest) ls.length ↔ q.TooDeep l.token ∧ q.phase.Awaits := by
  have hlength : (ls.map Lexeme.token).length = ls.length := List.length_map _
  have hstart : StartsRun (kinds (ls ++ l :: rest)) ls.length ↔
      l.token = .openParen ∧ q.phase ≠ .opened := by
    have hsplit : kinds (ls ++ l :: rest) = (ls.map Lexeme.token ++ [l.token]) ++ kinds rest := by
      rw [kinds_append, List.append_assoc]
      rfl
    have hlt : ls.length < (ls.map Lexeme.token ++ [l.token]).length := by
      rw [List.length_append, hlength]
      exact Nat.lt_succ_self _
    rw [hsplit, startsRun_append_left hlt, ← hlength, startsRun_length, Ne, Ne, h.describes.opened]
  -- Where an operand is needed, no run is about to close, so the acceptor knows all that are open.
  have hruns : q.phase.Awaits → (openRuns (ls.map Lexeme.token)).ncard = q.runs.length := by
    intro hp
    have hsizes := h.describes.sizes
    rw [sizes_of_awaits hp] at hsizes
    rw [hsizes.ncard_eq, List.length_map]
  rw [At, hstart, awaitsOperand_iff h, take_kinds_append]
  constructor
  · rintro ⟨⟨ht, hopened⟩, hp, hle⟩
    rw [hruns hp] at hle
    exact ⟨⟨ht, hopened, hle⟩, hp⟩
  · rintro ⟨⟨ht, hopened, hle⟩, hp⟩
    refine ⟨⟨ht, hopened⟩, hp, ?_⟩
    rw [hruns hp]
    exact hle

/-- Behind the end of a text there is no offence. -/
theorem not_at_of_length_lt {i : Nat} (h : ls.length < i) (o : Offence) : ¬ o.At ls i := by
  have hkinds : (kinds ls)[i]? = none := by
    refine List.getElem?_eq_none ?_
    rw [kinds, List.length_append, List.length_map]
    exact h
  cases o with
  | junk =>
    intro hat
    rw [At, hkinds] at hat
    cases hat
  | misplaced => exact fun hat => Nat.not_le.2 h hat.1
  | tooLarge =>
    rintro ⟨l, hl, -⟩
    rw [List.getElem?_eq_none (Nat.le_of_lt h)] at hl
    cases hl
  | tooDeep =>
    rintro ⟨⟨hopen, -⟩, -⟩
    rw [hkinds] at hopen
    cases hopen

/-- The end of a text can only be misplaced. -/
theorem eq_misplaced_of_at_length {o : Offence} (h : o.At ls ls.length) : o = misplaced := by
  have hkinds : (kinds ls)[ls.length]? = some .finish := by
    have hget := getElem?_kinds_append ls []
    rwa [List.append_nil] at hget
  cases o with
  | junk =>
    rw [At, hkinds] at h
    cases h
  | misplaced => rfl
  | tooLarge =>
    obtain ⟨l, hl, -⟩ := h
    rw [List.getElem?_eq_none (le_refl _)] at hl
    cases hl
  | tooDeep =>
    obtain ⟨⟨hopen, -⟩, -⟩ := h
    rw [hkinds] at hopen
    cases hopen

/-- What cannot stand where the acceptor is is reported as the acceptor does. -/
theorem report_misplaced (h : Passes room init (ls.map Lexeme.token) q) :
    misplaced.report (ls ++ rest) ls.length = q.misplaced rest := by
  have hsizes := h.describes.sizes
  -- The height counts the parentheses of the open runs, each of which has one.
  have hopen : 0 < height (ls.map Lexeme.token) ↔ q.sizes ≠ [] := by
    rw [hsizes.height_eq]
    cases hq : q.sizes with
    | nil => simp
    | cons n ns =>
      have hn : 0 < n := hsizes.pos n (by rw [hq]; exact List.mem_cons_self)
      refine iff_of_true ?_ (List.cons_ne_nil _ _)
      rw [List.sum_cons]
      omega
  have hget : (ls ++ rest)[ls.length]?.map Lexeme.text = rest.head?.map Lexeme.text := by
    rw [List.getElem?_append_right (le_refl _), Nat.sub_self, List.head?_eq_getElem?]
  unfold report Acceptor.misplaced
  dsimp only
  rw [textAt_append, hget, take_kinds_append]
  by_cases hp : q.phase.Awaits
  · rw [if_pos hp, if_pos (h.describes.awaits.1 hp)]
    cases rest with
    | nil => rw [List.append_nil, if_neg (Nat.lt_irrefl _)]
    | cons l rest =>
      have hlt : ls.length < (ls ++ l :: rest).length := by
        rw [List.length_append, List.length_cons]
        omega
      rw [if_pos hlt]
      rfl
  · rw [if_neg hp, if_neg fun hawaits => hp (h.describes.awaits.2 hawaits)]
    by_cases hnone : q.sizes = []
    · rw [if_pos hnone, if_neg fun hlt => hopen.1 hlt hnone]
    · rw [if_neg hnone, if_pos (hopen.2 hnone)]

/-- A number that is too large is reported as the acceptor does. -/
theorem report_tooLarge (ls rest : List Lexeme) (l : Lexeme) :
    tooLarge.report (ls ++ l :: rest) ls.length =
      junkOr rest (.invalidInteger l.text "number too large to fit in target type") := by
  rw [report, drop_succ_append, textAt_append]
  rfl

/-- A parenthesis that is too deep is reported as the acceptor does. -/
theorem report_tooDeep (ls rest : List Lexeme) (l : Lexeme) :
    tooDeep.report (ls ++ l :: rest) ls.length = junkOr rest (.unexpectedInput "(") := by
  rw [report, drop_succ_append]

end Offence

/-! ## The first offence -/

namespace Acceptor

variable {room : Nat} {q : Acceptor} {done rest : List Lexeme}

/-- Where the acceptor goes on, there is no offence. -/
theorem not_at_of_step {l : Lexeme} {q' : Acceptor}
    (h : Passes room init (done.map Lexeme.token) q) (hstep : TokenStep q l.token q')
    (hlarge : ¬ l.TooLarge) (hdeep : ¬ q.TooDeep l.token) (o : Offence) :
    ¬ o.At (done ++ l :: rest) done.length := by
  cases o with
  | junk => exact fun hat => hstep.token_ne.2 (Offence.junk_at_iff.1 hat)
  | misplaced =>
    exact fun hat => (Offence.misplaced_at_iff h hstep.token_ne.1).1 hat q' hstep
  | tooLarge => exact fun hat => hlarge ((Offence.tooLarge_at_iff h).1 hat).1
  | tooDeep => exact fun hat => hdeep ((Offence.tooDeep_at_iff h).1 hat).1

/-- At the first lexeme of what is left, either the acceptor goes on and there is no offence, or the
refusal is the report of the earliest offence there. -/
theorem refusal_cons_cases {l : Lexeme} (h : Passes room init (done.map Lexeme.token) q)
    (hl : l.token ≠ .finish) :
    (∃ q', TokenStep q l.token q' ∧ (∀ o : Offence, ¬ o.At (done ++ l :: rest) done.length) ∧
      q.refusal (l :: rest) = q'.refusal rest) ∨
    ∃ o : Offence, o.At (done ++ l :: rest) done.length ∧
      (∀ o' : Offence, o'.rank < o.rank → ¬ o'.At (done ++ l :: rest) done.length) ∧
      q.refusal (l :: rest) = some (o.report (done ++ l :: rest) done.length) := by
  -- The offences are tried in the order of their ranks.
  by_cases hjunk : l.token = .junk
  · refine .inr ⟨.junk, Offence.junk_at_iff.2 hjunk, fun o' hrank => ?_, ?_⟩
    · exact absurd hrank (Nat.not_lt_zero _)
    · rw [refusal_junk hjunk, Offence.report, textAt_append]
      rfl
  have hjunk' : ¬ Offence.junk.At (done ++ l :: rest) done.length :=
    fun hat => hjunk (Offence.junk_at_iff.1 hat)
  by_cases hnone : ∀ q', ¬ TokenStep q l.token q'
  · refine .inr ⟨.misplaced, (Offence.misplaced_at_iff h hl).2 hnone, fun o' hrank => ?_, ?_⟩
    · cases o' with
      | junk => exact hjunk'
      | _ => exact absurd hrank (by decide)
    · rw [refusal_of_no_step hjunk hnone, Offence.report_misplaced h]
  obtain ⟨q', hstep⟩ : ∃ q', TokenStep q l.token q' := by
    by_contra hnot
    exact hnone (not_exists.1 hnot)
  have hmisplaced' : ¬ Offence.misplaced.At (done ++ l :: rest) done.length :=
    fun hat => (Offence.misplaced_at_iff h hl).1 hat q' hstep
  by_cases hlarge : l.TooLarge
  · have hawaits := hstep.awaits (.inl hlarge.1)
    refine .inr ⟨.tooLarge, (Offence.tooLarge_at_iff h).2 ⟨hlarge, hawaits⟩, fun o' hrank => ?_, ?_⟩
    · cases o' with
      | junk => exact hjunk'
      | misplaced => exact hmisplaced'
      | _ => exact absurd hrank (by decide)
    · rw [refusal_tooLarge hstep hlarge, Offence.report_tooLarge]
  by_cases hdeep : q.TooDeep l.token
  · have hawaits := hstep.awaits (.inr hdeep.1)
    refine .inr ⟨.tooDeep, (Offence.tooDeep_at_iff h).2 ⟨hdeep, hawaits⟩, fun o' hrank => ?_, ?_⟩
    · cases o' with
      | junk => exact hjunk'
      | misplaced => exact hmisplaced'
      | tooLarge => exact fun hat => hlarge ((Offence.tooLarge_at_iff h).1 hat).1
      | tooDeep => exact absurd hrank (by decide)
    · rw [refusal_tooDeep hstep hlarge hdeep, Offence.report_tooDeep]
  exact .inl ⟨q', hstep, not_at_of_step h hstep hlarge hdeep, refusal_step hstep hlarge hdeep⟩

/-- The acceptor goes on behind one more lexeme, before which there is no offence. -/
theorem passes_snoc_of_not_at {l : Lexeme} {q' : Acceptor}
    (h : Passes room init (done.map Lexeme.token) q) (hstep : TokenStep q l.token q')
    (hfirst : ∀ j, j < done.length → ∀ o : Offence, ¬ o.At (done ++ l :: rest) j)
    (hat : ∀ o : Offence, ¬ o.At (done ++ l :: rest) done.length) :
    (∃ room', Passes room' init ((done ++ [l]).map Lexeme.token) q') ∧
      ∀ j, j < (done ++ [l]).length → ∀ o : Offence, ¬ o.At (done ++ [l] ++ rest) j := by
  constructor
  · rw [List.map_append]
    exact ⟨_, h.snoc hstep⟩
  · intro j hj
    rw [List.length_append, List.length_singleton] at hj
    rw [List.append_assoc, List.singleton_append]
    rcases Nat.lt_succ_iff_lt_or_eq.1 hj with hlt | rfl
    · exact hfirst j hlt
    · exact hat

/-- The refusal of what is left of a text, with no offence before it, is the report of the first offence
of the text. -/
theorem exists_firstOffence_of_refusal {e : SyntaxError}
    (h : Passes room init (done.map Lexeme.token) q) (hf : ∀ l ∈ rest, l.token ≠ .finish)
    (hfirst : ∀ j, j < done.length → ∀ o : Offence, ¬ o.At (done ++ rest) j)
    (hrefusal : q.refusal rest = some e) :
    ∃ i o, FirstOffence (done ++ rest) i o ∧ e = o.report (done ++ rest) i := by
  -- The induction moves one lexeme at a time from what is left to what has passed, with no offence there.
  induction rest generalizing room q done with
  | nil =>
    unfold refusal at hrefusal
    split at hrefusal
    · cases hrefusal
    · next hmayEnd =>
      cases hrefusal
      have hat : Offence.misplaced.At (done ++ []) done.length := by
        rw [List.append_nil]
        exact (Offence.misplaced_at_end_iff h).2 hmayEnd
      refine ⟨done.length, .misplaced, ⟨hat, hfirst, fun o' hrank hat' => ?_⟩,
        (Offence.report_misplaced h).symm⟩
      rw [List.append_nil] at hat'
      rw [Offence.eq_misplaced_of_at_length hat'] at hrank
      exact Nat.lt_irrefl _ hrank
  | cons l rest ih =>
    obtain ⟨hl, hrest⟩ := List.forall_mem_cons.1 hf
    rcases refusal_cons_cases h hl with ⟨q', hstep, hat, heq⟩ | ⟨o, hat, hearliest, heq⟩
    · obtain ⟨⟨room', hpasses⟩, hfirst'⟩ := passes_snoc_of_not_at h hstep hfirst hat
      rw [heq] at hrefusal
      have hlater := ih hpasses hrest hfirst' hrefusal
      rwa [List.append_assoc, List.singleton_append] at hlater
    · rw [heq] at hrefusal
      exact ⟨done.length, o, ⟨hat, hfirst, hearliest⟩, (Option.some.inj hrefusal).symm⟩

/-- What is left of a text without a refusal adds no offence. -/
theorem not_at_of_refusal_eq_none (h : Passes room init (done.map Lexeme.token) q)
    (hf : ∀ l ∈ rest, l.token ≠ .finish)
    (hfirst : ∀ j, j < done.length → ∀ o : Offence, ¬ o.At (done ++ rest) j)
    (hrefusal : q.refusal rest = none) (i : Nat) (o : Offence) : ¬ o.At (done ++ rest) i := by
  induction rest generalizing room q done with
  | nil =>
    unfold refusal at hrefusal
    split at hrefusal
    · next hmayEnd =>
      rcases Nat.lt_trichotomy i done.length with hlt | rfl | hgt
      · exact hfirst i hlt o
      · rw [List.append_nil]
        intro hat
        rw [Offence.eq_misplaced_of_at_length hat] at hat
        exact (Offence.misplaced_at_end_iff h).1 hat hmayEnd
      · exact Offence.not_at_of_length_lt (by rwa [List.append_nil]) o
    · cases hrefusal
  | cons l rest ih =>
    obtain ⟨hl, hrest⟩ := List.forall_mem_cons.1 hf
    rcases refusal_cons_cases h hl with ⟨q', hstep, hat, heq⟩ | ⟨o', -, -, heq⟩
    · obtain ⟨⟨room', hpasses⟩, hfirst'⟩ := passes_snoc_of_not_at h hstep hfirst hat
      rw [heq] at hrefusal
      have hlater := ih hpasses hrest hfirst' hrefusal
      rwa [List.append_assoc, List.singleton_append] at hlater
    · rw [heq] at hrefusal
      cases hrefusal

/-- From its start the acceptor refuses lexemes with the report of their first offence. -/
theorem refusal_eq_some_iff {ls : List Lexeme} (hf : ∀ l ∈ ls, l.token ≠ .finish) {e : SyntaxError} :
    init.refusal ls = some e ↔ ∃ i o, FirstOffence ls i o ∧ e = o.report ls i := by
  have hstart : Passes 0 init (([] : List Lexeme).map Lexeme.token) init := .nil
  have hfirst : ∀ j, j < ([] : List Lexeme).length → ∀ o : Offence, ¬ o.At ls j :=
    fun j hj => absurd hj (Nat.not_lt_zero j)
  constructor
  · exact exists_firstOffence_of_refusal hstart hf hfirst
  · rintro ⟨i, o, hoffence, rfl⟩
    cases hrefusal : init.refusal ls with
    | none => exact absurd hoffence.offends (not_at_of_refusal_eq_none hstart hf hfirst hrefusal i o)
    | some e =>
      obtain ⟨i', o', hoffence', rfl⟩ := exists_firstOffence_of_refusal hstart hf hfirst hrefusal
      obtain ⟨rfl, rfl⟩ := hoffence.unique hoffence'
      rfl

end Acceptor

/-! ## Texts that do not compile -/

/-- A text fails to compile with the errors that it fails to be read with. -/
theorem compile_eq_error_iff {text : String} {e : SyntaxError} :
    compile text = .error e ↔ parse text = .error e := by
  unfold compile
  rw [bind_eq_error_iff]
  constructor
  · rintro (h | ⟨x, -, h⟩)
    · exact h
    · cases h
  · exact .inl

/-- A text fails to compile exactly when it has an offence, and then with the report of the first one. -/
theorem compile_eq_error_iff_firstOffence (text : String) (e : SyntaxError) :
    compile text = .error e ↔
      ∃ i o, FirstOffence (lexemes text.toList) i o ∧ e = o.report (lexemes text.toList) i := by
  have hg : ∀ l ∈ lexemes text.toList, l.Genuine := fun l hl => Lexeme.genuine_of_mem_lexemes hl
  rw [compile_eq_error_iff, parse, parseLexemes_eq_error_iff hg]
  exact refusal_eq_some_iff fun l hl => (hg l hl).token_ne_finish

/-- Junk behind a number that is too large is what is reported. -/
example : compile "9223372036854775808x" = .error (.unexpectedInput "x") := by decide +kernel

end DiceNotation
