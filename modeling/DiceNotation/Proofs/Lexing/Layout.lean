import DiceNotation.Parse
import DiceNotation.Proofs.Grammar.Cursor
import DiceNotation.Proofs.Lexing.Spans
import Mathlib.Data.List.Basic
import Mathlib.Logic.Function.Iterate
import Mathlib.Logic.Relation

/-!
# The layout of a text

What a text compiles to depends on its tokens and what is written at them, and not on where they stand.
A cursor at a position sees the token of the span that is next there and what is written at it
(`Cursor.token_ofPos`, `Cursor.head?_ofPos`), and moves on to its end, so wherever it comes it stands at the end
of a span (`Cursor.next_ofPos`, `Cursor.exists_pos_of_moves`). Two cursors that see the same and move on to the
same are the same (`Cursor.ext_seen`), so by induction over the spans, cursors at two positions from which the
same slices follow are (`Cursor.ofPos_eq_of_slicesFrom_eq`). So texts with the same slices give the same program or the same error,
and a text that is written anew with one space between each two slices has the slices that it had
(`compile_eq_of_slices_eq`).
-/

namespace DiceNotation

/-! ## Slices -/

/-- The tokens of a text from a position on with what is written at them, up to the end of the text, at
which nothing is written. -/
def slicesFrom (text : String) (pos : Nat) : List (Token × String) :=
  (spansFrom text.toList pos).map fun s => (s.token, String.ofList (s.chars text.toList))

/-- The tokens of a text with what is written at them. -/
def slices (text : String) : List (Token × String) :=
  slicesFrom text 0

/-- The slices of a text from a position on are the lexemes that follow it and the end. -/
theorem slicesFrom_eq (text : String) (pos : Nat) :
    slicesFrom text pos =
      (lexemes (text.toList.drop pos)).map (fun l => (l.token, l.text)) ++ [(.finish, "")] := by
  have hspans := congrArg (List.map fun x : Token × List Char => (x.1, String.ofList x.2))
    (map_spansFrom text.toList pos)
  rw [List.map_map, List.map_append, List.map_map] at hspans
  exact hspans

/-- The slices of a text are its lexemes and the end. -/
theorem slices_eq (text : String) :
    slices text = (lexemes text.toList).map (fun l => (l.token, l.text)) ++ [(.finish, "")] :=
  slicesFrom_eq text 0

/-- A lexeme is determined by its token and what is written there. -/
theorem Lexeme.ext_token_text {l l' : Lexeme} (h : (l.token, l.text) = (l'.token, l'.text)) :
    l = l' := by
  obtain ⟨t, cs⟩ := l
  obtain ⟨t', cs'⟩ := l'
  obtain ⟨rfl, htext⟩ := Prod.mk.inj h
  have hchars : cs = cs' := String.ofList_injective htext
  rw [hchars]

/-- From two positions on the slices are the same when the same lexemes follow. -/
theorem slicesFrom_eq_iff {a b : String} {i j : Nat} :
    slicesFrom a i = slicesFrom b j ↔ lexemes (a.toList.drop i) = lexemes (b.toList.drop j) := by
  rw [slicesFrom_eq, slicesFrom_eq, List.append_left_inj]
  exact (List.map_injective_iff.2 fun _ _ h => Lexeme.ext_token_text h).eq_iff

/-! ## Cursors by their positions -/

namespace Cursor

/-- The cursor at the first lexeme behind a position of a text, with some groups open. -/
def ofPos (text : String) (pos nesting : Nat) : Cursor :=
  ⟨lexemes (text.toList.drop pos), nesting⟩

section

variable (text : String) (pos nesting : Nat)

/-- The token at a cursor is that of the next span. -/
theorem token_ofPos : (ofPos text pos nesting).token = (spanAt text.toList pos).token := by
  rcases hread : Lexeme.read? (text.toList.drop pos) with _ | ⟨l, rest⟩
  · rw [ofPos, lexemes_of_read?_eq_none hread, spanAt_of_read?_eq_none hread]
    rfl
  · rw [ofPos, lexemes_of_read? hread, token_spanAt_of_read? hread]
    rfl

/-- The lexeme at a cursor is what is written at the next span, and there is none at the end. -/
theorem head?_ofPos : (ofPos text pos nesting).rest.head?.map Lexeme.text =
    if (spanAt text.toList pos).token = .finish then none
    else some (String.ofList ((spanAt text.toList pos).chars text.toList)) := by
  rcases hread : Lexeme.read? (text.toList.drop pos) with _ | ⟨l, rest⟩
  · rw [ofPos, lexemes_of_read?_eq_none hread, if_pos (spanAt_token_eq_finish_iff.2 hread)]
    rfl
  · have hne : (spanAt text.toList pos).token ≠ .finish := by
      rw [Ne, spanAt_token_eq_finish_iff, hread]
      exact Option.some_ne_none _
    rw [ofPos, lexemes_of_read? hread, if_neg hne, chars_spanAt_of_read? hread]
    rfl

variable {text pos nesting} in
/-- At the end of a text nothing is left. -/
theorem rest_ofPos_of_finish (h : (spanAt text.toList pos).token = .finish) :
    (ofPos text pos nesting).rest = [] := by
  have hhead := head?_ofPos text pos nesting
  rwa [if_pos h, Option.map_eq_none_iff, List.head?_eq_none_iff] at hhead

/-- What is left behind the lexeme at a cursor is what is left at the end of the next span. -/
theorem tail_ofPos :
    (ofPos text pos nesting).rest.tail = (ofPos text (spanAt text.toList pos).stop nesting).rest :=
  (lexemes_drop_stop text.toList pos).symm

/-- A cursor moves on to the end of the next span. -/
theorem next_ofPos :
    (ofPos text pos nesting).next = (ofPos text (spanAt text.toList pos).stop nesting).clean := by
  rw [next, tail_ofPos]
  rfl

/-- Wherever a cursor moves from a position, it stands at the end of a span. -/
theorem exists_pos_of_moves {c : Cursor}
    (h : Relation.ReflTransGen (fun c d : Cursor => c.next = .ok d) (ofPos text pos nesting) c) :
    ∃ n, c = ofPos text ((fun pos => (spanAt text.toList pos).stop)^[n] pos) nesting := by
  induction h with
  | refl => exact ⟨0, rfl⟩
  | tail _ hmove ih =>
    obtain ⟨n, rfl⟩ := ih
    rw [next_ofPos] at hmove
    exact ⟨n + 1, by rw [(clean_eq_ok_iff.1 hmove).1, Function.iterate_succ_apply']⟩

end

/-- Cursors are the same if they see the same token and text and the same is left behind these. -/
theorem ext_seen {c d : Cursor} (htoken : c.token = d.token)
    (htext : c.rest.head?.map Lexeme.text = d.rest.head?.map Lexeme.text)
    (htail : c.rest.tail = d.rest.tail) (hnesting : c.nesting = d.nesting) : c = d := by
  obtain ⟨ls, n⟩ := c
  obtain ⟨ls', n'⟩ := d
  cases hnesting
  cases ls with
  | nil =>
    cases ls' with
    | nil => rfl
    | cons l' ls' => cases htext
  | cons l ls =>
    cases ls' with
    | nil => cases htext
    | cons l' ls' =>
      have hlexeme : l = l' := Lexeme.ext_token_text (Prod.ext htoken (Option.some.inj htext))
      have hrest : ls = ls' := htail
      rw [hlexeme, hrest]

/-- The slices from a position on are that of the next span, and behind it those from its end on. -/
theorem slicesFrom_eq_cons (text : String) (pos : Nat) :
    slicesFrom text pos =
      ((spanAt text.toList pos).token, String.ofList ((spanAt text.toList pos).chars text.toList)) ::
        if (spanAt text.toList pos).token = .finish then []
        else slicesFrom text (spanAt text.toList pos).stop := by
  rw [slicesFrom, spansFrom]
  split
  · rfl
  · rfl

/-- Cursors at two positions, in one text or in two, are the same if the same slices follow: they see the same
one, and move on to positions from which the same slices follow again. -/
theorem ofPos_eq_of_slicesFrom_eq {a b : String} {i j : Nat} (nesting : Nat)
    (h : slicesFrom a i = slicesFrom b j) : ofPos a i nesting = ofPos b j nesting := by
  induction i using spansFrom.induct a.toList generalizing j with
  | case1 i hfinish =>
    rw [slicesFrom_eq_cons, slicesFrom_eq_cons b] at h
    obtain ⟨hslice, -⟩ := List.cons.inj h
    obtain ⟨htoken, htext⟩ := Prod.mk.inj hslice
    refine ext_seen ?_ ?_ ?_ rfl
    · rw [token_ofPos, token_ofPos, htoken]
    · rw [head?_ofPos, head?_ofPos, htoken, htext]
    · rw [rest_ofPos_of_finish hfinish, rest_ofPos_of_finish (htoken.symm.trans hfinish)]
  | case2 i hfinish ih =>
    rw [slicesFrom_eq_cons, slicesFrom_eq_cons b] at h
    obtain ⟨hslice, hrest⟩ := List.cons.inj h
    obtain ⟨htoken, htext⟩ := Prod.mk.inj hslice
    rw [← htoken, if_neg hfinish, if_neg hfinish] at hrest
    refine ext_seen ?_ ?_ ?_ rfl
    · rw [token_ofPos, token_ofPos, htoken]
    · rw [head?_ofPos, head?_ofPos, htoken, htext]
    · rw [tail_ofPos, tail_ofPos, ih hrest]

end Cursor

/-- A text is parsed from the cursor at its start on. -/
theorem parse_eq_parseLexemes_ofPos (text : String) :
    parse text = parseLexemes (Cursor.ofPos text 0 0).rest := rfl

/-- Texts with the same slices compile alike: the cursors at their starts are the same. -/
theorem compile_congr {a b : String} (h : slices a = slices b) : compile a = compile b := by
  rw [compile, compile, parse_eq_parseLexemes_ofPos, parse_eq_parseLexemes_ofPos,
    Cursor.ofPos_eq_of_slicesFrom_eq 0 h]

/-! ## Texts written anew -/

/-- What is written at the tokens of a text, with a space between each two, has the lexemes of the text.
The empty slice of the end may be written too, which leaves a space at the end. -/
theorem lexemes_intercalate_slices (text : String) {parts : List (Token × String)}
    (h : parts = slices text ∨ parts = (slices text).dropLast) :
    lexemes (" ".intercalate (parts.map Prod.snd)).toList = lexemes text.toList := by
  have hgenuine : ∀ l ∈ lexemes text.toList, l.Genuine :=
    fun l hl => Lexeme.genuine_of_mem_lexemes hl
  have hspace : Text.isBlank ' ' = true := rfl
  have hchars : ∀ ls : List Lexeme,
      ((ls.map fun l => (l.token, l.text)).map Prod.snd).map String.toList = ls.map Lexeme.chars := by
    intro ls
    rw [List.map_map, List.map_map]
    exact List.map_congr_left fun l _ => String.toList_ofList
  rw [slices_eq, List.dropLast_concat] at h
  rw [String.toList_intercalate]
  rcases h with rfl | rfl
  · have hend : lexemes ([' '].intercalate [[]]) = [] := by
      rw [List.intercalate_singleton, lexemes_nil]
    rw [List.map_append, List.map_append, hchars]
    exact lexemes_intercalate hgenuine hspace hend
  · have hend : lexemes ([' '].intercalate []) = [] := lexemes_nil
    have hjoin := lexemes_intercalate hgenuine hspace hend
    rw [List.append_nil] at hjoin
    rw [hchars]
    exact hjoin

/-- Texts with the same tokens and slices compile to the same program, or are refused with the same
error. So it is with a text, whether it compiles or not, and its slices joined by single spaces, which
have the same tokens and slices again. -/
theorem compile_eq_of_slices_eq :
    (∀ a b : String, slices a = slices b → compile a = compile b) ∧
      ∀ (text : String) (parts : List (Token × String)),
        parts = slices text ∨ parts = (slices text).dropLast →
          slices (" ".intercalate (parts.map Prod.snd)) = slices text ∧
            compile (" ".intercalate (parts.map Prod.snd)) = compile text := by
  refine ⟨fun a b h => compile_congr h, fun text parts hparts => ?_⟩
  have hslices : slices (" ".intercalate (parts.map Prod.snd)) = slices text :=
    slicesFrom_eq_iff.2 (lexemes_intercalate_slices text hparts)
  exact ⟨hslices, compile_congr hslices⟩

/-- Blanks around the parts of `2d6` change nothing, and `7 7#` is refused as it is with a space before
the junk and another one at the end. -/
theorem compile_eq_of_slices_eq_blanks :
    slices "2d6" = slices " 2\td 6" ∧ compile "2d6" = compile " 2\td 6" ∧
      [(Token.number, "7"), (.number, "7"), (.junk, "#"), (.finish, "")] = slices "7 7#" ∧
      slices "7 7 # " = slices "7 7#" ∧ compile "7 7 # " = compile "7 7#" := by
  have hdice : slices "2d6" = slices " 2\td 6" := by
    rw [slices, slices, slicesFrom_eq_iff]
    with_unfolding_all rfl
  have hparts : [(Token.number, "7"), (.number, "7"), (.junk, "#"), (.finish, "")] =
      slices "7 7#" := by
    rw [slices_eq]
    with_unfolding_all rfl
  have htext : " ".intercalate
      ([(Token.number, "7"), (.number, "7"), (.junk, "#"), (.finish, "")].map Prod.snd) =
      "7 7 # " := by decide
  have hjoin := compile_eq_of_slices_eq.2 "7 7#" _ (.inl hparts)
  rw [htext] at hjoin
  exact ⟨hdice, compile_eq_of_slices_eq.1 _ _ hdice, hparts, hjoin⟩

end DiceNotation
