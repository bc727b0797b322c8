import DiceNotation.Text.Blank
import DiceNotation.Token

/-!
# Lexemes

A text of dice notation is a sequence of lexemes with blanks between them. `Lexeme.read?` takes the
first one off a text, `lexemes` lists them all, and `spanAt` says where the first one after a given
position stands. A number and a run of junk extend as far as they can; punctuation is one character.
-/

namespace DiceNotation

open Text (isBlank)

/-- A stretch of the text that belongs together, with its kind. -/
structure Lexeme where
  /-- The kind of the lexeme. -/
  token : Token
  /-- The characters that it covers. -/
  chars : List Char
  deriving DecidableEq, Repr

/-- A decimal digit of ASCII. -/
def isDigit (c : Char) : Bool :=
  '0' ≤ c && c ≤ '9'

/-- A character that starts no lexeme and separates none: neither blank nor digit nor
punctuation. -/
def isJunk (c : Char) : Bool :=
  !isBlank c && (Token.ofPunctuation? c).isNone && !isDigit c

namespace Lexeme

/-- The text that a lexeme covers. -/
def text (l : Lexeme) : String :=
  String.ofList l.chars

/-- The lexeme that starts at the first character, and the text behind it. -/
def first? : List Char → Option (Lexeme × List Char)
  | [] => none
  | c :: cs =>
    match Token.ofPunctuation? c with
    | some t => some (⟨t, [c]⟩, cs)
    | none =>
      if isDigit c then some (⟨.number, c :: cs.takeWhile isDigit⟩, cs.dropWhile isDigit)
      else some (⟨.junk, c :: cs.takeWhile isJunk⟩, cs.dropWhile isJunk)

/-- The first lexeme of a text behind its leading blanks, and the text behind it. -/
def read? (cs : List Char) : Option (Lexeme × List Char) :=
  first? (cs.dropWhile isBlank)

/-- A lexeme and the text behind it are the text that was read. -/
theorem first?_append {cs rest : List Char} {l : Lexeme} (h : first? cs = some (l, rest)) :
    l.chars ++ rest = cs := by
  unfold first? at h
  split at h
  · simp at h
  · split at h
    · simp only [Option.some.injEq, Prod.mk.injEq] at h
      obtain ⟨rfl, rfl⟩ := h
      rfl
    · split at h <;> simp only [Option.some.injEq, Prod.mk.injEq] at h <;>
        obtain ⟨rfl, rfl⟩ := h <;> simp [List.takeWhile_append_dropWhile]

/-- A lexeme covers at least one character. -/
theorem first?_chars_ne_nil {cs rest : List Char} {l : Lexeme} (h : first? cs = some (l, rest)) :
    l.chars ≠ [] := by
  unfold first? at h
  split at h
  · simp at h
  · split at h
    · simp only [Option.some.injEq, Prod.mk.injEq] at h
      obtain ⟨rfl, rfl⟩ := h
      simp
    · split at h <;> simp only [Option.some.injEq, Prod.mk.injEq] at h <;>
        obtain ⟨rfl, rfl⟩ := h <;> simp

/-- Reading a lexeme leaves a shorter text. -/
theorem length_lt_of_read? {cs rest : List Char} {l : Lexeme} (h : read? cs = some (l, rest)) :
    rest.length < cs.length := by
  have hle : (cs.dropWhile isBlank).length ≤ cs.length := (List.dropWhile_sublist _).length_le
  have happ := congrArg List.length (first?_append h)
  have hpos := List.length_pos_iff.2 (first?_chars_ne_nil h)
  rw [List.length_append] at happ
  omega

end Lexeme

/-- The lexemes of a text in order. -/
def lexemes (cs : List Char) : List Lexeme :=
  match _h : Lexeme.read? cs with
  | none => []
  | some (l, rest) => l :: lexemes rest
termination_by cs.length
decreasing_by exact Lexeme.length_lt_of_read? _h

/-- A token with the positions that it spans, counted in characters from the start of the text. -/
structure Span where
  /-- The kind of the lexeme that stands there. -/
  token : Token
  /-- The position of its first character. -/
  start : Nat
  /-- The position behind its last character. -/
  stop : Nat
  deriving DecidableEq, Repr

/-- The first lexeme at or behind position `pos`. Where only blanks are left it is the empty end of
the text. -/
def spanAt (cs : List Char) (pos : Nat) : Span :=
  let rest := (cs.drop pos).dropWhile isBlank
  match Lexeme.first? rest with
  | none => ⟨.finish, cs.length, cs.length⟩
  | some (l, _) =>
    let start := cs.length - rest.length
    ⟨l.token, start, start + l.chars.length⟩

end DiceNotation
