/-!
# Tokens

The kinds of lexeme that dice notation is written with, and the characters that form one alone.
-/

namespace DiceNotation

/-- The kind of a lexeme. -/
inductive Token
  | plus
  | minus
  | star
  | slash
  /-- The letter that joins a number of dice to their number of sides. -/
  | dice
  | openParen
  | closeParen
  /-- A run of decimal digits. -/
  | number
  /-- A run of characters that start no lexeme. -/
  | junk
  /-- The end of the text. -/
  | finish
  deriving DecidableEq, Repr

namespace Token

/-- How a token is named to a user: by its character where it has one. -/
def symbol : Token → String
  | plus => "+"
  | minus => "-"
  | star => "*"
  | slash => "/"
  | dice => "d"
  | openParen => "("
  | closeParen => ")"
  | number => "number"
  | junk => "<error>"
  | finish => "<eof>"

/-- The token that a punctuation character forms alone. -/
def ofPunctuation? : Char → Option Token
  | '+' => some plus
  | '-' => some minus
  | '*' => some star
  | '/' => some slash
  | 'd' => some dice
  | '(' => some openParen
  | ')' => some closeParen
  | _ => none

end Token

end DiceNotation
