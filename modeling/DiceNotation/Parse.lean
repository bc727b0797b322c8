import DiceNotation.Error
import DiceNotation.Expr
import DiceNotation.Lexeme

/-!
# Parsing

Dice expressions in order of binding, weakest first: sums, products, a minus sign, dice, and the
primaries, which are numbers and groups in parentheses. `parse` reads a text by this grammar and
stops at the first lexeme that cannot stand where it is.

A run of parentheses that open one behind another counts as one group, and has to close in one run
too. Groups nest at most `maxNesting` deep; the parsers of the grammar's levels take the parser of
what stands inside a group as an argument, and `expression` ties the knot with one level of nesting
less for each group.
-/

namespace DiceNotation

/-- How deep groups may nest. -/
def maxNesting : Nat := 64

/-- The greatest number that a literal may have: `2^63 - 1`. -/
def maxLiteral : Nat := 0x7FFFFFFFFFFFFFFF

/-- What is left of a text, and how many groups are open around it. -/
structure Cursor where
  /-- The lexemes that are left, the current one first. -/
  rest : List Lexeme
  /-- The number of groups that are open. -/
  nesting : Nat
  deriving DecidableEq, Repr

/-- Reads an expression at the cursor, and gives the cursor behind it. -/
abbrev Parser := Cursor → Except SyntaxError (Expr × Cursor)

namespace Cursor

/-- The token at the cursor. -/
def token (c : Cursor) : Token :=
  match c.rest with
  | [] => .finish
  | l :: _ => l.token

/-- Refuses a cursor at junk: junk is an error as soon as it is reached. -/
def clean (c : Cursor) : Except SyntaxError Cursor :=
  match c.rest with
  | [] => .ok c
  | l :: _ => if l.token = .junk then .error (.unexpectedInput l.text) else .ok c

/-- Moves on to the next lexeme. -/
def next (c : Cursor) : Except SyntaxError Cursor :=
  clean { c with rest := c.rest.tail }

/-- Moves on over the token `t`, which has to stand at the cursor. -/
def expect (t : Token) (c : Cursor) : Except SyntaxError Cursor :=
  if c.token = t then c.next else .error (.expectedInput t.symbol (c.rest.head?.map Lexeme.text))

/-- Moves on over parentheses that open, and adds their number to `n`. The budget is as long as what
is left. -/
def openRun : List Lexeme → Nat → Cursor → Except SyntaxError (Nat × Cursor)
  | [], n, c => .ok (n, c)
  | _ :: budget, n, c =>
    if c.token = .openParen then do
      let c ← c.next
      openRun budget (n + 1) c
    else .ok (n, c)

/-- Moves on over `n` parentheses that close. -/
def closeRun : Nat → Cursor → Except SyntaxError Cursor
  | 0, c => .ok c
  | n + 1, c => do
    let c ← c.expect .closeParen
    closeRun n c

end Cursor

/-- The number that decimal digits denote. -/
def digitsValue (digits : List Char) : Nat :=
  digits.foldl (fun n c => 10 * n + (c.toNat - 48)) 0

/-- The value of a literal. Behind its leading zeros, one with more digits than the greatest literal
is too large whatever they are, and is not computed. -/
def literalValue (digits : List Char) : Except SyntaxError Nat :=
  let significant := digits.dropWhile (· == '0')
  if significant.length > 19 || digitsValue significant > maxLiteral then
    .error (.invalidInteger (String.ofList digits) "number too large to fit in target type")
  else .ok (digitsValue significant)

/-- The operator of a sum. -/
def additive? : Token → Option Arith
  | .plus => some .add
  | .minus => some .sub
  | _ => none

/-- The operator of a product. -/
def multiplicative? : Token → Option Arith
  | .star => some .mul
  | .slash => some .div
  | _ => none

namespace Parser

/-- A number, or a group that holds what `inner` reads. -/
def primary (inner : Parser) : Parser := fun c =>
  match c.rest with
  | [] => .error .unexpectedEnd
  | l :: _ =>
    match l.token with
    | .number => do
      -- Junk behind a number is reported before the size of the number.
      let c ← c.next
      let v ← literalValue l.chars
      return (.literal v, c)
    | .openParen => do
      -- Likewise, junk behind a parenthesis is reported before too deep a nesting.
      let c ← c.next
      if c.nesting ≥ maxNesting then
        throw (.unexpectedInput l.text)
      let (extra, c) ← Cursor.openRun c.rest 0 { c with nesting := c.nesting + 1 }
      let (body, c) ← inner c
      let c ← Cursor.closeRun (extra + 1) c
      return (.group extra body, { c with nesting := c.nesting - 1 })
    | _ => .error (.unexpectedInput l.text)

/-- A primary, or two of them as a number of dice and their sides. -/
def dice (inner : Parser) : Parser := fun c => do
  let (times, c) ← primary inner c
  if c.token = .dice then
    let c ← c.next
    let (sides, c) ← primary inner c
    return (.dice times sides, c)
  else return (times, c)

/-- One die, or what `dice` reads. -/
def die (inner : Parser) : Parser := fun c =>
  if c.token = .dice then do
    let c ← c.next
    let (sides, c) ← primary inner c
    return (.die sides, c)
  else dice inner c

/-- Dice, with a minus sign before them or without. -/
def signed (inner : Parser) : Parser := fun c =>
  if c.token = .minus then do
    let c ← c.next
    let (body, c) ← die inner c
    return (.negate body, c)
  else die inner c

/-- The rest of a chain that starts with `left`: operators of one level of binding, each with the
operand behind it, joined from the left. The budget is as long as what is left. -/
def chain (operand : Parser) (join? : Token → Option Arith) : List Lexeme → Expr → Parser
  | [], left, c => .ok (left, c)
  | _ :: budget, left, c =>
    match join? c.token with
    | none => .ok (left, c)
    | some op => do
      let c ← c.next
      let (right, c) ← operand c
      chain operand join? budget (.arith op left right) c

/-- A product of signed dice. -/
def product (inner : Parser) : Parser := fun c => do
  let (left, c) ← signed inner c
  chain (signed inner) multiplicative? c.rest left c

/-- A sum of products. -/
def sum (inner : Parser) : Parser := fun c => do
  let (left, c) ← product inner c
  chain (product inner) additive? c.rest left c

/-- A whole expression with fewer than `room` groups nested in it. -/
def expression : Nat → Parser
  -- Nobody gets here: a group that would need this room is refused at its parenthesis.
  | 0 => fun _ => .error .unexpectedEnd
  | room + 1 => sum (expression room)

end Parser

/-- The expression that lexemes spell. -/
def parseLexemes (ls : List Lexeme) : Except SyntaxError Expr := do
  let c ← Cursor.clean ⟨ls, 0⟩
  let (e, c) ← Parser.expression (maxNesting + 1) c
  match c.rest with
  | [] => return e
  | l :: _ => throw (.unexpectedInput l.text)

/-- The expression that a text spells, or the first thing that is wrong with it. -/
def parse (text : String) : Except SyntaxError Expr :=
  parseLexemes (lexemes text.toList)

/-- The program of a text. -/
def compile (text : String) : Except SyntaxError Program :=
  return (← parse text).program

end DiceNotation
