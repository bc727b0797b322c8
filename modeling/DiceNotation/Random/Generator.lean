import DiceNotation.Random.Words
import DiceNotation.Text.Hex

/-!
# Generators

The three sources of chance: a seeded generator, which adds a constant to a 64-bit counter and mixes
the counter into a word by a multiplication; one that always gives the same answer; and one that
reads its words from a list.
-/

namespace DiceNotation

/-! ## The seeded generator -/

namespace Counter

/-- What the counter grows by at each word. -/
def increment : UInt64 := 0xA0761D6478BD642F

/-- The pattern that sets the two factors of the mixing product apart. -/
def pattern : UInt64 := 0xE7037ED1A0B428DB

/-- The word that a counter stands for: the two halves of the product of the counter and its image
under the pattern, combined by exclusive or. -/
def mix (s : UInt64) : UInt64 :=
  let product := s.toNat * (s ^^^ pattern).toNat
  UInt64.ofNat product ^^^ UInt64.ofNat (product / wordCount)

/-- The counter is advanced, then mixed. -/
def next (s : UInt64) : UInt64 × UInt64 :=
  let s := s + increment
  (mix s, s)

/-- The counter as a source of words that never ends. -/
def words : WordSource UInt64 where
  next? s := some (next s)

/-- Samples from a counter. Within `2^64` words the counter has taken all of its values, so it is
asked for no more. -/
def sampler : Sampler UInt64 where
  sample := words.sample wordCount

end Counter

/-! ## The other sources -/

namespace Fixed

/-- The number below `n` that comes closest to the answer `v`, or the middle of the range where there
is no answer. -/
def answer (v : Option Nat) (n : Nat) : Nat :=
  match v with
  | none => (n - 1) / 2
  | some v => min v (n - 1)

/-- Samples that do not depend on chance. -/
def sampler : Sampler (Option Nat) where
  sample n v :=
    if IsBound n then (.ok (answer v n.toNat : Nat), v) else (.error (.badBound n), v)

end Fixed

namespace Script

/-- A list as a source of words, which ends with the list. -/
def words : WordSource (List UInt64) where
  next?
    | [] => none
    | w :: ws => some (w, ws)

/-- Samples from the words of a list. -/
def sampler : Sampler (List UInt64) where
  sample n ws := words.sample ws.length n ws

end Script

/-! ## All of them -/

/-- A generator in its current state. -/
inductive Generator
  /-- A counter in its state. -/
  | seeded (state : UInt64)
  /-- The same answer to every call, or the middle of each range where there is none. -/
  | fixed (answer : Option Nat)
  /-- The words that are left of a script. -/
  | scripted (words : List UInt64)
  deriving DecidableEq, Repr

/-- Why there is no generator as it is asked for. -/
inductive GeneratorError
  /-- The seed does not fit in 64 bits without a sign. -/
  | badSeed (seed : Int)
  /-- The fixed answer is below zero. -/
  | negativeAnswer (value : Int)
  deriving DecidableEq, Repr

/-- The message of a refused generator. -/
def GeneratorError.message : GeneratorError → String
  | badSeed s => "seed must be an unsigned 64-bit integer, got " ++ toString s
  | negativeAnswer v => "fixed value must not be negative, got " ++ toString v

/-- The counter that a seed starts from. -/
def Counter.ofSeed (seed : Int) : Except GeneratorError UInt64 :=
  if 0 ≤ seed ∧ seed < wordCount then .ok (UInt64.ofNat seed.toNat) else .error (.badSeed seed)

namespace Generator

/-- The generator of a seed. -/
def ofSeed (seed : Int) : Except GeneratorError Generator :=
  return .seeded (← Counter.ofSeed seed)

/-- The generator of a fixed answer. -/
def ofAnswer (value : Option Int) : Except GeneratorError Generator :=
  match value with
  | none => .ok (.fixed none)
  | some v => if v < 0 then .error (.negativeAnswer v) else .ok (.fixed (some v.toNat))

/-- The next word of a generator that has words. -/
def nextWord? : Generator → Option (UInt64 × Generator)
  | seeded s => let (w, s) := Counter.next s; some (w, .seeded s)
  | fixed _ => none
  | scripted [] => none
  | scripted (w :: ws) => some (w, .scripted ws)

/-- Samples from whichever generator the state is. -/
def sampler : Sampler Generator where
  sample n
    | seeded s => let (answer, s) := Counter.sampler.sample n s; (answer, seeded s)
    | fixed v => let (answer, v) := Fixed.sampler.sample n v; (answer, fixed v)
    | scripted ws => let (answer, ws) := Script.sampler.sample n ws; (answer, scripted ws)

/-- A counter as it is shown in messages. -/
def counterText (s : UInt64) : String :=
  "BasicRng(state=0x" ++ String.ofList (Text.hexDigits 16 s.toNat) ++ ")"

/-- A generator as it is shown in messages. Words that come from a list leave the counter where it
stands, at zero. -/
def text : Generator → String
  | seeded s => counterText s
  | fixed none => "FixedRng(None)"
  | fixed (some v) => "FixedRng(" ++ toString v ++ ")"
  | scripted _ => counterText 0

end Generator

end DiceNotation
