import DiceNotation.Random.Sampler

/-!
# Numbers below a bound from random words

A source of 64-bit words serves a bound `n` by multiplication: the high half of the product of a word
and `n` is the number. Of the `2^64` words, those with a product whose low half is below
`2^64 mod n` are rejected, because without them each number is hit equally often. The remainder is
only computed when the low half is below `n`, which it rarely is.
-/

namespace DiceNotation

/-- A source of 64-bit words, which may end. -/
structure WordSource (σ : Type) where
  /-- The next word and the state behind it. -/
  next? : σ → Option (UInt64 × σ)

namespace WordSource

variable {σ : Type}

/-- Takes words until the product `m` of the last one and `n` has a low half of at least
`threshold`, and gives the high half of that product. At most `tries` more words are taken. -/
def settle (W : WordSource σ) (n threshold : Nat) : Nat → Nat → σ → Except SampleError Int × σ
  | tries, m, s =>
    if m % wordCount < threshold then
      match tries with
      | 0 => (.error .exhausted, s)
      | tries + 1 =>
        match W.next? s with
        | none => (.error .exhausted, s)
        | some (w, s) => settle W n threshold tries (w.toNat * n) s
    else (.ok (m / wordCount : Nat), s)

/-- A number below `n` from the words of a source, of which at most `tries` are rejected. -/
def sample (W : WordSource σ) (tries : Nat) (n : Int) (s : σ) : Except SampleError Int × σ :=
  if IsBound n then
    let n := n.toNat
    match W.next? s with
    | none => (.error .exhausted, s)
    | some (w, s) =>
      let m := w.toNat * n
      -- The threshold is below `n`, so a low half of `n` or more is above it.
      if m % wordCount < n then settle W n ((wordCount - n) % n) tries m s
      else (.ok (m / wordCount : Nat), s)
  else (.error (.badBound n), s)

end WordSource

end DiceNotation
