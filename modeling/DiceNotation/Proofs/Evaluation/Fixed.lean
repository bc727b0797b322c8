import DiceNotation.Proofs.Evaluation.Dice
import DiceNotation.Proofs.Lexing.Gluing
import DiceNotation.Proofs.Stack.Simulation

/-!
# Dice that show a fixed face

With a sampler that always gives the same answer all dice of a roll show the same face (`Fixed.face`), so the
sum that is built up one face after another is a product. It overflows on the way exactly when the product
leaves the range (`runFrom_rollDice_fixed`), and a text that asks for such dice is worth what they show
(`rollDice_fixed`).
-/

namespace DiceNotation

open Text (isBlank)

/-! ## Faces -/

namespace Fixed

/-- The face that dice with `sides` sides show for a fixed answer: the one that it is the number of, counted
from zero, or else the greatest one; and without an answer the middle one. -/
def face (v : Option Nat) (sides : Int) : Int :=
  match v with
  | none => 1 + (sides - 1) / 2
  | some v => 1 + min (v : Int) (sides - 1)

variable {sides : Int}

/-- A call with a bound is answered by the number of the face, and leaves the sampler as it is. -/
theorem sample_eq (h : IsBound sides) (v : Option Nat) :
    sampler.sample sides v = (.ok (face v sides - 1), v) := by
  have hpos := h.1
  have hanswer : ((answer v sides.toNat : Nat) : Int) = face v sides - 1 := by
    cases v with
    | none =>
      show (((sides.toNat - 1) / 2 : Nat) : Int) = 1 + (sides - 1) / 2 - 1
      omega
    | some v =>
      show ((min v (sides.toNat - 1) : Nat) : Int) = 1 + min (v : Int) (sides - 1) - 1
      omega
  rw [← hanswer]
  exact if_pos h

/-- All dice show the same face. -/
theorem faces_eq (h : IsBound sides) (v : Option Nat) (k : Nat) :
    sampler.faces sides k v = List.replicate k (face v sides) := by
  induction k with
  | zero => rfl
  | succ k ih =>
    rw [Sampler.faces_succ (sample_eq h v), ih, List.replicate_succ, Int.add_comm 1,
      Int.sub_add_cancel]

/-- No number of calls changes the answer. -/
theorem after_eq (h : IsBound sides) (v : Option Nat) (k : Nat) : sampler.after sides k v = v := by
  induction k with
  | zero => rfl
  | succ k ih => rw [Sampler.after_succ (sample_eq h v), ih]

/-- The sum of equal faces is their product with the number of dice. -/
theorem sum_faces (h : IsBound sides) (v : Option Nat) {times : Int} (htimes : 0 ≤ times) :
    (sampler.faces sides times.toNat v).sum = times * face v sides := by
  rw [faces_eq h, List.sum_replicate_int, Int.toNat_of_nonneg htimes]

end Fixed

/-- What `times` dice come to that all show the face `face`. -/
def equalFaces (times face : Int) : Except Failure Int :=
  if times * face ≤ 2 ^ 63 - 1 then .ok (times * face) else .error (.roll .overflow)

/-- Dice within the limit that show a fixed face are worth as many times the face as there are dice, if that
is in range, and overflow otherwise. -/
theorem runFrom_rollDice_fixed {times sides limit : Int} (htimes : 0 ≤ times) (hlimit : times ≤ limit)
    (h : IsBound sides) (v : Option Nat) :
    (rollDice Fixed.sampler times sides limit).runFrom v =
      (equalFaces times (Fixed.face v sides), v) := by
  have hmax : maxValue = 2 ^ 63 - 1 := rfl
  have hsum := Fixed.sum_faces h v htimes
  have hafter := Fixed.after_eq h v
  have hserves := Fixed.sampler_fair.serves h
  rw [equalFaces]
  rcases Int.lt_or_eq_of_le htimes with hpos | rfl
  · by_cases hfits : times * Fixed.face v sides ≤ 2 ^ 63 - 1
    · rw [← hsum, ← hmax] at hfits
      have hroll := (rollsTo_of_le hserves hpos hlimit h.1 hfits).1
      rw [hroll, hsum, hafter, if_pos (by rwa [hsum] at hfits)]
    · rw [if_neg hfits]
      rw [← hsum, ← hmax] at hfits
      obtain ⟨j, -, -, -, hroll, -⟩ :=
        exists_rollsTo_of_lt hserves hpos hlimit h.1 (Int.not_le.1 hfits)
      rw [hroll, hafter]
  · -- No die is rolled, and nothing is a sum in range.
    rw [Int.zero_mul, if_pos (by decide)]
    have hsides := h.1
    rw [rollDice, if_neg (by omega), if_neg (by omega), if_neg (by omega), if_pos (.inl rfl)]
    rfl

/-! ## Texts -/

/-- A text that asks for `k` dice with `n` sides in decimal digits, with any zeros before them and any blanks
around them and the letter between them. -/
def AsksFor (text : String) (k n : Nat) : Prop :=
  ∃ a ks b c ns d : List Char, text.toList = (a ++ ks ++ b) ++ 'd' :: (c ++ ns ++ d) ∧
    (∀ x ∈ a ++ b ++ c ++ d, isBlank x = true) ∧ (ks ≠ [] ∧ ∀ x ∈ ks, isDigit x = true) ∧
    (ns ≠ [] ∧ ∀ x ∈ ns, isDigit x = true) ∧ digitsValue ks = k ∧ digitsValue ns = n

/-- The lexemes of a text that asks for dice. -/
theorem AsksFor.lexemes {text : String} {k n : Nat} (h : AsksFor text k n) :
    ∃ ks ns : List Char, DiceNotation.lexemes text.toList =
        [⟨.number, ks⟩, .of .dice, ⟨.number, ns⟩] ∧
      (∀ x ∈ ks, isDigit x = true) ∧ (∀ x ∈ ns, isDigit x = true) ∧
      digitsValue ks = k ∧ digitsValue ns = n := by
  obtain ⟨a, ks, b, c, ns, d, htext, hblank, ⟨hks, hkd⟩, ⟨hns, hnd⟩, hk, hn⟩ := h
  simp only [List.forall_mem_append] at hblank
  obtain ⟨⟨⟨ha, hb⟩, hc⟩, hd⟩ := hblank
  have hfirst := (Lexeme.Genuine.number hks hkd).lexemes_padded ha hb
  have hsecond := (Lexeme.Genuine.number hns hnd).lexemes_padded hc hd
  refine ⟨ks, ns, ?_, hkd, hnd, hk, hn⟩
  rw [htext, lexemes_append_punctuation (t := .dice) rfl, hfirst, hsecond]
  rfl

/-- A text that asks for dice with numbers that are not too large compiles to their roll. -/
theorem AsksFor.parse_eq {text : String} {k n : Nat} (h : AsksFor text k n) (hk : k ≤ maxLiteral)
    (hn : n ≤ maxLiteral) : parse text = .ok (.dice (.literal k) (.literal n)) := by
  obtain ⟨ks, ns, hlexemes, hkd, hnd, rfl, rfl⟩ := h.lexemes
  refine (parseLexemes_eq_ok_iff fun l hl => Lexeme.genuine_of_mem_lexemes hl).2
    ⟨.single (l := .sum) (.single (l := .product) (.plain (.dice (.number ks) (.number ns)))), ?_,
      ⟨?_, ⟨trivial, trivial⟩, Nat.zero_le _⟩, rfl⟩
  · rw [hlexemes]
    rfl
  · intro l hl
    simp only [Derivation.yield, List.singleton_append, List.mem_cons, List.not_mem_nil, or_false] at hl
    rcases hl with rfl | rfl | rfl
    · exact fun _ => ⟨hkd, hk⟩
    · exact Lexeme.fits_of (by decide)
    · exact fun _ => ⟨hnd, hn⟩

/-- With a sampler that always gives the same answer, dice within the limit are worth as many times the face
that they show as there are dice, where that is at most `2^63 - 1`, and overflow otherwise; and so is a text
that asks for such dice. -/
theorem rollDice_fixed (v : Option Nat) (limit : Int) :
    (∀ times sides : Int, 0 ≤ times → times ≤ limit → 1 ≤ sides → sides < 2 ^ 64 →
      (rollDice Fixed.sampler times sides limit).runFrom v =
        (if times * Fixed.face v sides ≤ 2 ^ 63 - 1 then .ok (times * Fixed.face v sides)
          else .error (.roll .overflow), v)) ∧
    ∀ (text : String) (k n : Nat), AsksFor text k n → k ≤ 2 ^ 63 - 1 → n ≤ 2 ^ 63 - 1 →
      (k : Int) ≤ limit → 1 ≤ n →
      ∃ p, compile text = .ok p ∧ (p.run Fixed.sampler limit).runFrom v =
        (if k * Fixed.face v n ≤ 2 ^ 63 - 1 then .ok (k * Fixed.face v n)
          else .error (.roll .overflow), v) := by
  constructor
  · intro times sides htimes hlimit hone hsides
    exact runFrom_rollDice_fixed htimes hlimit ⟨hone, hsides⟩ v
  · intro text k n htext hk hn hlimit hone
    have hbound : IsBound (n : Int) := by
      have hcount : (wordCount : Int) = 2 ^ 64 := rfl
      exact ⟨by omega, by omega⟩
    have hparse := htext.parse_eq hk hn
    refine ⟨_, compile_eq_ok_iff.2 ⟨_, hparse, rfl⟩, ?_⟩
    rw [Expr.run_program Fixed.sampler hparse]
    exact runFrom_rollDice_fixed (Int.natCast_nonneg k) hlimit hbound v

/-- Two dice with `2^62` sides that show the greatest face overflow, and so does the text that asks for them,
where the answer is beyond the die and beyond 64 bits. With one side less they do not. -/
theorem rollDice_fixed_greatest :
    AsksFor "2 d4611686018427387904" 2 (2 ^ 62) ∧
    (∃ p, compile "2 d4611686018427387904" = .ok p ∧ (p.run Fixed.sampler 2).runFrom (some (2 ^ 64)) =
      (.error (.roll .overflow), some (2 ^ 64))) ∧
    (rollDice Fixed.sampler 2 (2 ^ 62 - 1) 2).runFrom (some (2 ^ 64)) =
      (.ok (2 ^ 63 - 2), some (2 ^ 64)) := by
  have hasks : AsksFor "2 d4611686018427387904" 2 (2 ^ 62) :=
    ⟨[], ['2'], [' '], [], "4611686018427387904".toList, [], by decide, List.all_eq_true.1 rfl,
      ⟨by decide, List.all_eq_true.1 rfl⟩, ⟨by decide, List.all_eq_true.1 rfl⟩, by decide, by decide⟩
  obtain ⟨hroll, htext⟩ := rollDice_fixed (some (2 ^ 64)) 2
  refine ⟨hasks, ?_, ?_⟩
  · exact htext _ 2 (2 ^ 62) hasks (by decide) (by decide) (by decide) (by decide)
  · exact hroll 2 (2 ^ 62 - 1) (by decide) (by decide) (by decide) (by decide)

end DiceNotation
