import DiceNotation.Evaluate
import DiceNotation.Journal
import DiceNotation.Text.Quoted

/-!
# Sampling

A program is sampled by running it once with each of several seeds in a row. The seeds where the roll
fails are left out, and reported when they are met; only if it fails with all of them is the first failure
the result.
-/

namespace DiceNotation

open Journal (Record)

/-- So many seeds in a row from `base` on, modulo `2^64`. -/
def deriveSeeds (base count : Int) : List Int :=
  (List.range count.toNat).map fun (i : Nat) => (base + i) % wordCount

/-- What a sampling has come to behind some of its seeds. -/
structure Sample where
  /-- The values of the rolls that did not fail, in the order of their seeds. -/
  values : Array Int := #[]
  /-- The failure of the first roll that failed. -/
  firstError : Option DiceError := none
  /-- The reports. -/
  records : Array Record := #[]

/-- A sampling that was stopped. -/
structure Stopped where
  /-- What stopped it. -/
  problem : Problem
  /-- The reports until then. -/
  records : Array Record

/-- The report on a roll that failed. -/
def skipRecord (seed : Int) (e : DiceError) : Record :=
  ⟨.sampling, .info, "skipping seed " ++ toString seed ++ ": " ++ e.message⟩

/-- The report on a sampling that has a result. -/
def sampleRecord (p : Program) (samples : Int) (values : List Int) : Record :=
  ⟨.sampling, .debug, "sampled " ++ toString values.length ++ " of " ++ toString samples ++
    " seeds for " ++ p.text⟩

namespace Sample

/-- Runs a program with one more seed. A roll that fails is reported and left out; anything else that stops
the run stops the sampling. -/
def add (p : Program) (limit : Int) (t : Sample) (seed : Int) : Except Stopped Sample :=
  match p.roll seed limit with
  | .ok v => .ok { t with values := t.values.push v }
  | .error (.dice e) =>
    .ok { t with
      firstError := t.firstError.or (some e)
      records := t.records.push (skipRecord seed e) }
  | .error e => .error ⟨e, t.records⟩

/-- The result behind the last seed: the values as a series of 64-bit integers, or the first failure where
there are none. -/
def finish (p : Program) (samples : Int) (t : Sample) : Except Stopped Sample :=
  -- Without seeds there is no failure either, and no value is the result.
  match t.values.toList, t.firstError with
  | [], some e => .error ⟨.dice e, t.records⟩
  | vs, _ =>
    let records := t.records.push (sampleRecord p samples vs)
    if ∀ v ∈ vs, InRange v then .ok { t with records }
    else .error ⟨.series .overflow, records⟩

end Sample

/-- Samples a program with so many seeds in a row from `seed` on. -/
def sample (p : Program) (seed limit samples : Int) : Except Stopped Sample := do
  let t ← (deriveSeeds seed samples).foldlM (Sample.add p limit) {}
  t.finish p samples

/-- The values of a program with each of the seeds that give one. -/
def sampleRolls (p : Program) (seed limit samples : Int) : Except Problem (List Int) :=
  match sample p seed limit samples with
  | .ok t => .ok t.values.toList
  | .error e => .error e.problem

/-- The reports on a sampling: one on each roll that is left out, and one at the end if nothing stopped it
before. -/
def sampleRecords (p : Program) (seed limit samples : Int) : List Record :=
  match sample p seed limit samples with
  | .ok t => t.records.toList
  | .error e => e.records.toList

/-- The report on a text that compiled. -/
def compileRecord (text : String) (p : Program) : Record :=
  ⟨.compiling, .debug, "compiled " ++ Text.quoted text ++ " into " ++ toString p.ops.length ++
    " ops, stack size " ++ toString p.stackSize⟩

end DiceNotation
