import DiceNotation.Data
import DiceNotation.Number.Word

/-!
# Settings

The defaults for rolling and for statistics. They are read from a dictionary of data, whose entries
are checked in their order, so that the first one at fault is what a user is told about; what it does
not mention keeps its default. The message shows the key or the value at fault, and where it cannot be
shown a user is told about that instead.
-/

namespace DiceNotation

/-- The settings. -/
structure Settings where
  /-- The most dice that one roll may ask for. -/
  rollLimit : Nat := 10
  /-- The seed to start from where none is given. -/
  seed : Option Nat := none
  /-- The number of seeds that are sampled for a statistic. -/
  samples : Nat := 1000
  /-- The width of a chart in pixels. -/
  plotWidth : Nat := 700
  /-- The height of a chart in pixels. -/
  plotHeight : Nat := 500
  deriving DecidableEq, Repr

namespace Settings

/-- The names that a setting can be given under. -/
inductive Field
  /-- The most dice that one roll may ask for. -/
  | rollLimit
  /-- The seed to start from. -/
  | seed
  /-- The number of seeds that are sampled. -/
  | samples
  /-- The width of a chart. -/
  | plotWidth
  /-- The height of a chart. -/
  | plotHeight
  deriving DecidableEq, Repr

namespace Field

/-- The name of a setting. -/
def name : Field → String
  | rollLimit => "roll_limit"
  | seed => "seed"
  | samples => "samples"
  | plotWidth => "plot_width"
  | plotHeight => "plot_height"

/-- The settings in the order in which they are shown. -/
def all : List Field :=
  [rollLimit, seed, samples, plotWidth, plotHeight]

/-- The setting of a name. -/
def ofName? (s : String) : Option Field :=
  all.find? fun f => f.name == s

/-- Whether a setting has to fit in 64 bits. -/
def isWord : Field → Bool
  | rollLimit => true
  | seed => true
  | _ => false

/-- Every setting is found by its name. -/
@[simp] theorem ofName?_name (f : Field) : ofName? f.name = some f := by
  cases f <;> decide

end Field

/-- What is wrong with the data of settings. -/
inductive Fault
  /-- There is no dictionary. -/
  | notMapping (got : Data)
  /-- The key is no name of a setting. -/
  | unknown (key : Data)
  /-- The value is no integer. -/
  | notInteger (field : Field) (got : Data)
  /-- The value is below zero. -/
  | negative (field : Field) (got : Int)
  /-- The value does not fit in 64 bits. -/
  | tooLarge (field : Field) (got : Int)

/-- Why data are refused. -/
inductive Error
  /-- Something is wrong with them. -/
  | fault (fault : Fault)
  /-- Something is wrong with them, and the message about it cannot be filled in. -/
  | format (error : FormatError)

namespace Fault

/-- The message about a fault. -/
def message : Fault → String
  | notMapping got => "settings must be a mapping, got " ++ got.render
  | unknown key => "unknown setting " ++ key.render
  | notInteger f got =>
    "setting " ++ Text.quoted f.name ++ " must be int, got " ++ got.render
  | negative f got =>
    "setting " ++ Text.quoted f.name ++ " must not be negative, got " ++ toString got
  | tooLarge f got =>
    "setting " ++ Text.quoted f.name ++ " must fit in 64 unsigned bits, got " ++ toString got

/-- The value that the message about a fault shows. -/
def shown : Fault → Data
  | notMapping got => got
  | unknown key => key
  | notInteger _ got => got
  | negative _ got => .int got
  | tooLarge _ got => .int got

/-- A fault as the error that shows its value, if that can be shown. -/
def fill (fault : Fault) : Error :=
  if fault.shown.hasLong then .format .longNumber else .fault fault

/-- The error that a fault is reported by. -/
def report : Fault → Error
  -- The message about a key has one place. A tuple is taken for the values that are to be filled in,
  -- and not for a value.
  | unknown (.tuple []) => .format .tooFew
  | unknown (.tuple [key]) => fill (unknown key)
  | unknown (.tuple (key :: _)) => if key.hasLong then .format .longNumber else .format .tooMany
  | fault => fault.fill

end Fault

namespace Error

/-- The kinds of errors that data can be refused with. -/
inductive Kind
  /-- A value is wrong. -/
  | value
  /-- The values are not those that an operation is for. -/
  | type
  deriving DecidableEq, Repr

/-- The kind of an error. -/
def kind : Error → Kind
  | fault _ => .value
  | format .longNumber => .value
  | format _ => .type

/-- The message of an error. -/
def message : Error → String
  | fault f => f.message
  | format e => e.message

end Error

/-- The settings with one of them replaced. -/
def assign (s : Settings) (f : Field) (v : Nat) : Settings :=
  match f with
  | .rollLimit => { s with rollLimit := v }
  | .seed => { s with seed := some v }
  | .samples => { s with samples := v }
  | .plotWidth => { s with plotWidth := v }
  | .plotHeight => { s with plotHeight := v }

/-- The settings with one of them replaced by a value that is yet to be checked. Only the seed can be
absent, and a truth value is no integer. -/
def set (s : Settings) (f : Field) (value : Data) : Except Error Settings :=
  match f, value with
  -- Only for the seed, no value at all is a value.
  | .seed, .null => .ok { s with seed := none }
  | f, .int v =>
    if v < 0 then .error (Fault.negative f v).report
    else if f.isWord && v ≥ wordCount then .error (Fault.tooLarge f v).report
    else .ok (s.assign f v.toNat)
  | f, value => .error (Fault.notInteger f value).report

/-- The settings with an entry of a dictionary taken in. -/
def enter (s : Settings) (entry : Data × Data) : Except Error Settings :=
  match entry with
  | (.text key, value) =>
    match Field.ofName? key with
    | some f => s.set f value
    | none => .error (Fault.unknown (.text key)).report
  | (key, _) => .error (Fault.unknown key).report

/-- The settings that data describe. No data at all leave everything at its default. -/
def ofData : Data → Except Error Settings
  | .null => .ok {}
  | .dict entries => entries.foldlM enter {}
  | d => .error (Fault.notMapping d).report

/-- Settings that nobody has checked: a value of any kind for each. -/
structure Unchecked where
  /-- The value of each setting. -/
  value : Field → Data

/-- A setting as data. -/
def get (s : Settings) : Field → Data
  | .rollLimit => .int s.rollLimit
  | .seed => (s.seed.map fun (v : Nat) => Data.int v).getD .null
  | .samples => .int s.samples
  | .plotWidth => .int s.plotWidth
  | .plotHeight => .int s.plotHeight

/-- Settings as what they are before a check. -/
def unchecked (s : Settings) : Unchecked :=
  ⟨s.get⟩

namespace Unchecked

/-- The settings as a dictionary. -/
def toData (u : Unchecked) : Data :=
  .dict (Field.all.map fun f => (.text f.name, u.value f))

/-- The settings as they are shown in messages, if their values can be shown. -/
def text (u : Unchecked) : Except FormatError String :=
  if Field.all.any fun f => (u.value f).hasLong then .error .longNumber
  else .ok ("Settings(" ++
    ", ".intercalate (Field.all.map fun f => f.name ++ "=" ++ (u.value f).render) ++ ")")

end Unchecked

/-- The settings as a dictionary. -/
def toData (s : Settings) : Data :=
  s.unchecked.toData

/-- The settings as they are shown in messages. -/
def text (s : Settings) : Except FormatError String :=
  s.unchecked.text

end Settings

end DiceNotation
