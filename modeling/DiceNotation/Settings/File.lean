import DiceNotation.Settings.Basic
import DiceNotation.Yaml.Value
import DiceNotation.Yaml.Writer

/-!
# Settings files

Settings as documents, of a format that knows dictionaries of data. A document is checked when it is loaded,
but not when it is saved, so what was never checked can be saved and is refused when it is loaded back.
`Yaml.format` is the format of the files.
-/

namespace DiceNotation

/-- What settings files need of a format of documents. Both ways can fail. -/
structure DocumentFormat (ε : Type) where
  /-- A dictionary as a document. -/
  write : List (Data × Data) → Except ε String
  /-- The data that a document holds. -/
  read : String → Except ε Data

/-- The format of the files. -/
def Yaml.format : DocumentFormat Yaml.Error where
  write entries :=
    if Data.anyLongEntry entries then .error (.unwritable .longNumber) else .ok (write entries)
  read := load

namespace Settings

/-- The document that holds the settings where no other one is given. -/
def defaultFile : String :=
  "# Largest number of dice a single XdY may roll.\nroll_limit: 10\n\n" ++
  "# Seed used when none is given. Leave empty to require one.\nseed:\n\n" ++
  "# Number of seeds sampled by the statistics functions.\nsamples: 1000\n\n" ++
  "# Size of images produced by the plot function, in pixels.\nplot_width: 700\nplot_height: 500\n"

section

variable {ε : Type}

/-- Why a document holds no settings. -/
inductive LoadError (ε : Type)
  /-- It holds no data. -/
  | document (error : ε)
  /-- Its data are no settings. -/
  | settings (error : Error)

/-- The settings that a document holds, or those of the default one. -/
def load (F : DocumentFormat ε) (document : Option String) : Except (LoadError ε) Settings := do
  let data ← (F.read (document.getD defaultFile)).mapError .document
  (ofData data).mapError .settings

/-- Settings that nobody has checked as a document. -/
def Unchecked.save (u : Unchecked) (F : DocumentFormat ε) : Except ε String :=
  F.write (Field.all.map fun f => (.text f.name, u.value f))

/-- The settings as a document. -/
def save (s : Settings) (F : DocumentFormat ε) : Except ε String :=
  s.unchecked.save F

end

end Settings

end DiceNotation
