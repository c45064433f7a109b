import TagTemplate.Render
import TagTemplate.Toml.Grammar
import TagTemplate.Toml.Layout

/-!
Settings of the engine, and what they need of a configuration library.

Settings are read from a configuration text and written to one by a library for the format, which
is a parameter: it reads and writes tables, and it derives the conversions between tables and
settings from the fields of the settings.  What is known of a library are the laws that its
documentation gives (`Library.ReadsToml`, `Library.WritesToml`, `Library.CarriesFields`).
-/

namespace TagTemplate

structure Settings where
  maxLoopIterations : UInt64
  standardFunctions : Bool
  defaultMimeType : String
  deriving DecidableEq

namespace Settings

def default : Settings :=
  ⟨Interpreter.defaultMaxLoopIterations, true, Context.defaultMimeType⟩

/-! ## Use -/

def interpreter (settings : Settings) : Interpreter :=
  ⟨if settings.standardFunctions then .standard else .empty, settings.maxLoopIterations⟩

def requestContext (settings : Settings) : Context :=
  Context.buffered.setMimeType settings.defaultMimeType

/-! ## Fields -/

def limitKey : String := "max_loop_iterations"

def functionsKey : String := "standard_functions"

def mimeTypeKey : String := "default_mime_type"

/-- The fields under their names, in the order of their declaration. -/
def fields (settings : Settings) : List Toml.Entry :=
  [⟨limitKey, .integer settings.maxLoopIterations.toNat⟩,
    ⟨functionsKey, .boolean settings.standardFunctions⟩,
    ⟨mimeTypeKey, .string settings.defaultMimeType⟩]

theorem nodup_fields (settings : Settings) : (settings.fields.map Toml.Entry.key).Nodup := by
  simp [fields, limitKey, functionsKey, mimeTypeKey]

def table (settings : Settings) : Toml.Table := ⟨settings.fields, settings.nodup_fields⟩

/--
The entries give some fields of the settings and nothing else; fields that they do not give are
those of the base settings.
-/
structure GivenBy (settings base : Settings) (entries : List Toml.Entry) : Prop where
  given : ∀ entry ∈ entries, entry ∈ settings.fields
  others : ∀ field ∈ base.fields, field.key ∉ entries.map Toml.Entry.key → field ∈ settings.fields

end Settings

/-! ## Errors -/

inductive FileError where
  | notFound
  | notText
  deriving DecidableEq, Repr

def FileError.message : FileError → String
  | notFound => "No such file or directory (os error 2)"
  | notText => "stream did not contain valid UTF-8"

inductive SettingsError where
  | file (path : String) (e : FileError)
  | invalid
  deriving DecidableEq, Repr

def SettingsError.message : SettingsError → String
  | file path e => "cannot read " ++ path ++ ": " ++ e.message
  | invalid => "invalid config"

/-! ## Libraries -/

namespace Settings

/-- A library for the configuration format, with the conversions that it derives for settings. -/
structure Library where
  readTable? : String → Option Toml.Table
  writeTable? : Toml.Table → Option String
  toTable : Settings → Toml.Table
  ofTable? : Toml.Table → Option Settings

namespace Library

variable (library : Library)

def read? (text : String) : Option Settings := (library.readTable? text).bind library.ofTable?

def write? (settings : Settings) : Option String :=
  library.writeTable? (library.toTable settings)

/-- Reads the content of the file at `path`, which is absent if there is no such file. -/
def ofFile (path : String) (content : Option ByteArray) : Except SettingsError Settings :=
  match content with
  | none => .error (.file path .notFound)
  | some bytes =>
      match String.fromUTF8? bytes with
      | none => .error (.file path .notText)
      | some text =>
          match library.read? text with
          | some settings => .ok settings
          | none => .error .invalid

/-- Reading is that of TOML 1.0: a text that spells a table is read as this table. -/
def ReadsToml : Prop :=
  ∀ (text : String) (table : Toml.Table), table.SpelledBy text →
    library.readTable? text = some table

/--
Writing gives the lines of a table, each string in the first form that shows it plainly; integers
that do not fit in 64 bits are refused.
-/
structure WritesToml : Prop where
  layout : ∀ table : Toml.Table, table.HasBareKeys → table.InRange →
    library.writeTable? table = some table.layout
  refused : ∀ table : Toml.Table, table.HasBareKeys → ¬table.InRange →
    library.writeTable? table = none

/--
Settings are converted by their fields.  In a table every key is optional, with the default
settings to fall back on; other keys are refused, as are values that a field cannot have.
-/
structure CarriesFields : Prop where
  toTable_eq : ∀ settings, library.toTable settings = settings.table
  ofTable?_eq_some_iff : ∀ table settings,
    library.ofTable? table = some settings ↔ settings.GivenBy Settings.default table.entries

end Library

end Settings

end TagTemplate
