import TagTemplate.Settings.Library
import TagTemplate.Toml.Reader

/-!
A plain configuration library, to run with.

`Settings.Library.plain` is one of the libraries that settings can be read and written with.  It
reads flat tables only, which is all that settings need: a text with other tables or other values
is no text of settings, for whichever library.
-/

namespace TagTemplate.Settings

/-- Iteration limits are not negative, and have 64 bits. -/
def limit? (n : Int) : Option UInt64 :=
  if 0 ≤ n ∧ n < UInt64.size then some n.toNat.toUInt64 else none

def set? (settings : Settings) (entry : Toml.Entry) : Option Settings :=
  match entry.value with
  | .integer n =>
      if entry.key = limitKey then
        (limit? n).map fun limit => { settings with maxLoopIterations := limit }
      else none
  | .boolean flag =>
      if entry.key = functionsKey then some { settings with standardFunctions := flag } else none
  | .string content =>
      if entry.key = mimeTypeKey then some { settings with defaultMimeType := content } else none

def Library.plain : Library where
  readTable? := Toml.readTable?
  writeTable? table := if table.InRange then some table.layout else none
  toTable := table
  ofTable? table := table.entries.foldlM set? default

/-! ## Running with the plain library -/

def read? : String → Option Settings := Library.plain.read?

def write? : Settings → Option String := Library.plain.write?

def ofFile : String → Option ByteArray → Except SettingsError Settings := Library.plain.ofFile

end TagTemplate.Settings
