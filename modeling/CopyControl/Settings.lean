import CopyControl.Files.Access
import CopyControl.Toml.Reader

/-!
Settings of the command line, and the file they are kept in.
-/

namespace CopyControl

structure Settings where
  /-- Which log entries are shown. -/
  logFilter : String
  /-- The stylesheet that pages link to. -/
  stylesheet : Option String
  /-- Milliseconds of quiet after a change before a page is rendered again. -/
  watchDebounce : UInt64
deriving DecidableEq, Repr

namespace Settings

/-- What holds where the file says nothing. -/
def standard : Settings where
  logFilter := "info"
  stylesheet := none
  watchDebounce := 200

instance : Inhabited Settings := ⟨standard⟩

/-- The shortest quiet that is waited for. -/
def leastDebounce : UInt64 := 50

/-- The milliseconds that are waited for. -/
def debounce (s : Settings) : UInt64 :=
  max s.watchDebounce leastDebounce

/-- Whether the setting is less than what is waited for. -/
def isClamped (s : Settings) : Bool :=
  s.watchDebounce < leastDebounce

/-! ## Reading -/

/-- A text that a table may hold under a name. Nothing is an answer too; a value of another kind
is none. -/
def optionalText? (table : Toml.Value) (name : String) : Option (Option String) :=
  match table.get? name with
  | none => some none
  | some (.text s) => some (some s)
  | some _ => none

/-- A number of 64 bits that a table may hold under a name. -/
def optionalNumber? (table : Toml.Value) (name : String) : Option (Option UInt64) :=
  match table.get? name with
  | none => some none
  | some (.integer (.ofNat n)) => if n < UInt64.size then some (some (.ofNat n)) else none
  | some _ => none

/-- The settings that a table holds. Other names mean nothing. -/
def ofTable? (table : Toml.Value) : Option Settings := do
  let logFilter ← optionalText? table "log_filter"
  let stylesheet ← optionalText? table "stylesheet"
  let watchDebounce ← optionalNumber? table "watch_debounce_ms"
  return {
    logFilter := logFilter.getD standard.logFilter
    stylesheet := stylesheet
    watchDebounce := watchDebounce.getD standard.watchDebounce }

/-- The settings that a text holds. -/
def read? (text : String) : Option Settings :=
  (Toml.read? text).bind ofTable?

/-! ## The file -/

/-- The directory of the program in somebody's home. -/
def directory (home : FilePath) : FilePath :=
  home.join ⟨".copy-code"⟩

/-- The file of the settings. -/
def file (home : FilePath) : FilePath :=
  (directory home).join ⟨"config.toml"⟩

/-- Why settings could not be had. -/
inductive LoadError where
  | unreadable (path : FilePath) (cause : FileError)
  | malformed (path : FilePath)
deriving DecidableEq, Repr, Inhabited

def LoadError.message : LoadError → String
  | .unreadable path _ => "Failed to read config: " ++ path.text
  | .malformed path => "Failed to parse config: " ++ path.text

/-- Loads the settings of a file; without the file, the standard ones hold. -/
def load {m : Type → Type} [Monad m] [Files m] (path : FilePath) :
    m (Except LoadError Settings) := do
  if ← Files.isThere path then
    match ← Files.readText path with
    | .ok text =>
      match read? text with
      | some s => return .ok s
      | none => return .error (.malformed path)
    | .error e => return .error (.unreadable path e)
  else return .ok standard

end Settings

end CopyControl
