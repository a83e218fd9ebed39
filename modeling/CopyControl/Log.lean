/-!
Log entries: what the library reports about its own work, and which of them are shown.
-/

namespace CopyControl

inductive LogLevel where
  | error | warn | info | debug | trace
deriving DecidableEq, Repr, Inhabited

def LogLevel.name : LogLevel → String
  | .error => "ERROR"
  | .warn => "WARN"
  | .info => "INFO"
  | .debug => "DEBUG"
  | .trace => "TRACE"

/-- One entry: a message, and named values in a fixed order. -/
structure LogEntry where
  level : LogLevel
  message : String
  fields : List (String × String)
deriving DecidableEq, Repr, Inhabited

/-- An entry on one line. -/
def LogEntry.line (e : LogEntry) : String :=
  " ".intercalate (e.level.name :: e.message :: e.fields.map fun (k, v) => k ++ "=" ++ v)

/-! ## Filters -/

/-- How far a level is from the gravest, which has 1. -/
def LogLevel.rank : LogLevel → Nat
  | .error => 1
  | .warn => 2
  | .info => 3
  | .debug => 4
  | .trace => 5

/-- A filter shows the entries up to a rank. -/
structure LogFilter where
  rank : Nat
deriving DecidableEq, Repr, Inhabited

namespace LogFilter

/-- The names of filters, each at the place of its rank. -/
def names : List String := ["off", "error", "warn", "info", "debug", "trace"]

/-- The filter with a name in letters of either case, or with the digit of its rank. -/
def ofName? (name : String) : Option LogFilter :=
  match names.findIdx? (· = name.toLower) with
  | some rank => some ⟨rank⟩
  | none => ((List.range names.length).find? (toString · = name)).map (⟨·⟩)

/-- The filter that the last name in a list with commas gives; without one, only errors are
shown. -/
def ofText (text : String) : LogFilter :=
  let parts := (text.toList.splitOn ',').map String.ofList
  ((parts.filterMap ofName?).getLast?).getD ⟨LogLevel.rank .error⟩

/-- The lines of the entries that a filter shows. -/
def lines (f : LogFilter) (entries : List LogEntry) : String :=
  String.join ((entries.filter (·.level.rank ≤ f.rank)).map fun e => e.line ++ "\n")

end LogFilter

end CopyControl
