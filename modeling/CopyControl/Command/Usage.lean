import CopyControl.Command.Verb

/-!
How a command is used, and what can be wrong with a command line.
-/

namespace CopyControl.Command

/-- A line that shows how arguments go together. -/
inductive Usage where
  /-- All that can be said. -/
  | general (scope : Scope)
  /-- What has to be said, with some flags. -/
  | withFlags (scope : Scope) (flags : List Flag)
  /-- That one of the things that a command takes has to be said, maybe after the flag for
  help. -/
  | anyOf (v : Verb) (help : Bool)
deriving DecidableEq, Repr, Inhabited

/-- What has to be said in a scope. -/
def Scope.required : Scope → List String
  | .program => ["<COMMAND>"]
  | .verb _ => [Slot.label .input]
  | .help => ["[COMMAND]..."]

/-- The mark for flags that may be given. -/
def Scope.optional : Scope → List String
  | .verb _ => ["[OPTIONS]"]
  | _ => []

/-- The name of a slot in a choice. -/
def Slot.choice : Slot → String
  | .input => "INPUT"
  | .flag f => f.label

/-- The parts of a usage behind the command. -/
def Usage.parts : Usage → List String
  | .general scope => scope.line :: scope.optional ++ scope.required
  | .withFlags scope flags => scope.line :: flags.map Flag.label ++ scope.required
  | .anyOf v help =>
    let slots := .input :: v.options.map Slot.flag
    (Scope.verb v).line :: (if help then [Flag.label .help] else [])
      ++ ["<" ++ "|".intercalate (slots.map Slot.choice) ++ ">"]

def Usage.line (u : Usage) : String :=
  "Usage: " ++ " ".intercalate u.parts

/-! ## Errors -/

/-- Why a text is no number of 64 bits. -/
inductive NumberError where
  | empty
  | invalidDigit
  | tooLarge
deriving DecidableEq, Repr, Inhabited

def NumberError.message : NumberError → String
  | .empty => "cannot parse integer from empty string"
  | .invalidDigit => "invalid digit found in string"
  | .tooLarge => "number too large to fit in target type"

/-- What may help somebody whose argument is not understood. -/
inductive Tip where
  | similarFlag (f : Flag)
  | similarCommands (names : List String)
  /-- The argument is understood behind two dashes. -/
  | asValue (argument : String)
  /-- The argument is a flag of a command that comes later. -/
  | flagOf (v : Verb) (f : Flag)
  /-- The argument is understood without the two dashes. -/
  | withoutDashes (command : String)
deriving DecidableEq, Repr, Inhabited

def quoted (s : String) : String := "'" ++ s ++ "'"

def Tip.message : Tip → String
  | .similarFlag f => "a similar argument exists: " ++ quoted ("--" ++ f.long)
  | .similarCommands [name] => "a similar subcommand exists: " ++ quoted name
  | .similarCommands names =>
    "some similar subcommands exist: " ++ ", ".intercalate (names.map quoted)
  | .asValue argument =>
    "to pass " ++ quoted argument ++ " as a value, use " ++ quoted ("-- " ++ argument)
  | .flagOf v f => quoted (v.name ++ " --" ++ f.long) ++ " exists"
  | .withoutDashes command =>
    "subcommand " ++ quoted command ++ " exists; to use it, remove the '--' before it"

inductive UsageError where
  | unexpectedArgument (argument : String) (tip : Option Tip) (usage : Usage)
  | unknownCommand (name : String) (tip : Option Tip) (usage : Usage)
  /-- A command has no input; `usage` shows the flags that it has. -/
  | missingInput (usage : Usage)
  | missingValue (slot : Slot)
  | invalidNumber (slot : Slot) (value : String) (reason : NumberError)
  | repeated (slot : Slot) (usage : Usage)
  /-- A flag that takes no value has one. -/
  | unwantedValue (f : Flag) (value : String) (usage : Usage)
deriving DecidableEq, Repr, Inhabited

namespace UsageError

/-- What is wrong. -/
def cause : UsageError → String
  | unexpectedArgument argument _ _ => "unexpected argument " ++ quoted argument ++ " found"
  | unknownCommand name _ _ => "unrecognized subcommand " ++ quoted name
  | missingInput _ =>
    "the following required arguments were not provided:\n  " ++ Slot.label .input
  | missingValue slot =>
    "a value is required for " ++ quoted slot.label ++ " but none was supplied"
  | invalidNumber slot value reason =>
    "invalid value " ++ quoted value ++ " for " ++ quoted slot.label ++ ": " ++ reason.message
  | repeated slot _ =>
    "the argument " ++ quoted slot.label ++ " cannot be used multiple times"
  | unwantedValue f value _ =>
    "unexpected value " ++ quoted value ++ " for " ++ quoted f.label
      ++ " found; no more were expected"

def tip? : UsageError → Option Tip
  | unexpectedArgument _ tip _ => tip
  | unknownCommand _ tip _ => tip
  | _ => none

def usage? : UsageError → Option Usage
  | unexpectedArgument _ _ usage => some usage
  | unknownCommand _ _ usage => some usage
  | missingInput usage => some usage
  | repeated _ usage => some usage
  | unwantedValue _ _ usage => some usage
  | missingValue _ => none
  | invalidNumber _ _ _ => none

/-- All that is said about an error. -/
def message (e : UsageError) : String :=
  let tip := match e.tip? with
    | some tip => ["  tip: " ++ tip.message]
    | none => []
  let usage := match e.usage? with
    | some usage => [usage.line]
    | none => []
  let parts := ("error: " ++ e.cause) :: tip ++ usage ++ ["For more information, try '--help'."]
  "\n\n".intercalate parts ++ "\n"

end UsageError

end CopyControl.Command
