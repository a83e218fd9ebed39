/-!
The commands of the command line, and what can be said to each.
-/

namespace CopyControl.Command

inductive Verb where
  | render
  | copy
  | watch
deriving DecidableEq, Repr, Inhabited

inductive Flag where
  | output
  | block
  | noHold
  | help
deriving DecidableEq, Repr, Inhabited

/-- A place that an argument fills. -/
inductive Slot where
  | input
  | flag (f : Flag)
deriving DecidableEq, Repr, Inhabited

namespace Flag

def long : Flag → String
  | .output => "output"
  | .block => "block"
  | .noHold => "no-hold"
  | .help => "help"

def short? : Flag → Option Char
  | .output => some 'o'
  | .block => some 'b'
  | .noHold => none
  | .help => some 'h'

/-- The name of the value that a flag takes, if it takes one. -/
def valueName? : Flag → Option String
  | .output => some "OUTPUT"
  | .block => some "BLOCK"
  | .noHold => none
  | .help => none

/-- What a flag that has not been given counts as. -/
def standard? : Flag → Option String
  | .block => some "0"
  | _ => none

/-- A flag as it is written with its value. -/
def label (f : Flag) : String :=
  "--" ++ f.long ++ match f.valueName? with
    | some name => " <" ++ name ++ ">"
    | none => ""

end Flag

def Slot.label : Slot → String
  | .input => "<INPUT>"
  | .flag f => f.label

/-- The name of the program. -/
def programName : String := "copy-code"

/-- What the program is for. -/
def about : String := "Render documentation pages with copy buttons on every code block"

namespace Verb

def all : List Verb := [.render, .copy, .watch]

def name : Verb → String
  | .render => "render"
  | .copy => "copy"
  | .watch => "watch"

def ofName? (name : String) : Option Verb :=
  all.find? (·.name = name)

/-- What a command is for, in a line. -/
def about : Verb → String
  | .render => "Render a Markdown page to HTML with copy controls attached"
  | .copy => "Click the copy control of one code block"
  | .watch => "Re-render a page whenever it changes"

/-- What else there is to know about a command. -/
def details? : Verb → Option String
  | .copy => some <|
    "On Linux the clipboard only keeps text while the process that wrote it is running, so " ++
    "after a successful copy the command stays up serving it until another application copies " ++
    "something or Ctrl-C is pressed. Use --no-hold to exit right away, e.g. when a clipboard " ++
    "manager is running."
  | _ => none

/-- The flags of a command besides the one for help. -/
def options : Verb → List Flag
  | .render => [.output]
  | .copy => [.block, .noHold]
  | .watch => [.output]

def flags (v : Verb) : List Flag := v.options ++ [.help]

/-- What a flag means to a command. -/
def meaning : Verb → Flag → String
  | .watch, .output => "Defaults to the input with an .html extension"
  | _, .output => "Write to this file instead of stdout"
  | _, .block => "Zero-based index of the code block"
  | _, .noHold => "Exit after the label cycle instead of holding the clipboard"
  | _, .help => "Print help"

end Verb

/-! ## Where an argument stands -/

/-- Whose arguments are read: the program's own, those of a command, or those of the command
that prints help. -/
inductive Scope where
  | program
  | verb (v : Verb)
  | help
deriving DecidableEq, Repr, Inhabited

/-- The name of the command that prints help. -/
def helpName : String := "help"

/-- The names that can follow the name of the program. -/
def commandNames : List String := Verb.all.map Verb.name ++ [helpName]

/-- The command line up to where the arguments of a scope begin. -/
def Scope.line : Scope → String
  | .program => programName
  | .verb v => programName ++ " " ++ v.name
  | .help => programName ++ " " ++ helpName

end CopyControl.Command
