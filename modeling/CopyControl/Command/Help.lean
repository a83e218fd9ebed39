import CopyControl.Command.Usage

/-!
The texts that explain the program and its commands.
-/

namespace CopyControl.Command

def padRight (s : String) (width : Nat) : String :=
  s ++ .ofList (List.replicate (width - s.length) ' ')

/-- Rows of two columns, the left ones as wide as the widest. -/
def table (rows : List (String × String)) : List String :=
  let width := (rows.map (·.1.length)).foldl max 0
  rows.map fun (left, right) => "  " ++ padRight left width ++ "  " ++ right

/-- A flag with its short form, or with a gap where it would be. -/
def Flag.forms (f : Flag) : String :=
  match f.short? with
  | some c => .ofList ['-', c, ',', ' '] ++ f.label
  | none => "    " ++ f.label

/-- What the flag for help says about the other form of help. A command has two forms of help
if it has details. -/
def Verb.helpNote (v : Verb) (long : Bool) : String :=
  if v.details?.isNone then ""
  else if long then " (see a summary with '-h')"
  else " (see more with '--help')"

/-- What a flag means, with a note. -/
def Verb.explanation (v : Verb) (long : Bool) (f : Flag) : String :=
  v.meaning f ++ if f = .help then v.helpNote long else ""

def Flag.standardNote? (f : Flag) : Option String :=
  f.standard?.map fun s => "[default: " ++ s ++ "]"

/-- Help with a line for each flag. -/
def Verb.summary (v : Verb) : List String :=
  let row (f : Flag) :=
    let note := match f.standardNote? with
      | some note => " " ++ note
      | none => ""
    (f.forms, v.explanation false f ++ note)
  [v.about, "", (Usage.general (.verb v)).line, "", "Arguments:"]
    ++ table [(Slot.label .input, "")]
    ++ ["", "Options:"] ++ table (v.flags.map row)

/-- The margin of explanations that have lines of their own. -/
def margin : String := "          "

/-- Help with a paragraph for each flag. -/
def Verb.manual (v : Verb) (details : String) : List String :=
  let paragraph (f : Flag) :=
    let note := match f.standardNote? with
      | some note => [margin, margin ++ note]
      | none => []
    "\n".intercalate (("  " ++ f.forms) :: (margin ++ v.explanation true f) :: note)
  [v.about, "", details, "", (Usage.general (.verb v)).line, "", "Arguments:",
    "  " ++ Slot.label .input, margin, "", "Options:",
    "\n\n".intercalate (v.flags.map paragraph)]

def helpAbout : String := "Print this message or the help of the given subcommand(s)"

/-- Help on the program. -/
def programHelp : List String :=
  [about, "", (Usage.general .program).line, "", "Commands:"]
    ++ table (Verb.all.map (fun v => (v.name, v.about)) ++ [(helpName, helpAbout)])
    ++ ["", "Options:"] ++ table [(Flag.forms .help, Verb.meaning .render .help)]

/-- Help on the command that prints help. -/
def helpHelp : List String :=
  [helpAbout, "", (Usage.general .help).line, "", "Arguments:"]
    ++ table [("[COMMAND]...", "Print help for the subcommand(s)")]

/-- Help on a scope; the long form where it has one and `long` asks for it. -/
def Scope.helpText (scope : Scope) (long : Bool) : String :=
  let lines := match scope with
    | .program => programHelp
    | .help => helpHelp
    | .verb v =>
      match v.details?, long with
      | some details, true => v.manual details
      | _, _ => v.summary
  "\n".intercalate lines ++ "\n"

end CopyControl.Command
