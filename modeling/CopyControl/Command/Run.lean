import CopyControl.Command.Arguments
import CopyControl.Command.Help
import CopyControl.Command.Watch
import CopyControl.Markdown.Reader

/-!
Doing what the program is asked to do.
-/

namespace CopyControl

/-- How a run of the program ends. -/
structure Outcome where
  code : Nat
  stdout : String
  stderr : String
deriving DecidableEq, Repr, Inhabited

namespace Outcome

def success (stdout : String) : Outcome where
  code := 0
  stdout := stdout
  stderr := ""

/-- The same with log lines in front of the errors. -/
def withLog (o : Outcome) (lines : String) : Outcome :=
  { o with stderr := lines ++ o.stderr }

/-- A failure after something may have been printed. -/
def failed (f : Failure) (stdout : String) : Outcome where
  code := 1
  stdout := stdout
  stderr := f.report

/-- The outcome where reading the arguments stops. Asked for, help is no error. -/
def ofStop : Command.Stop → Outcome
  | .usage e => { code := 2, stdout := "", stderr := e.message }
  | .help scope long => success (scope.helpText long)
  | .nothingSaid => { code := 2, stdout := "", stderr := Command.Scope.helpText .program false }

end Outcome

/-- What the program finds where it is run. -/
structure Surroundings where
  clipboard : ClipboardLink
  home : Option FilePath
  /-- A log filter that goes before the one in the settings. -/
  logFilter : Option String
  /-- How the source of a page is read. -/
  reader : Markdown.Reader := Markdown.read
deriving Inhabited

/-- The log filter in force. -/
def Surroundings.filter (s : Surroundings) (settings : Settings) : LogFilter :=
  .ofText (s.logFilter.getD settings.logFilter)

namespace Command

/-! ## Copying a block -/

/-- The label of a control, on a line. -/
def labelLine (h : Host) (control : NodeId) : String :=
  "[" ++ ((h.document.controlLabel? control).getD default).text ++ "]\n"

/-- How long after a click its control is looked at for the last time. -/
def lastLook : Nat := Enhance.revertDelay + 50

def holding : String :=
  "Holding the clipboard until something else is copied (Ctrl-C to stop)\n"

/-- Clicks the control of a block, and shows its label before, after, and when it is back. -/
def clickControl (h : Host) (block : Nat) (control : NodeId) (hold : Bool) : Outcome × Host :=
  let clicked := (h.click control).2
  let later := clicked.sleep lastLook
  let shown := labelLine h control ++ labelLine clicked control ++ labelLine later control
  if clicked.document.controlLabel? control = some .error then
    (.failed (.notCopied block) shown, later)
  else (.success (shown ++ if hold then holding else ""), later)

/-- Copies a block of a page. -/
def copyBlock (h : Host) (input : FilePath) (block : Nat) (hold : Bool) : Outcome × Host :=
  let blocks := h.document.codeBlocks
  match blocks[block]? with
  | none => (.failed (.noBlock block input blocks.length) "", h)
  | some code =>
    match h.document.controlFor? code with
    | none => (.failed (.noControl block) "", h)
    | some control => clickControl h block control hold

/-! ## All commands -/

/-- What a command comes to: an end, or a watch that does not end by itself. -/
inductive Course where
  | ends (o : Outcome)
  | watches (w : Watch) (filter : LogFilter)
deriving Inhabited

variable {m : Type → Type} [Monad m] [Files m]

/-- Puts a page into a file or, without one, on the standard output. -/
def publish (h : Host) : Option FilePath → m Outcome
  | none => return .success h.document.pageHtml
  | some output => do
    match ← LivePage.save h output with
    | .error e => return .failed e ""
    | .ok _ => return .success ("✓ Wrote " ++ output.text ++ "\n")

/-- Loads a page, does something with it, and lets go of it. -/
def withPage (s : Surroundings) (settings : Settings) (input : FilePath)
    (work : Host → m (Outcome × Host)) : m Course := do
  match ← LivePage.load s.reader s.clipboard settings input with
  | .error e => return .ends (.failed e "")
  | .ok h =>
    let (o, h) ← work h
    return .ends (o.withLog ((s.filter settings).lines (LivePage.close h)))

/-- Runs a command. -/
def run (s : Surroundings) (settings : Settings) : Command → m Course
  | .render input output => withPage s settings input fun h => return (← publish h output, h)
  | .copy input block hold =>
    withPage s settings input fun h => return copyBlock h input block hold
  | .watch input output =>
    let w := ⟨input, output.getD (defaultOutput input), settings, s.clipboard, s.reader⟩
    return .watches w (s.filter settings)

/-- Does what arguments ask for. -/
def start (s : Surroundings) (arguments : List String) : m Course := do
  match read arguments, s.home with
  | .error stop, _ => return .ends (.ofStop stop)
  | .ok _, none => return .ends (.failed .noHome "")
  | .ok command, some home =>
    match ← Settings.load (Settings.file home) with
    | .error e => return .ends (.failed (.settings e) "")
    | .ok settings => command.run s settings

end Command

end CopyControl
