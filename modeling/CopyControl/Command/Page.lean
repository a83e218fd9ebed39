import CopyControl.Document.Html
import CopyControl.Files.Access
import CopyControl.Host.Run
import CopyControl.Markdown.Page
import CopyControl.Settings

/-!
Pages as the commands work with them: read from a file, made live with a session that keeps
them enhanced, and written to a file. How the source is read is up to the reader that is given.

A page is written beside its place first and then moved there, so that nobody reads a page that
is only half written.
-/

namespace CopyControl

/-- Why a command fails. -/
inductive Failure where
  | noHome
  | settings (e : Settings.LoadError)
  | readPage (input : FilePath) (cause : FileError)
  | buildPage (input : FilePath) (cause : DocumentError)
  | writeTemporary (temporary : FilePath) (cause : FileError)
  | moveTemporary (output : FilePath) (cause : FileError)
  | resolvePage (input : FilePath)
  | replaceBody (cause : DocumentError)
  | noBlock (number : Nat) (input : FilePath) (found : Nat)
  | noControl (number : Nat)
  | notCopied (number : Nat)
deriving DecidableEq, Repr, Inhabited

namespace Failure

def message : Failure → String
  | noHome => "Could not find home directory"
  | settings e => e.message
  | readPage input _ => "Failed to read file: " ++ input.text
  | buildPage input _ => "Failed to render " ++ input.text
  | writeTemporary temporary _ => "Failed to write to temp file: " ++ temporary.text
  | moveTemporary output _ => "Failed to rename temp file to: " ++ output.text
  | resolvePage input => "Failed to resolve " ++ input.text
  | replaceBody cause => cause.message
  | noBlock number input found => s!"No code block {number} in {input.text} ({found} found)"
  | noControl number => s!"Code block {number} has no copy control"
  | notCopied number => s!"Could not copy code block {number}"

/-- What lies behind a failure, where it is known. -/
def cause? : Failure → Option String
  | settings (.unreadable _ cause) => some cause.message
  | readPage _ cause => some cause.message
  | buildPage _ cause => some cause.message
  | writeTemporary _ cause => some cause.message
  | moveTemporary _ cause => some cause.message
  | _ => none

/-- All that is said about a failure. -/
def report (f : Failure) : String :=
  let cause := match f.cause? with
    | some cause => "\n\nCaused by:\n    " ++ cause
    | none => ""
  "Error: " ++ f.message ++ cause ++ "\n"

end Failure

namespace LivePage

/-- The name of the clipboard that the controls of a page write to. -/
def clipboardName : String := "desktop"

/-- The number of the session that keeps a page enhanced. -/
def session : Nat := 0

/-- A live page from its source. -/
def ofMarkdown (reader : Markdown.Reader) (clipboard : ClipboardLink) (settings : Settings)
    (markdown : String) : Except DocumentError Host := do
  let d ← Markdown.buildPage (reader markdown) ⟨settings.stylesheet⟩
  let h := (Host.start d.markReady).setClipboard clipboardName clipboard
  return (h.attachSession clipboardName none).2

def rendered (s : PassSummary) : LogEntry where
  level := .info
  message := "page re-rendered"
  fields := [("blocks", toString s.found), ("enhanced", toString s.enhanced)]

/-- Gives a live page a new source. The pass at the end has the new blocks enhanced before
anybody looks. -/
def reload (reader : Markdown.Reader) (h : Host) (markdown : String) : Except DocumentError Host :=
  match h.edit (Markdown.replaceBody (reader markdown)) with
  | (.error e, _) => .error e
  | (.ok _, h) =>
    match h.flushSession session with
    | (some summary, h) => .ok (h.record (rendered summary))
    | (none, h) => .ok h

/-- Lets go of a live page; answers all that it has reported, in order. -/
def close (h : Host) : List LogEntry :=
  (h.closeSession session).log.reverse

variable {m : Type → Type} [Monad m] [Files m]

/-- Makes the page in a file live. -/
def load (reader : Markdown.Reader) (clipboard : ClipboardLink) (settings : Settings)
    (input : FilePath) : m (Except Failure Host) := do
  match ← Files.readText input with
  | .error e => return .error (.readPage input e)
  | .ok markdown =>
    return (ofMarkdown reader clipboard settings markdown).mapError (.buildPage input)

/-- Where a page is written before it is moved to its place. -/
def temporary (output : FilePath) : FilePath :=
  output.withExtension "tmp"

/-- Writes a page to a file. -/
def save (h : Host) (output : FilePath) : m (Except Failure Unit) := do
  match ← Files.writeText (temporary output) h.document.pageHtml with
  | .error e => return .error (.writeTemporary (temporary output) e)
  | .ok _ =>
    match ← Files.rename (temporary output) output with
    | .error e => return .error (.moveTemporary output e)
    | .ok _ => return .ok ()

end LivePage

end CopyControl
