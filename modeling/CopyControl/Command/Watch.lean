import CopyControl.Command.Page
import CopyControl.Files.System

/-!
Watching a page: it is written once, and again after every change of its source.

Changes come as notices. After one the watch waits until it has been quiet for a while, forgets
the notices that have come meanwhile, and reads the source as it then is. The watch goes from
stage to stage, and everything else that happens to the files happens between two stages.
-/

namespace CopyControl

/-- What is watched, and how. -/
structure Watch where
  input : FilePath
  output : FilePath
  settings : Settings
  clipboard : ClipboardLink
  reader : Markdown.Reader
deriving Inhabited

namespace Watch

/-- How far a watch has come, with the live page once there is one. -/
inductive Stage where
  /-- The source is to be read for the first time. -/
  | opening
  /-- The page is to be written for the first time. -/
  | saving (page : Host)
  /-- Notices of changes are to be asked for. -/
  | subscribing (page : Host)
  | waiting (page : Host)
  /-- A notice has come, and quiet is waited for. -/
  | quieting (page : Host)
  /-- The source is to be read again. -/
  | reading (page : Host)
  | reloading (page : Host) (markdown : String)
  /-- The page is to be written again. -/
  | resaving (page : Host)
  | ended (failure : Failure)
deriving Repr, Inhabited

/-- Whether notices of changes come. -/
def Stage.isSubscribed : Stage → Bool
  | .opening => false
  | .saving _ => false
  | .subscribing _ => false
  | .ended _ => false
  | _ => true

/-- The live page of a stage. -/
def Stage.page? : Stage → Option Host
  | .saving h => some h
  | .subscribing h => some h
  | .waiting h => some h
  | .quieting h => some h
  | .reading h => some h
  | .reloading h _ => some h
  | .resaving h => some h
  | _ => none

/-- Changes the live page of a stage. -/
def Stage.mapPage (f : Host → Host) : Stage → Stage
  | .saving h => .saving (f h)
  | .subscribing h => .subscribing (f h)
  | .waiting h => .waiting (f h)
  | .quieting h => .quieting (f h)
  | .reading h => .reading (f h)
  | .reloading h markdown => .reloading (f h) markdown
  | .resaving h => .resaving (f h)
  | stage => stage

/-! ## Reports -/

def watching (w : Watch) : LogEntry where
  level := .info
  message := "watching for changes"
  fields := [("input", w.input.text), ("output", w.output.text)]

def raised (s : Settings) : LogEntry where
  level := .warn
  message := "watch_debounce_ms is below the minimum, using the minimum"
  fields :=
    [("configured_ms", toString s.watchDebounce), ("minimum_ms", toString Settings.leastDebounce)]

def kept (e : FileError) : LogEntry where
  level := .warn
  message := "could not read page, keeping previous render"
  fields := [("error", e.message)]

/-- Reports what is watched, and that the time of quiet is raised if it is. -/
def announce (w : Watch) (h : Host) : Host :=
  let h := h.record w.watching
  if w.settings.isClamped then h.record (raised w.settings) else h

/-! ## From stage to stage -/

/-- What follows from an operation that can fail. -/
def Stage.after {α : Type} (next : α → Stage) : Except Failure α → Stage
  | .ok a => next a
  | .error e => .ended e

/-- Goes on to the next stage, unless a notice or quiet is waited for. A source that cannot be
read again leaves the page as it was. -/
def advance {m : Type → Type} [Monad m] [Files m] (w : Watch) : Stage → m Stage
  | .opening => return .after .saving (← LivePage.load w.reader w.clipboard w.settings w.input)
  | .saving h => return .after (fun _ => .subscribing h) (← LivePage.save h w.output)
  | .subscribing h => do
    if ← Files.isThere w.input then return .waiting (w.announce h)
    else return .ended (.resolvePage w.input)
  | .reading h => do
    match ← Files.readText w.input with
    | .ok markdown => return .reloading h markdown
    | .error e => return .waiting (h.record (kept e))
  | .reloading h markdown =>
    return .after .resaving ((LivePage.reload w.reader h markdown).mapError .replaceBody)
  | .resaving h => return .after (fun _ => .waiting h) (← LivePage.save h w.output)
  | stage => return stage

/-- Goes on when it has been quiet for long enough. -/
def endQuiet (w : Watch) (h : Host) : Stage :=
  .reading (h.sleep w.settings.debounce.toNat)

/-! ## Watching among others -/

/-- A watch and the files that it and others work on. -/
structure State where
  watch : Watch
  files : FileSystem
  stage : Stage
  /-- Notices that have come and are not looked at yet. -/
  notices : Nat
  /-- Changes of the source that there will be a notice of. -/
  unreported : Nat
deriving Inhabited

/-- Something that happens. -/
inductive Move where
  /-- The watch goes on, if it can. -/
  | proceed
  /-- A notice of a change comes. -/
  | report
  /-- Somebody replaces what a file holds. -/
  | edit (path : FilePath) (contents : Contents)
deriving DecidableEq, Repr, Inhabited

namespace State

def start (w : Watch) (files : FileSystem) : State where
  watch := w
  files := files
  stage := .opening
  notices := 0
  unreported := 0

def proceed (s : State) : State :=
  match s.stage with
  | .waiting h =>
    if s.notices = 0 then s
    else { s with stage := .quieting h, notices := s.notices - 1 }
  | .quieting h => { s with stage := s.watch.endQuiet h, notices := 0 }
  | stage =>
    let next : FileState Stage := s.watch.advance stage
    let (stage, files) := next.run s.files
    { s with stage := stage, files := files }

def report (s : State) : State :=
  if s.unreported = 0 then s
  else { s with notices := s.notices + 1, unreported := s.unreported - 1 }

def edit (s : State) (path : FilePath) (contents : Contents) : State :=
  match s.files.target path with
  | .error _ => s
  | .ok l =>
    let isSource := (s.files.target s.watch.input).toOption == some l
    { s with
      files := s.files.put l (.file contents)
      unreported := if s.stage.isSubscribed && isSource then s.unreported + 1 else s.unreported }

def move (s : State) : Move → State
  | .proceed => s.proceed
  | .report => s.report
  | .edit path contents => s.edit path contents

/-- Whether the watch waits for a notice and none is there or on its way, or has ended. -/
def isIdle (s : State) : Bool :=
  match s.stage with
  | .waiting _ => s.notices = 0 && s.unreported = 0
  | .ended _ => true
  | _ => false

end State

end Watch

end CopyControl
