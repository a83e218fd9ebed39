import CopyControl.Command.Run

/-!
The command line: files, standard streams and time as the system has them.
-/

namespace CopyControl

/-- Whether a number that the system gives for an error is `code`, with either sign. -/
def isErrorCode (number code : UInt32) : Bool :=
  number = code || number + code = 0

/-- What a failed system call says about a file. -/
def FileError.ofSystem : IO.Error → FileError
  | .noFileOrDirectory _ _ _ => .notFound
  | .inappropriateType _ number details =>
    if isErrorCode number 20 then .notADirectory
    else if isErrorCode number 21 then .isADirectory
    else .other details
  | e => .other (toString e)

/-- Runs an operation on files. -/
def attempt {α : Type} (operation : IO α) : IO (Except FileError α) := do
  try return .ok (← operation)
  catch e => return .error (.ofSystem e)

instance : Files IO where
  isThere p := return (← attempt (IO.FS.Handle.mk p.text .read)).toBool
  readText p := do
    match ← attempt (IO.FS.readBinFile p.text) with
    | .error e => return .error e
    | .ok bytes => return ((String.fromUTF8? bytes).map Except.ok).getD (.error .notText)
  writeText p text := attempt (IO.FS.writeFile p.text text)
  rename p q := attempt (IO.FS.rename p.text q.text)

/-- Milliseconds between two looks at a source that is watched. -/
def lookInterval : UInt32 := 100

/-- Prints the log of a stage and empties it. -/
def showLog (filter : LogFilter) (stage : Watch.Stage) : IO Watch.Stage := do
  match stage.page? with
  | some h =>
    (← IO.getStderr).putStr (filter.lines h.log.reverse)
    return stage.mapPage fun h => { h with log := [] }
  | none => return stage

/-- Goes on with a watch for as long as it lasts. A notice is that the source holds another
text than it did. -/
partial def follow (w : Watch) (filter : LogFilter) (seen : Option String)
    (stage : Watch.Stage) : IO UInt32 := do
  match ← showLog filter stage with
  | .ended f =>
    (← IO.getStderr).putStr f.report
    return 1
  | .waiting h =>
    IO.sleep lookInterval
    match ← Files.readText w.input with
    | .error _ => follow w filter seen (.waiting h)
    | .ok text =>
      if seen = some text then follow w filter seen (.waiting h)
      else follow w filter (some text) (if seen.isNone then .waiting h else .quieting h)
  | .quieting h =>
    IO.sleep w.settings.debounce.toUInt32
    follow w filter seen (w.endQuiet h)
  | stage => follow w filter seen (← w.advance stage)

end CopyControl

open CopyControl in
def main (arguments : List String) : IO UInt32 := do
  let surroundings : Surroundings :=
    { clipboard := { ClipboardLink.direct with outage := some "no desktop" }
      home := (← IO.getEnv "HOME").map fun home => ⟨home⟩
      logFilter := ← IO.getEnv "COPY_CODE_LOG" }
  match ← Command.start surroundings arguments with
  | .ends o =>
    (← IO.getStdout).putStr o.stdout
    (← IO.getStderr).putStr o.stderr
    return o.code.toUInt32
  | .watches w filter => follow w filter none .opening
