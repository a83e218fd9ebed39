/-!
Clipboards.

A memory clipboard keeps the text written last and counts the attempts to write. It is reached
through a link that can take time and can be out.
-/

namespace CopyControl

/-- Why a write failed. -/
inductive ClipboardError where
  | unavailable (reason : String)
  | denied (reason : String)
deriving DecidableEq, Repr, Inhabited

def ClipboardError.message : ClipboardError → String
  | .unavailable reason => "clipboard unavailable: " ++ reason
  | .denied reason => "clipboard write denied: " ++ reason

structure MemoryClipboard where
  contents : Option String
  /-- Attempts to write, refused ones included. -/
  writes : Nat
  /-- While set, writes are refused for this reason. -/
  denial : Option String
deriving DecidableEq, Repr, Inhabited

namespace MemoryClipboard

def empty : MemoryClipboard where
  contents := none
  writes := 0
  denial := none

def write (c : MemoryClipboard) (text : String) : Except ClipboardError Unit × MemoryClipboard :=
  let c := { c with writes := c.writes + 1 }
  match c.denial with
  | some reason => (.error (.denied reason), c)
  | none => (.ok (), { c with contents := some text })

end MemoryClipboard

/-- A memory clipboard and the way to it. -/
structure ClipboardLink where
  memory : MemoryClipboard
  /-- Milliseconds until a write arrives. -/
  delay : Nat
  /-- While set, writes do not arrive for this reason. -/
  outage : Option String
deriving DecidableEq, Repr, Inhabited

namespace ClipboardLink

def direct : ClipboardLink where
  memory := .empty
  delay := 0
  outage := none

/-- A write whose delay is over. -/
def write (l : ClipboardLink) (text : String) : Except ClipboardError Unit × ClipboardLink :=
  match l.outage with
  | some reason => (.error (.unavailable reason), l)
  | none =>
    let (outcome, memory) := l.memory.write text
    (outcome, { l with memory := memory })

end ClipboardLink

end CopyControl
