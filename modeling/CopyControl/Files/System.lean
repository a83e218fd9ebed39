import CopyControl.Files.Access

/-!
A file system as a value: what is at each location, and the working directory.

A path is followed name by name from the working directory or the root. Every name but the last
has to lead to a directory; the last one may be new where a file is written.
-/

namespace CopyControl

/-- The names that lead from the root to a place. -/
abbrev Location := List String

/-- What a file holds. -/
inductive Contents where
  | text (s : String)
  /-- Bytes that are no text. -/
  | binary (bytes : List UInt8)
deriving DecidableEq, Repr, Inhabited

/-- The text that bytes encode, if they encode one. -/
def Contents.ofBytes (bytes : ByteArray) : Contents :=
  match String.fromUTF8? bytes with
  | some s => .text s
  | none => .binary bytes.toList

inductive Entry where
  | file (contents : Contents)
  | directory
deriving DecidableEq, Repr, Inhabited

structure FileSystem where
  /-- What is at each location below the root. -/
  entries : List (Location × Entry)
  workingDirectory : Location
deriving DecidableEq, Repr, Inhabited

namespace FileSystem

/-- An empty working directory right below the root. -/
def empty (workingDirectory : String) : FileSystem where
  entries := [([workingDirectory], .directory)]
  workingDirectory := [workingDirectory]

/-- What is at a location. The root is always there. -/
def entry? (fs : FileSystem) (l : Location) : Option Entry :=
  if l.isEmpty then some .directory else fs.entries.lookup l

def put (fs : FileSystem) (l : Location) (e : Entry) : FileSystem :=
  { fs with entries := (l, e) :: fs.entries.filter (·.1 ≠ l) }

def erase (fs : FileSystem) (l : Location) : FileSystem :=
  { fs with entries := fs.entries.filter (·.1 ≠ l) }

/-- Puts an entry below a location, in directories that are made where they are missing. -/
def putBelow (fs : FileSystem) (l : Location) (names : List String) (e : Entry) : FileSystem :=
  match names with
  | [] => fs
  | [name] => fs.put (l ++ [name]) e
  | name :: rest =>
    let l := l ++ [name]
    (if (fs.entry? l).isSome then fs else fs.put l .directory).putBelow l rest e

/-! ## Following a path -/

/-- The bytes of the longest name and of the longest path. -/
def nameLimit : Nat := 255

def pathLimit : Nat := 4095

/-- That a location is a directory. -/
def requireDirectory (fs : FileSystem) (l : Location) : Except FileError Unit :=
  match fs.entry? l with
  | some .directory => .ok ()
  | some (.file _) => .error .notADirectory
  | none => .error .notFound

/-- Where a name leads from a directory, whether or not there is anything. -/
def beside (l : Location) (name : String) : Except FileError Location :=
  if nameLimit < name.utf8ByteSize then .error .nameTooLong
  else if name = FilePath.here then .ok l
  else if name = FilePath.above then .ok l.dropLast
  else .ok (l ++ [name])

/-- Follows one name from a location to one that is there. -/
def follow (fs : FileSystem) (l : Location) (name : String) : Except FileError Location := do
  fs.requireDirectory l
  let l ← beside l name
  if (fs.entry? l).isSome then .ok l else .error .notFound

/-- Where a path starts from. -/
def origin (fs : FileSystem) (p : FilePath) : Except FileError Location :=
  if p.text.isEmpty then .error .notFound
  else if pathLimit < p.text.utf8ByteSize then .error .nameTooLong
  else if p.isAbsolute then .ok []
  else .ok fs.workingDirectory

/-- Where a path leads to, which has to be there. -/
def locate (fs : FileSystem) (p : FilePath) : Except FileError Location := do
  let l ← p.names.foldlM fs.follow (← fs.origin p)
  if p.endsInSlash then fs.requireDirectory l
  return l

/-- The last name of a path if a file can have it, and the directory that the rest leads to. -/
def locateParent (fs : FileSystem) (p : FilePath) :
    Except FileError (Location × Option String) := do
  let l ← p.names.dropLast.foldlM fs.follow (← fs.origin p)
  fs.requireDirectory l
  return (l, p.names.getLast?.filter fun name => FilePath.isFileName name.toList)

/-! ## Files -/

def isThere (fs : FileSystem) (p : FilePath) : Bool :=
  (fs.locate p).isOk

def readText (fs : FileSystem) (p : FilePath) : Except FileError String := do
  match fs.entry? (← fs.locate p) with
  | some (.file (.text s)) => .ok s
  | some (.file (.binary _)) => .error .notText
  | some .directory => .error .isADirectory
  | none => .error .notFound

/-- The location at which a file can be written. -/
def target (fs : FileSystem) (p : FilePath) : Except FileError Location := do
  match ← fs.locateParent p with
  | (l, some name) =>
    let l ← beside l name
    if p.endsInSlash || fs.entry? l = some .directory then .error .isADirectory else .ok l
  | (_, none) =>
    let _ ← fs.locate p
    .error .isADirectory

def writeText (fs : FileSystem) (p : FilePath) (text : String) :
    Except FileError FileSystem := do
  return fs.put (← fs.target p) (.file (.text text))

/-- The location to which a file can be moved. -/
def destination (fs : FileSystem) (p : FilePath) : Except FileError Location := do
  match ← fs.locateParent p with
  | (l, some name) =>
    let l ← beside l name
    if p.endsInSlash then .error .notADirectory
    else if fs.entry? l = some .directory then .error .isADirectory
    else .ok l
  | (_, none) => .error .busy

/-- Moves a file. -/
def rename (fs : FileSystem) (p q : FilePath) : Except FileError FileSystem := do
  let source ← fs.locate p
  let destination ← fs.destination q
  match fs.entry? source with
  | some e => .ok ((fs.erase source).put destination e)
  | none => .error .notFound

end FileSystem

/-- A program on a file system. -/
abbrev FileState := StateM FileSystem

/-- Goes on with what an operation leaves if it succeeds. -/
def FileState.change (op : FileSystem → Except FileError FileSystem) :
    FileState (Except FileError Unit) := do
  match op (← get) with
  | .ok fs => set fs; return .ok ()
  | .error e => return .error e

instance : Files FileState where
  isThere p := return (← get).isThere p
  readText p := return (← get).readText p
  writeText p text := FileState.change (·.writeText p text)
  rename p q := FileState.change (·.rename p q)

end CopyControl
