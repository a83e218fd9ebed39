/-!
Paths of files.

A path is a text whose names stand between slashes. It is kept as it was written: a slash at its
end and names that say "here" are dropped only where an operation says so.
-/

namespace CopyControl

structure FilePath where
  text : String
deriving DecidableEq, Repr, Inhabited

namespace FilePath

/-- The name of the directory that a path has come to. -/
def here : String := "."

/-- The name of the directory above it. -/
def above : String := ".."

/-- Whether a path starts at the root and not at the working directory. -/
def isAbsolute (p : FilePath) : Bool :=
  p.text.toList.head? = some '/'

def endsInSlash (p : FilePath) : Bool :=
  p.text.toList.getLast? = some '/'

/-- The names of a path, first to last. Slashes that follow each other divide once. -/
def names (p : FilePath) : List String :=
  ((p.text.toList.splitOn '/').filter (!·.isEmpty)).map String.ofList

/-- A path below another one; one that starts at the root stands for itself. -/
def join (p q : FilePath) : FilePath :=
  if q.isAbsolute then q
  else if p.text.isEmpty || p.endsInSlash then ⟨p.text ++ q.text⟩
  else ⟨p.text ++ "/" ++ q.text⟩

/-! ## Extensions

A name ends in an extension if it has a dot that is not its first character. The extension
begins behind the last dot. -/

/-- A name, backwards, without its extension and the dot in front of it. -/
def stemBackward (name : List Char) : List Char :=
  match name.dropWhile (· != '.') with
  | '.' :: c :: stem => c :: stem
  | _ => name

/-- A path, backwards, without slashes at its end and names at its end that say "here". -/
def trimBackward : List Char → List Char
  | '/' :: rest => trimBackward rest
  | '.' :: '/' :: rest => trimBackward rest
  | path => path

/-- Whether a name is one that a file can have. -/
def isFileName (name : List Char) : Bool :=
  !name.isEmpty && name != here.toList && name != above.toList

/-- Gives the last name of a path an extension in place of the one it has. A path that does not
end in the name of a file stays as it is. -/
def withExtension (p : FilePath) (extension : String) : FilePath :=
  let path := trimBackward p.text.toList.reverse
  let name := path.takeWhile (· != '/')
  if isFileName name.reverse then
    let stem := (stemBackward name ++ path.drop name.length).reverse
    ⟨.ofList (stem ++ '.' :: extension.toList)⟩
  else p

end FilePath

/-- Where a page goes if nothing else is said: beside its source. -/
def defaultOutput (input : FilePath) : FilePath :=
  input.withExtension "html"

end CopyControl
