import CopyControl.Files.Error
import CopyControl.Files.Path

/-!
Access to files, whatever keeps them.
-/

namespace CopyControl

/-- What a program can do with files. -/
class Files (m : Type → Type) where
  /-- Whether there is anything at a path. -/
  isThere : FilePath → m Bool
  /-- All of a file that holds text. -/
  readText : FilePath → m (Except FileError String)
  /-- Makes a file hold a text, and creates it where there is none. -/
  writeText : FilePath → String → m (Except FileError Unit)
  /-- Moves a file to another path, in the place of the file that may be there. -/
  rename : FilePath → FilePath → m (Except FileError Unit)

end CopyControl
