/-!
Why an operation on a file can fail, and how each cause is worded.
-/

namespace CopyControl

inductive FileError where
  | notFound
  | notADirectory
  | isADirectory
  | nameTooLong
  | busy
  /-- The file does not hold text. -/
  | notText
  /-- A cause that only the system knows. -/
  | other (reason : String)
deriving DecidableEq, Repr, Inhabited

def FileError.message : FileError → String
  | .notFound => "No such file or directory (os error 2)"
  | .busy => "Device or resource busy (os error 16)"
  | .notADirectory => "Not a directory (os error 20)"
  | .isADirectory => "Is a directory (os error 21)"
  | .nameTooLong => "File name too long (os error 36)"
  | .notText => "stream did not contain valid UTF-8"
  | .other reason => reason

end CopyControl
