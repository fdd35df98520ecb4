/-!
# Files

Why a file cannot be read or written, with the wording of the operating system.
-/

namespace MotionScript

/-- Why a file cannot be read or written. -/
inductive FileError where
  | missing
  | isDirectory
  /-- A part of the path that has to be a directory is none. -/
  | notDirectory
  /-- A part of the path has more bytes than a name can have, or the path has. -/
  | nameTooLong
  /-- The path holds the character that ends paths for the system. -/
  | brokenName
  /-- The bytes of the file are no text. -/
  | notText
  /-- Anything else, in the words of the system. -/
  | other (reason : String)
deriving DecidableEq, Repr

/-- The wording of an error. -/
def FileError.message : FileError → String
  | missing => "No such file or directory (os error 2)"
  | isDirectory => "Is a directory (os error 21)"
  | notDirectory => "Not a directory (os error 20)"
  | nameTooLong => "File name too long (os error 36)"
  | brokenName => "file name contained an unexpected NUL byte"
  | notText => "stream did not contain valid UTF-8"
  | other reason => reason

end MotionScript
