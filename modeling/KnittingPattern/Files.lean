/-! # Files

How a program reads and writes files: by path, as texts, in any monad.  An access that fails says
why.  `FileAccess.read` and `FileAccess.write` are all that the other modules know of files. -/

namespace KnittingPattern

/-- Why a file cannot be read or written. -/
inductive FileError where
  | notFound
  | isDirectory
  | notDirectory
  | nameTooLong
  /-- A path holds the character of number zero. -/
  | nulInPath
  /-- The file is not a text. -/
  | notText
  | other (message : String)
deriving DecidableEq

namespace FileError

def message : FileError → String
  | notFound => "No such file or directory (os error 2)"
  | isDirectory => "Is a directory (os error 21)"
  | notDirectory => "Not a directory (os error 20)"
  | nameTooLong => "File name too long (os error 36)"
  | nulInPath => "file name contained an unexpected NUL byte"
  | notText => "stream did not contain valid UTF-8"
  | other message => message

end FileError

/-- The means to read and write files. -/
structure FileAccess (m : Type → Type) where
  read : (path : String) → m (Except FileError String)
  write : (path text : String) → m (Except FileError Unit)

end KnittingPattern
