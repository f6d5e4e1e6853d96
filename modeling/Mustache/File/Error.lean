/-!
# Failures of reading a file

* `FileError`, `FileError.message`.
-/

namespace Mustache

/-- Why the text of a file cannot be read. -/
inductive FileError where
  | notFound
  | isDirectory
  | notDirectory
  | invalidText
  /-- Any other reason, in the words of the system. -/
  | other (reason : String)
  deriving DecidableEq, Repr

/-- The wording of a failure. -/
def FileError.message : FileError → String
  | .notFound => "No such file or directory (os error 2)"
  | .isDirectory => "Is a directory (os error 21)"
  | .notDirectory => "Not a directory (os error 20)"
  | .invalidText => "stream did not contain valid UTF-8"
  | .other reason => reason

end Mustache
