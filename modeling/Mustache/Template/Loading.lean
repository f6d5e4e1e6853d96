import Mustache.File.Error
import Mustache.File.Path
import Mustache.Template.Basic

/-!
# Templates in files

A template in a file is registered under the stem of the file's name.

* `LibraryError`, `LibraryError.message`;
* `Library.registerFile`: one file, given what reading it came to;
* `Library.registerFiles`: several of them, of which those with a fault are passed over.
-/

namespace Mustache

/-- Why the template of a file is not registered. -/
inductive LibraryError where
  | unreadable (path : String) (reason : FileError)
  | faulty (name : String) (fault : ParseError)
  deriving DecidableEq, Repr

/-- The wording of an error. -/
def LibraryError.message : LibraryError → String
  | .unreadable path reason => "error reading template file " ++ path ++ ": " ++ reason.message
  | .faulty name fault => "error compiling template '" ++ name ++ "': " ++ fault.message

namespace Library

/-- The template of a file is added: what comes of it, and the library then. -/
def registerFile (l : Library) (path : String) (content : Except FileError String) :
    Except LibraryError Unit × Library :=
  match content with
  | .error reason => (.error (.unreadable path reason), l)
  | .ok source =>
    let name := (Path.stem? path).getD ""
    match l.registerSource name source with
    | (.error fault, l) => (.error (.faulty name fault), l)
    | (.ok (), l) => (.ok (), l)

/-- The library after the templates of files have been added, and how many it has taken. -/
def registerFiles (l : Library) (files : List (String × Except FileError String)) : Library × Nat :=
  files.foldl
    (fun (l, count) (path, content) =>
      match l.registerFile path content with
      | (.ok (), l) => (l, count + 1)
      | (.error _, l) => (l, count))
    (l, 0)

end Library

end Mustache
