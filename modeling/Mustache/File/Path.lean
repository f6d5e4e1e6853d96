import Mustache.Text.Basic

/-!
# Paths

A path is a text with slashes between its parts. The last part is the name of a file, which has a
stem and perhaps an extension.

* `Path.parts`, `Path.fileName?`;
* `Path.stem?`, `Path.extension?`: the name up to its last point, and what follows it. A point
  that starts the name belongs to the stem.
-/

namespace Mustache.Path

/-- What stands between the slashes of a path. -/
def parts (path : String) : List String := (Text.pieces '/' path.toList).map String.ofList

/-- Whether a part stands for the directory it is in. -/
def isHere (part : String) : Bool := part == "" || part == "."

/-- The name of the file, if the path does not end with a step upwards. -/
def fileName? (path : String) : Option String :=
  match ((parts path).filter fun part => !isHere part).getLast? with
  | some ".." => none
  | name => name

/-- A name cut at its last point: the part before it, if there is one, and the part after it. -/
def cutName (name : String) : String × Option String :=
  let cs := name.toList
  let after := (cs.reverse.takeWhile (· != '.')).reverse
  let before := cs.take (cs.length - after.length - 1)
  if before.isEmpty then (name, none) else (String.ofList before, some (String.ofList after))

/-- The name of the file without its extension. -/
def stem? (path : String) : Option String := (fileName? path).map fun name => (cutName name).1

/-- The extension of the file. -/
def extension? (path : String) : Option String := (fileName? path).bind fun name => (cutName name).2

end Mustache.Path
