import Mustache.Entries
import Mustache.Yaml.Node
import Mustache.Yaml.Token

/-!
# Reading tokens

* `Source`: the tokens that are left, with the anchors and the handles so far;
* `Reader`: a step that reads from a source or fails; `peek`, `advance`, `isAt`, `accept`,
  `require`, `unlessAt`: steps of one token;
* `properties`: an anchor and a tag; `anchorNumber`, `aliasNumber`: the numbers of anchors.
-/

namespace Mustache.Yaml

/-- The tokens that are left, the numbers of the anchors so far, and the handles of tags. -/
structure Source where
  tokens : List Token
  anchors : List (String × Nat)
  handles : List (String × List UInt8)

/-- A step that reads from a source or fails. -/
abbrev Reader := StateT Source Option

namespace Reader

/-! ## Tokens -/

/-- The next token, which stays. -/
def peek : Reader (Option Token) := return (← get).tokens.head?

/-- The next token is passed. -/
def advance : Reader Unit := modify fun s => { s with tokens := s.tokens.tail }

/-- Whether the next token is one of several marks. -/
def isAt (marks : List Mark) : Reader Bool := do
  let next ← peek
  return marks.any fun m => next == some (.mark m)

/-- The mark is passed if it comes next. -/
def accept (m : Mark) : Reader Bool := do
  if ← isAt [m] then
    advance
    return true
  else return false

/-- The mark has to come next. -/
def require (m : Mark) : Reader Unit := do
  if !(← accept m) then failure

/-- A node, unless one of the marks that end it comes next. -/
def unlessAt (marks : List Mark) (node : Reader Node) : Reader Node := do
  if ← isAt marks then return .missing else node

/-! ## Tags and anchors -/

/-- The bytes of a tag. -/
def tagBytes (name : TagName) : Reader (List UInt8) := do
  match name.handle with
  | none => return name.suffix
  | some handle =>
    match (← get).handles.lookup handle with
    | some start => return start ++ name.suffix
    | none => failure

/-- A tag, if there is one. -/
def tag? : Reader (Option (List UInt8)) := do
  match ← peek with
  | some (.tag name) =>
    advance
    return some (← tagBytes name)
  | _ => return none

/-- An anchor, if there is one. -/
def anchor? : Reader (Option String) := do
  match ← peek with
  | some (.anchor name) =>
    advance
    return some name
  | _ => return none

/-- An anchor and a tag, in either order. -/
def properties : Reader (Option String × Option (List UInt8)) := do
  match ← anchor? with
  | some name => return (some name, ← tag?)
  | none =>
    match ← tag? with
    | some tag => return (← anchor?, some tag)
    | none => return (none, none)

/-- The number that the name of an anchor has from now on. -/
def anchorNumber (name : String) : Reader Nat := do
  let n := (← get).anchors.length
  modify fun s => { s with anchors := Entries.put name n s.anchors }
  return n

/-- The number of a name that has been given to an anchor. -/
def aliasNumber (name : String) : Reader Nat := do
  match (← get).anchors.lookup name with
  | some n => return n
  | none => failure

end Reader

end Mustache.Yaml
