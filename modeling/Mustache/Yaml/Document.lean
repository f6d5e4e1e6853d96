import Mustache.Yaml.Collection
import Mustache.Yaml.Layout

/-!
# YAML documents

* `Anchors`: the nodes that aliases stand for, of which the last of a number counts;
* `Walk`, `value?`: the value of a node, with a bound on the depth of collections and on the number
  of aliases followed;
* `Reader.document`: the only document of a text;
* `decode?`: its value.
-/

namespace Mustache.Yaml

/-! ## The value of a node -/

/-- The nodes that carry an anchor, by its number. -/
abbrev Anchors := List (Nat × Node)

/-- The anchors of a document, given by its root. -/
def Anchors.ofRoot (root : Node) : Anchors :=
  (root.parts.filterMap fun
    | .anchored number node => some (number, node)
    | _ => none).reverse

/-- How much a node weighs when the aliases of a document are bounded. -/
def Node.weight : Node → Nat
  | .anchored .. => 0
  | .scalar _ => 1
  | .alias _ => 1
  | .sequence _ => 2
  | .map _ => 2

/-- How often aliases may be followed for each unit of weight. -/
def jumpsPerWeight : Nat := 100

/-- How often the aliases of a document may be followed. -/
def maxJumps (root : Node) : Nat :=
  jumpsPerWeight * root.parts.foldl (fun n node => n + node.weight) 0

/-- A walk through a document, which can follow only so many aliases. -/
abbrev Walk := StateT Nat Option

/-- An alias is followed. -/
def jump : Walk Unit := do
  match ← get with
  | 0 => failure
  | left + 1 => set left

section

variable (anchors : Anchors)

/-- The text or collection that a node is, or that it is an alias of. -/
def settle : Node → Walk Node
  | .alias number => do
    jump
    match anchors.lookup number with
    | some node => return node
    | none => failure
  | .anchored _ node => return node
  | node => return node

/-- The name of an entry: a text, whatever its tag. -/
def name? (key : Node) : Walk String := do
  match ← settle anchors key with
  | .scalar s => return s.text
  | _ => failure

/-- The value of a node in which collections are nested to a depth at most. The last entry of a
name counts. -/
def value? (depth : Nat) (node : Node) : Walk Value := do
  match ← settle anchors node with
  | .scalar s =>
    match s.value? with
    | some value => return value
    | none => failure
  | .sequence items =>
    match depth with
    | 0 => failure
    | depth + 1 => return .sequence (← items.mapM (value? depth))
  | .map entries =>
    match depth with
    | 0 => failure
    | depth + 1 =>
      let pairs ← entries.mapM fun (key, node) => do
        let name ← name? anchors key
        return (name, ← value? depth node)
      return .map (Entries.putAll pairs [])
  | _ => failure

end

/-! ## The document of a text -/

/-- How deep collections may be nested. -/
def maxDepth : Nat := 128

namespace Reader

/-- Whether a directive comes next. -/
def isAtDirective : Reader Bool := do
  match ← peek with
  | some .version => return true
  | some (.handle ..) => return true
  | _ => return false

/-- The directives before a document, of which there are at most `count`. The version is given
once at most, and so is what a handle stands for. -/
def directives : (count : Nat) → (hasVersion : Bool) → Reader Unit
  | 0, _ => return
  | count + 1, hasVersion => do
    match ← peek with
    | some .version =>
      if hasVersion then failure
      advance
      directives count true
    | some (.handle name start) =>
      if Entries.has name (← get).handles then failure
      modify fun s => { s with handles := Entries.put name start s.handles }
      advance
      directives count hasVersion
    | _ => return

/-- A document. The mark of its start is needed after directives, and a document may be empty
after that mark. -/
def document : Reader Node := do
  let declared ← isAtDirective
  let count := (← get).tokens.length
  directives count false
  modify fun s => { s with handles := Entries.fill s.handles commonHandles }
  let marked ← accept .documentStart
  if declared && !marked then failure
  let isEmpty := (← peek).isNone || (← isAtDirective) || (← isAt [.documentStart, .documentEnd])
  if marked && isEmpty then return .missing
  else node count (maxDepth + 1) .block

/-- The only document of a text, after which only marks of its end may come. -/
def onlyDocument : Reader Node := do
  let root ← document
  if (← get).tokens.all (· == .mark .documentEnd) then return root else failure

end Reader

/-- The characters that a document may hold. -/
def isAllowed (c : Char) : Bool :=
  c == '\t' || c == '\n' || c == '\r' || (' ' ≤ c && c ≤ '~') || c == '\x85' ||
    ('\xa0' ≤ c && c ≤ '\uFFFD') || 0x10000 ≤ c.toNat

/-- **The value of a document**, which is null if there is none in the text. -/
def decode? (text : String) : Option Value := do
  if !text.toList.all isAllowed then none
  let tokens ← Token.scan? text.toList
  if tokens.isEmpty then return .null
  let root ← Reader.onlyDocument.run' ⟨tokens, [], []⟩
  (value? (Anchors.ofRoot root) maxDepth root).run' (maxJumps root)

end Mustache.Yaml
