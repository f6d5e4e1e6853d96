import Mustache.Yaml.Source

/-!
# Collections

What collections hold is read given how one node is read, and a node is read with collections
nested to a depth. Each item takes a token at least, which bounds their number.

* `blockItems`, `plainItems`, `blockEntries`: collections that are told by their columns;
* `flowItems`, `flowEntries`: collections between brackets;
* `collection?`: a collection of any kind;
* `nodeOf`, **`node`**: a node.
-/

namespace Mustache.Yaml

/-- Where a node stands. A sequence that is the key or the value of an entry may start in the
column of its map. -/
inductive Setting where
  | block
  | entry
  | flow
  deriving DecidableEq

namespace Reader

section

variable (node : Setting → Reader Node)

/-! ## By columns -/

/-- The items of a sequence in a column of its own, with at most `count` of them. -/
def blockItems : (count : Nat) → Reader (List Node)
  | 0 => failure
  | count + 1 => do
    if ← accept .blockEnd then return []
    require .item
    let first ← unlessAt [.item, .blockEnd] (node .block)
    return first :: (← blockItems count)

/-- The items of a sequence in the column of a map, with at most `count` of them. -/
def plainItems : (count : Nat) → Reader (List Node)
  | 0 => failure
  | count + 1 => do
    if ← accept .item then
      let first ← unlessAt [.item, .key, .value, .blockEnd] (node .block)
      return first :: (← plainItems count)
    else return []

/-- The value of an entry, if there is one. -/
def valueBefore (ends : List Mark) (setting : Setting) : Reader Node := do
  if ← accept .value then unlessAt ends (node setting) else return .missing

/-- The entries of a map in a column of its own, with at most `count` of them. -/
def blockEntries : (count : Nat) → Reader (List (Node × Node))
  | 0 => failure
  | count + 1 => do
    if ← accept .blockEnd then return []
    require .key
    let ends := [Mark.key, .value, .blockEnd]
    let key ← unlessAt ends (node .entry)
    let value ← valueBefore node ends .entry
    return (key, value) :: (← blockEntries count)

/-! ## Between brackets -/

/-- A map of one entry without braces, after the mark of its key. If the key is missing, the token
in its place is passed. -/
def pair : Reader Node := do
  let ends := [Mark.comma, .flowSequenceEnd]
  let key ←
    if ← isAt (.value :: ends) then do
      advance
      pure .missing
    else node .flow
  return .map [(key, ← valueBefore node ends .flow)]

/-- The items of a sequence between brackets, with at most `count` of them. -/
def flowItems : (count : Nat) → Reader (List Node)
  | 0 => failure
  | count + 1 => do
    if ← accept .flowSequenceEnd then return []
    let first ← if ← accept .key then pair node else node .flow
    if ← accept .comma then return first :: (← flowItems count)
    require .flowSequenceEnd
    return [first]

/-- An entry between braces. Without the mark of a key it has no value. -/
def flowEntry : Reader (Node × Node) := do
  if ← accept .key then
    let ends := [Mark.comma, .flowMapEnd]
    let key ← unlessAt (.value :: ends) (node .flow)
    return (key, ← valueBefore node ends .flow)
  else return (← node .flow, .missing)

/-- The entries of a map between braces, with at most `count` of them. -/
def flowEntries : (count : Nat) → Reader (List (Node × Node))
  | 0 => failure
  | count + 1 => do
    if ← accept .flowMapEnd then return []
    let first ← flowEntry node
    if ← accept .comma then return first :: (← flowEntries count)
    require .flowMapEnd
    return [first]

/-! ## Nodes -/

/-- A collection of at most `count` items, if one starts here. -/
def collection? (count : Nat) (setting : Setting) : Reader (Option Node) := do
  if setting = .entry && (← isAt [.item]) then
    return some (.sequence (← plainItems node count))
  else if ← accept .flowSequence then
    return some (.sequence (← flowItems node count))
  else if ← accept .flowMap then
    return some (.map (← flowEntries node count))
  else if setting = .flow then return none
  else if ← accept .blockSequence then
    return some (.sequence (← blockItems node count))
  else if ← accept .blockMap then
    return some (.map (← blockEntries node count))
  else return none

/-- A node without its anchor. The tag that says only that there is one means nothing for a text
that is there. -/
def bare (count : Nat) (setting : Setting) (anchored : Bool) (tag : Option (List UInt8)) :
    Reader Node := do
  let meaning := tag.bind Tag.ofBytes?
  match ← peek with
  | some (.text s isPlain) =>
    advance
    return .scalar ⟨s, isPlain, if tag = some nonSpecific then none else meaning⟩
  | _ =>
    match ← collection? node count setting with
    | some node => if meaning = some .unknown then failure else return node
    | none =>
      if anchored || tag.isSome then return .scalar { Scalar.missing with tag := meaning }
      else failure

/-- A node, given how those within it are read. -/
def nodeOf (count : Nat) (setting : Setting) : Reader Node := do
  match ← peek with
  | some (.alias name) =>
    advance
    return .alias (← aliasNumber name)
  | _ =>
    match ← properties with
    | (some name, tag) =>
      let n ← anchorNumber name
      return .anchored n (← bare node count setting true tag)
    | (none, tag) => bare node count setting false tag

end

/-- **A node** in which collections hold at most `count` items each and are nested to a depth at
most. -/
def node (count : Nat) : (depth : Nat) → Setting → Reader Node
  | 0, _ => failure
  | depth + 1, setting => nodeOf (node count depth) count setting

end Reader

end Mustache.Yaml
