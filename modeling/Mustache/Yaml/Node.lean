import Mustache.Yaml.Word

/-!
# Nodes of a document

* `Node`: a text, a collection, or an alias of a node that carries an anchor. Anchors are
  numbered by how many names there were before, so that a number may come again after a name has
  been given twice;
* `Node.parts`: a node and all nodes within it, in the order in which they start.
-/

namespace Mustache.Yaml

/-- A node of a document. -/
inductive Node where
  | scalar (s : Scalar)
  | sequence (items : List Node)
  | map (entries : List (Node × Node))
  | anchored (number : Nat) (node : Node)
  | alias (number : Nat)

mutual

/-- A node and all nodes within it, in the order in which they start. -/
def Node.parts : Node → List Node
  | .scalar s => [.scalar s]
  | .sequence items => .sequence items :: partsOfItems items
  | .map entries => .map entries :: partsOfEntries entries
  | .anchored number node => .anchored number node :: node.parts
  | .alias number => [.alias number]

/-- The nodes of a sequence. -/
def partsOfItems : List Node → List Node
  | [] => []
  | node :: rest => node.parts ++ partsOfItems rest

/-- The nodes of a map. -/
def partsOfEntries : List (Node × Node) → List Node
  | [] => []
  | (key, value) :: rest => key.parts ++ value.parts ++ partsOfEntries rest

end

/-- The node that stands where one is missing. -/
def Node.missing : Node := .scalar .missing

end Mustache.Yaml
