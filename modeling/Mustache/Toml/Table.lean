import Mustache.Value.Basic

/-!
# Tables of TOML

A document builds its tables statement by statement. A table remembers how it came about, since
only some tables may be opened again: one that a header has named on the way to another table can
still have a header of its own, and one made by a dotted key can only grow by dotted keys.

* `Origin`, `Node`, `Table`;
* `Table.within?`: an edit of the table at the end of a path;
* `Table.define?`, `Table.append?`: what the headers of a table and of a table in an array do;
* `Table.assign?`: what a key with a value does; **a name is never assigned twice**;
* `Table.value`: the value of a finished table.
-/

namespace Mustache.Toml

/-- How a table came about. -/
inductive Origin where
  /-- It has a header of its own. -/
  | defined
  /-- It is on the path of a header. -/
  | passed
  /-- It is on the path of a dotted key. -/
  | dotted
  deriving DecidableEq, Repr

/-- What a name stands for. An array of tables is given by its last table and those before it, the
latest first. -/
inductive Node where
  | value (v : Value)
  | table (origin : Origin) (entries : List (String × Node))
  | tables (last : List (String × Node)) (earlier : List (List (String × Node)))

/-- The names of a table. -/
abbrev Table := List (String × Node)

namespace Table

/-- The table with the table at the end of a path edited. Tables that are missing on the way come
about as said; of an array the last table is meant, and a table that is not open to dotted keys
cannot be passed by one. -/
def within? (made : Origin) (edit : Origin → Table → Option Table) :
    List String → Origin → Table → Option Table
  | [], origin, t => edit origin t
  | name :: path, _, t =>
    match t.lookup name with
    | none =>
      (within? made edit path made []).map fun inner => Entries.put name (.table made inner) t
    | some (.table origin inner) =>
      if made = .dotted ∧ origin = .defined then none
      else
        (within? made edit path origin inner).map fun inner =>
          Entries.put name (.table origin inner) t
    | some (.tables last earlier) =>
      (within? made edit path .defined last).map fun last =>
        Entries.put name (.tables last earlier) t
    | some (.value _) => none

/-- The table after the header of a table. -/
def define? (t : Table) (path : List String) (name : String) : Option Table :=
  within? .passed
    (fun _ t =>
      match t.lookup name with
      | none => some (Entries.put name (.table .defined []) t)
      | some (.table .passed inner) => some (Entries.put name (.table .defined inner) t)
      | some _ => none)
    path .defined t

/-- The table after the header of a table in an array. -/
def append? (t : Table) (path : List String) (name : String) : Option Table :=
  within? .passed
    (fun _ t =>
      match t.lookup name with
      | none => some (Entries.put name (.tables [] []) t)
      | some (.tables last earlier) => some (Entries.put name (.tables [] (last :: earlier)) t)
      | some _ => none)
    path .defined t

/-- The table after a value is given to a name, below the table of the last header. A dotted key
names a table that dotted keys have made. -/
def assign? (t : Table) (header path : List String) (name : String) (v : Value) : Option Table :=
  within? .passed
    (within? .dotted
      (fun origin t =>
        if (origin == .dotted) == path.isEmpty || Entries.has name t then none
        else some (Entries.put name (.value v) t))
      path)
    header .defined t

mutual

/-- The values of the entries. -/
def values : List (String × Node) → List (String × Value)
  | [] => []
  | (name, node) :: rest => (name, nodeValue node) :: values rest

/-- The values of several tables. -/
def tableValues : List (List (String × Node)) → List Value
  | [] => []
  | t :: rest => .map (values t) :: tableValues rest

/-- The value of a node. -/
def nodeValue : Node → Value
  | .value v => v
  | .table _ entries => .map (values entries)
  | .tables last earlier => .sequence ((tableValues earlier).reverse ++ [.map (values last)])

end

/-- The value of a table. -/
def value (t : Table) : Value := .map (values t)

end Table

end Mustache.Toml
