import Mustache.Entries

/-!
# Content types

A content type says how text is escaped when a value is interpolated. A registry holds content
types by id, one of which is the default.

* `ContentType`, and `EscapeTable` with `EscapeTable.escape` for those that replace characters;
* `ContentTypes`: the registry, whose default is always one of its types;
* `register`, `find?`, `contains`, `defaultType`.
-/

namespace Mustache

/-- A way to escape text. -/
structure ContentType where
  escape : String → String

/-- The replacements of single characters. -/
abbrev EscapeTable := List (Char × String)

namespace EscapeTable

/-- What stands for a character. -/
def replace (table : EscapeTable) (c : Char) : List Char :=
  match table.lookup c with
  | some replacement => replacement.toList
  | none => [c]

/-- The text with every character of the table replaced. -/
def escape (table : EscapeTable) (s : String) : String :=
  String.ofList (s.toList.flatMap (replace table))

/-- The content type of a table. -/
def contentType (table : EscapeTable) : ContentType := ⟨table.escape⟩

end EscapeTable

/-- Content types by id, with a default among them. -/
structure ContentTypes where
  types : List (String × ContentType)
  defaultId : String
  has_default : Entries.has defaultId types = true

namespace ContentTypes

/-- The content type of an id. -/
def find? (t : ContentTypes) (id : String) : Option ContentType := t.types.lookup id

/-- Whether there is a content type of the id. -/
def contains (t : ContentTypes) (id : String) : Bool := Entries.has id t.types

/-- The content type every template starts with. -/
def defaultType (t : ContentTypes) : ContentType := (t.types.lookup t.defaultId).get t.has_default

/-- The registry with a content type added, or with that of the id replaced. -/
def register (t : ContentTypes) (id : String) (type : ContentType) : ContentTypes where
  types := Entries.put id type t.types
  defaultId := t.defaultId
  has_default := by
    have h := t.has_default
    unfold Entries.has at h ⊢
    rw [Entries.lookup_put]
    split <;> simp_all

end ContentTypes

end Mustache
