import Mustache.Config.Basic
import Mustache.Toml.Document

/-!
# Reading a configuration

A configuration is written in TOML: the key `default_content_type`, and in `content_types` an
escape table for each content type. It is laid over the built-in one, whose tables it replaces as
a whole. Other keys do not count.

* `escapeTable`: the table of one content type;
* `Shape`, `Shape.ofValue?`: what the text says;
* `Config.overlay`, `Config.ofShape`: the content types and their keys are checked in the order of
  their names, before the default is;
* **`Config.parseWith`**: a text, given how texts are decoded; `Config.parse`.
-/

namespace Mustache

/-- Entries in the order of their names. -/
def Entries.sorted {α : Type} (entries : List (String × α)) : List (String × α) :=
  entries.mergeSort fun a b => decide (a.1 ≤ b.1)

namespace Config

/-- The escape table of a content type; each key has to be a single character. -/
def escapeTable (contentType : String) (entries : List (String × String)) :
    Except ConfigError EscapeTable :=
  (Entries.sorted entries).mapM fun (key, replacement) =>
    match key.toList with
    | [c] => .ok (c, replacement)
    | _ => .error (.escapeKey contentType key)

/-- What a configuration says: the default, and the entries of each escape table. -/
structure Shape where
  defaultId : Option String
  tables : List (String × List (String × String))

/-- The entries of a map of texts. -/
def textEntries? : Value → Option (List (String × String))
  | .map entries => entries.mapM fun (key, v) => v.text?.map fun s => (key, s)
  | _ => none

/-- The entries of a map of maps of texts. -/
def tableEntries? : Value → Option (List (String × List (String × String)))
  | .map entries => entries.mapM fun (id, v) => (textEntries? v).map fun table => (id, table)
  | _ => none

/-- What a decoded configuration says, if its keys have values of the right kind. -/
def Shape.ofValue? : Value → Option Shape
  | .map entries => do
    let defaultId ← match entries.lookup "default_content_type" with
      | some v => some <$> v.text?
      | none => pure none
    let tables ← match entries.lookup "content_types" with
      | some v => tableEntries? v
      | none => pure []
    pure ⟨defaultId, tables⟩
  | _ => none

/-- The tables with those of a configuration in place of their own. -/
def overlay (tables : List (String × EscapeTable)) :
    List (String × List (String × String)) → Except ConfigError (List (String × EscapeTable))
  | [] => .ok tables
  | (id, entries) :: rest =>
    match escapeTable id entries with
    | .ok table => overlay (Entries.put id table tables) rest
    | .error e => .error e

/-- The configuration that a text lays over the built-in one. -/
def ofShape (shape : Shape) : Except ConfigError Config :=
  match overlay builtIn.tables (Entries.sorted shape.tables) with
  | .error e => .error e
  | .ok tables =>
    let id := shape.defaultId.getD builtIn.defaultId
    if h : Entries.has id tables = true then .ok ⟨tables, id, h⟩ else .error (.unknownDefault id)

/-- **The configuration of a text**, given what a decoder takes texts to say. -/
def parseWith (decode? : String → Option Shape) (text : String) : Except ConfigError Config :=
  match decode? text with
  | some shape => ofShape shape
  | none => .error .malformed

/-- What a text in TOML says, if it says it in the right form. -/
def decode? (text : String) : Option Shape := (Toml.decode? text).bind Shape.ofValue?

/-- The configuration of a text in TOML. -/
def parse : String → Except ConfigError Config := parseWith decode?

end Config

end Mustache
