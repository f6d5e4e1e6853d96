import Mustache.ContentType
import Mustache.File.Error
import Mustache.Text.Quoted

/-!
# Configuration

A configuration lists the escape tables of content types and names the default among them.

* `ConfigError`, `ConfigError.message`;
* `Config`, whose default is always one of its tables, and `Config.builtIn`;
* `Config.types`: its registry of content types;
* `ContentTypes.setDefault`.
-/

namespace Mustache

/-- What is wrong with a configuration. -/
inductive ConfigError where
  /-- Its file cannot be read. -/
  | unreadable (reason : FileError)
  /-- The text cannot be decoded, or its tables do not have the right shape. -/
  | malformed
  /-- The key of an escape table is not a single character. -/
  | escapeKey (contentType key : String)
  /-- The default is not among the content types. -/
  | unknownDefault (id : String)
  deriving DecidableEq, Repr

/-- The wording of an error. -/
def ConfigError.message : ConfigError → String
  | .unreadable reason => "Failed to read config file: " ++ reason.message
  | .malformed => "Failed to parse config TOML: "
  | .escapeKey contentType key =>
    "escape key " ++ Text.quote key ++ " of content type '" ++ contentType ++
      "' must be a single character"
  | .unknownDefault id => "default content type '" ++ id ++ "' is not defined"

/-- Escape tables by content type, with a default among them. -/
structure Config where
  tables : List (String × EscapeTable)
  defaultId : String
  has_default : Entries.has defaultId tables = true

/-- The characters that have a meaning in markup, and the entities that stand for them. -/
def EscapeTable.markup : EscapeTable :=
  [('"', "&quot;"), ('&', "&amp;"), ('\'', "&#39;"), ('<', "&lt;"), ('>', "&gt;")]

namespace Config

/-- The configuration that every other one starts from: markup, and text as it is. -/
def builtIn : Config where
  tables := [("HTML", .markup), ("TEXT", [])]
  defaultId := "HTML"
  has_default := by decide

theorem has_map_contentType (id : String) (tables : List (String × EscapeTable)) :
    Entries.has id (tables.map fun (id, table) => (id, table.contentType)) =
      Entries.has id tables := by
  rw [Entries.has, Entries.lookup_map, Option.isSome_map, Entries.has]

/-- The registry of the content types. -/
def types (c : Config) : ContentTypes where
  types := c.tables.map fun (id, table) => (id, table.contentType)
  defaultId := c.defaultId
  has_default := by rw [has_map_contentType]; exact c.has_default

end Config

/-- The default is changed: what comes of it, and the registry then. -/
def ContentTypes.setDefault (t : ContentTypes) (id : String) :
    Except ConfigError Unit × ContentTypes :=
  if h : Entries.has id t.types = true then (.ok (), { t with defaultId := id, has_default := h })
  else (.error (.unknownDefault id), t)

end Mustache
