import Mustache.File.Error
import Mustache.File.Path
import Mustache.Json.Document
import Mustache.Toml.Document
import Mustache.Yaml.Document

/-!
# Data for templates

* `DataFormat`, and `DataFormat.ofPath?`, which goes by the extension of a file;
* `DataError`, `DataError.message`;
* `Value.decode`: the value of a text in a format.
-/

namespace Mustache

/-- The formats that data is written in. -/
inductive DataFormat where
  | json
  | yaml
  | toml
  deriving DecidableEq, Repr

/-- The format that a file has by its extension, in capital or small letters. -/
def DataFormat.ofPath? (path : String) : Option DataFormat :=
  (Path.extension? path).bind fun extension =>
    match String.ofList (extension.toList.map Char.toLower) with
    | "json" => some .json
    | "yaml" => some .yaml
    | "yml" => some .yaml
    | "toml" => some .toml
    | _ => none

/-- Why there is no data. -/
inductive DataError where
  | unreadable (reason : FileError)
  | malformed (format : DataFormat)
  deriving DecidableEq, Repr

/-- The wording of an error. -/
def DataError.message : DataError → String
  | .unreadable reason => "failed to read context data: " ++ reason.message
  | .malformed .json => "invalid JSON context: "
  | .malformed .yaml => "invalid YAML context: "
  | .malformed .toml => "invalid TOML context: "

/-- The value of a text, if it can be decoded. -/
def Value.decode? (text : String) : DataFormat → Option Value
  | .json => Json.decode? text
  | .yaml => Yaml.decode? text
  | .toml => Toml.decode? text

/-- The value of a text. -/
def Value.decode (text : String) (format : DataFormat) : Except DataError Value :=
  match Value.decode? text format with
  | some value => .ok value
  | none => .error (.malformed format)

end Mustache
