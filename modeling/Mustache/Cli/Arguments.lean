import Mustache.Data

/-!
# Arguments of the command line

The arguments name one template, and with options the data, further templates and a configuration.
An option takes the next argument, unless its value is joined to it: `--context=FILE`,
`-c=FILE` or `-cFILE`. After `--` no argument is an option.

* `Arguments`, and `Setting`, the options that take a value;
* `Given`: the arguments so far, and `Given.set?`, which fails on a value that is repeated, empty or
  unknown;
* `Arguments.read`: all arguments; the first thing that is wrong decides, and so does a request for
  help that comes before it.
-/

namespace Mustache

/-- What the command line asks for. -/
structure Arguments where
  template : String
  context : Option String
  partials : List String
  config : Option String
  format : Option DataFormat
  deriving DecidableEq, Repr

namespace Arguments

/-- Why there is nothing to run. -/
inductive Refusal where
  | help
  | misuse
  deriving DecidableEq, Repr

/-- The options that take a value. -/
inductive Setting where
  | context
  | templateFile
  | config
  | format
  deriving DecidableEq, Repr

/-- The option with a long name. -/
def Setting.ofName? : String → Option Setting
  | "context" => some .context
  | "partial" => some .templateFile
  | "config" => some .config
  | "format" => some .format
  | _ => none

/-- The option with a short name. -/
def Setting.ofLetter? : Char → Option Setting
  | 'c' => some .context
  | 'p' => some .templateFile
  | 'f' => some .format
  | _ => none

/-- The format of a name. -/
def format? : String → Option DataFormat
  | "json" => some .json
  | "yaml" => some .yaml
  | "toml" => some .toml
  | _ => none

/-- The arguments that have been read. -/
structure Given where
  template : Option String
  context : Option String
  partials : List String
  config : Option String
  format : Option DataFormat

namespace Given

/-- No arguments. -/
def nothing : Given := ⟨none, none, [], none, none⟩

/-- A value in a place that is still free; no value is empty. -/
def fill? (place : Option String) (value : String) : Option String :=
  if place.isSome || value.isEmpty then none else some value

/-- The arguments with the template. -/
def setTemplate? (g : Given) (value : String) : Option Given :=
  (fill? g.template value).map fun value => { g with template := some value }

/-- The arguments with the value of an option. -/
def set? (g : Given) (value : String) : Setting → Option Given
  | .context => (fill? g.context value).map fun value => { g with context := some value }
  | .config => (fill? g.config value).map fun value => { g with config := some value }
  | .templateFile =>
    (fill? none value).map fun value => { g with partials := g.partials ++ [value] }
  | .format =>
    if g.format.isSome then none
    else (format? value).map fun format => { g with format := some format }

/-- The arguments as a whole; there has to be a template. -/
def finish (g : Given) : Except Refusal Arguments :=
  match g.template with
  | some template => .ok ⟨template, g.context, g.partials, g.config, g.format⟩
  | none => .error .misuse

end Given

/-- An argument by its form. -/
inductive Form where
  /-- A value. -/
  | value (s : String)
  /-- The mark after which every argument is a value. -/
  | mark
  /-- An option, perhaps with a value joined to it. -/
  | option (setting : Setting) (joined : Option String)
  | help
  | unknown

/-- The form of an option with a long name. -/
def longForm (cs : List Char) : Form :=
  let name := String.ofList (cs.takeWhile (· != '='))
  let joined := match cs.dropWhile (· != '=') with
    | [] => none
    | _ :: value => some (String.ofList value)
  match Setting.ofName? name with
  | some setting => .option setting joined
  | none => if name = "help" ∧ joined = none then .help else .unknown

/-- The form of an option with a short name. -/
def shortForm (letter : Char) (rest : List Char) : Form :=
  match Setting.ofLetter? letter with
  | some setting =>
    match rest with
    | [] => .option setting none
    | '=' :: value => .option setting (some (String.ofList value))
    | value => .option setting (some (String.ofList value))
  | none => if letter = 'h' then .help else .unknown

/-- The form of an argument. A single dash is a value. -/
def form (argument : String) : Form :=
  match argument.toList with
  | ['-', '-'] => .mark
  | '-' :: '-' :: cs => longForm cs
  | '-' :: letter :: rest => shortForm letter rest
  | _ => .value argument

/-- The arguments after those that have been read. -/
def readAfter (g : Given) : List String → Except Refusal Arguments
  | [] => g.finish
  | argument :: rest =>
    match form argument with
    | .mark =>
      match rest.foldlM Given.setTemplate? g with
      | some g => g.finish
      | none => .error .misuse
    | .value s =>
      match g.setTemplate? s with
      | some g => readAfter g rest
      | none => .error .misuse
    | .option setting (some value) =>
      match g.set? value setting with
      | some g => readAfter g rest
      | none => .error .misuse
    | .option setting none =>
      match rest with
      | [] => .error .misuse
      | next :: rest =>
        match form next with
        | .value value =>
          match g.set? value setting with
          | some g => readAfter g rest
          | none => .error .misuse
        | _ => .error .misuse
    | .help => .error .help
    | .unknown => .error .misuse

/-- **The arguments of the command line.** -/
def read (arguments : List String) : Except Refusal Arguments := readAfter .nothing arguments

end Arguments

end Mustache
