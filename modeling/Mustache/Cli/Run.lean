import Mustache.Cli.Arguments
import Mustache.Config.Reading
import Mustache.Render
import Mustache.Report.Basic
import Mustache.Template.Loading

/-!
# The command line

One run reads the configuration, the further templates, the template and the data, in this order,
and stops at the first of them that is faulty. The template can include itself by its own name.

* `Host`: what a run asks of its surroundings;
* `Outcome`: exit code and the texts of both outputs;
* `Cli.render`: the output of a run, or what it says instead; `Cli.stopped`;
* **`Cli.run`**: a run from the arguments to its outcome.
-/

namespace Mustache

/-- What a run asks of its surroundings. -/
structure Host (m : Type → Type) where
  /-- The text of a file. -/
  read : String → m (Except FileError String)
  /-- All of the input. -/
  input : m (Except FileError String)
  /-- Whether the input comes from a terminal. -/
  inputIsTerminal : m Bool

/-- What a run comes to. -/
structure Outcome where
  code : Nat
  output : String
  complaint : String
  deriving DecidableEq, Repr

namespace Cli

/-- What is said when help is asked for. -/
def usage : String :=
  "\n".intercalate
    ["Render Mustache templates", "", "Usage: mustache [OPTIONS] <TEMPLATE>", "", "Arguments:",
      "  <TEMPLATE>  The template to render", "", "Options:",
      "  -c, --context <FILE>   Data for the template, - for the input",
      "  -p, --partial <FILE>   A further template, named after its file",
      "      --config <FILE>    Content types and their escape tables (TOML)",
      "  -f, --format <FORMAT>  Format of the data: json, yaml or toml",
      "  -h, --help             Print this help", ""]

/-- What is said when the arguments are wrong. -/
def misuse : String :=
  "\n".intercalate
    ["error: unexpected arguments", "", "Usage: mustache [OPTIONS] <TEMPLATE>", "",
      "For more information, try '--help'.", ""]

section

variable {m : Type → Type} [Monad m] (host : Host m)

/-- The configuration of a file, or the built-in one. -/
def config : Option String → ExceptT String m Config
  | none => pure .builtIn
  | some path => do
    let result := match ← (host.read path : m _) with
      | .ok text => Config.parse text
      | .error reason => .error (.unreadable reason)
    match result with
    | .ok config => pure config
    | .error e => throw ("Error loading config '" ++ path ++ "': " ++ e.message ++ "\n")

/-- What is said about a template that is not registered: the report on its file, if that can be
read once more. -/
def complaint (path : String) (e : LibraryError) : m String := do
  match e with
  | .faulty _ fault =>
    match ← host.read path with
    | .ok source => pure (Report.ofError fault source path)
    | .error _ => pure ("Error: " ++ e.message ++ "\n")
  | .unreadable _ _ => pure ("Error: " ++ e.message ++ "\n")

/-- The library with the further templates. -/
def register : Library → List String → ExceptT String m Library
  | library, [] => pure library
  | library, path :: paths => do
    match library.registerFile path (← (host.read path : m _)) with
    | (.ok (), library) => register library paths
    | (.error e, _) => throw (← (complaint host path e : m _))

/-- The template of a file. -/
def template (types : ContentTypes) (path : String) : ExceptT String m Template := do
  match ← (host.read path : m _) with
  | .error reason => throw ("Error reading file '" ++ path ++ "': " ++ reason.message ++ "\n")
  | .ok source =>
    match Template.compile types source with
    | .ok t => pure t
    | .error fault => throw (Report.ofError fault source path)

/-- The text of the data: a file, or else the input. There is none on a terminal, unless it is asked
for with a dash. -/
def dataText : Option String → m (Except FileError String)
  | none => do if ← host.inputIsTerminal then pure (.ok "") else host.input
  | some path => if path = "-" then host.input else host.read path

/-- The data of a run. Blank text is an empty map; the format is the one asked for, or that of the
file, or YAML. -/
def data (path : Option String) (format : Option DataFormat) : m (Except DataError Value) := do
  match ← dataText host path with
  | .error reason => pure (.error (.unreadable reason))
  | .ok text =>
    if text.toList.all Text.isBlank then pure (.ok (.map []))
    else
      pure (Value.decode text ((format.or (path.bind DataFormat.ofPath?)).getD .yaml))

/-- The output of a run, if rendering has one, or what the run says instead. -/
def render (a : Arguments) : ExceptT String m (Except Stop String) := do
  let config ← config host a.config
  let library ← register host (.empty config.types) a.partials
  let t ← template host library.contentTypes a.template
  let library := match Path.stem? a.template with
    | some name => library.register name t
    | none => library
  match ← (data host a.context a.format : m _) with
  | .error e => throw ("Error loading context: " ++ e.message ++ "\n")
  | .ok data => pure ((t.renderWith library data []).map Prod.fst)

/-- What a run comes to whose rendering has no output. -/
def stopped : Stop → Outcome
  | .depth => ⟨1, "", "Error: the template does not end\n"⟩
  | .strayDefinition => ⟨101, "", "a block is defined outside of a parent\n"⟩
  | .disorder => ⟨101, "", "the comparison of values to sort is not a total order\n"⟩

/-- **A run from its arguments to its outcome.** -/
def run (arguments : List String) : m Outcome := do
  match Arguments.read arguments with
  | .error .help => pure ⟨0, usage, ""⟩
  | .error .misuse => pure ⟨2, "", misuse⟩
  | .ok a =>
    match ← (render host a).run with
    | .ok (.ok output) => pure ⟨0, output, ""⟩
    | .ok (.error stop) => pure (stopped stop)
    | .error said => pure ⟨1, "", said⟩

end

end Cli

end Mustache
