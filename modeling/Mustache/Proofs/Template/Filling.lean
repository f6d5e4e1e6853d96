import Mustache.Proofs.Template.Shape
import Mustache.Template.Loading

/-!
# Filling a library

A library is filled by requests, one after the other. A request that fails adds nothing, and one
for several files adds those that do not fail. What is compiled for a library is compiled against
its own content types, and no request changes these.

* `Library.registerSource_cases`, `Library.registerFile_cases`: a template is added, or nothing is;
* `Library.Request`, `Request.FromSource`; `Library.perform`, `Library.performAll`;
* `Library.CompiledWith`: templates that are compiled against the content types of the library;
  `CompiledWith.registerFiles`, **`CompiledWith.performAll`**.
-/

namespace Mustache.Library

/-- The template of a source is added, or it has a fault and the library stays as it is. -/
theorem registerSource_cases (l : Library) (name source : String) :
    (∃ t, Template.compile l.contentTypes source = .ok t ∧
      l.registerSource name source = (.ok (), l.register name t)) ∨
    ∃ fault, Template.compile l.contentTypes source = .error fault ∧
      l.registerSource name source = (.error fault, l) := by
  unfold registerSource
  cases Template.compile l.contentTypes source with
  | ok t => exact .inl ⟨t, rfl, rfl⟩
  | error fault => exact .inr ⟨fault, rfl, rfl⟩

/-- The template of a file is added, or it cannot be read or has a fault and the library stays as it
is. -/
theorem registerFile_cases (l : Library) (path : String) (content : Except FileError String) :
    (∃ source t, content = .ok source ∧ Template.compile l.contentTypes source = .ok t ∧
      l.registerFile path content = (.ok (), l.register ((Path.stem? path).getD "") t)) ∨
    (∀ source, content = .ok source →
        ∃ fault, Template.compile l.contentTypes source = .error fault) ∧
      ∃ e, l.registerFile path content = (.error e, l) := by
  unfold registerFile
  cases content with
  | error reason => exact .inr ⟨nofun, _, rfl⟩
  | ok source =>
    obtain ⟨t, ht, hr⟩ | ⟨fault, hf, hr⟩ :=
      l.registerSource_cases ((Path.stem? path).getD "") source <;> dsimp only <;> rw [hr]
    · exact .inl ⟨source, t, rfl, ht, rfl⟩
    · exact .inr ⟨by rintro _ ⟨⟩; exact ⟨fault, hf⟩, _, rfl⟩

/-- What a library is asked to add. -/
inductive Request where
  /-- A template that is compiled already. -/
  | template (name : String) (t : Template)
  | source (name source : String)
  /-- A file, with what reading it comes to. -/
  | file (path : String) (content : Except FileError String)
  | files (files : List (String × Except FileError String))

/-- The library is to compile what it is asked to add. -/
def Request.FromSource (r : Request) : Prop := ∀ name t, r ≠ .template name t

/-- The library after a request, whatever comes of it. -/
def perform (l : Library) : Request → Library
  | .template name t => l.register name t
  | .source name source => (l.registerSource name source).2
  | .file path content => (l.registerFile path content).2
  | .files files => (l.registerFiles files).1

/-- The library after several requests in order. -/
def performAll (l : Library) (requests : List Request) : Library := requests.foldl perform l

/-- The library has these content types, and its templates are compiled against them. -/
structure CompiledWith (types : ContentTypes) (l : Library) : Prop where
  contentTypes : l.contentTypes = types
  templates : ∀ e ∈ l.templates, ∃ source, Template.compile types source = .ok e.2

namespace CompiledWith

variable {types : ContentTypes} {l : Library}

theorem empty (types : ContentTypes) : (empty types).CompiledWith types := ⟨rfl, nofun⟩

theorem register (h : l.CompiledWith types) {source : String} {t : Template}
    (ht : Template.compile l.contentTypes source = .ok t) (name : String) :
    (l.register name t).CompiledWith types := by
  refine ⟨h.contentTypes, fun e he => ?_⟩
  obtain rfl | he := Entries.mem_put he
  · exact ⟨source, h.contentTypes ▸ ht⟩
  · exact h.templates e he

theorem registerSource (h : l.CompiledWith types) (name source : String) :
    (l.registerSource name source).2.CompiledWith types := by
  obtain ⟨t, ht, hr⟩ | ⟨fault, -, hr⟩ := l.registerSource_cases name source <;> rw [hr]
  · exact h.register ht name
  · exact h

theorem registerFile (h : l.CompiledWith types) (path : String)
    (content : Except FileError String) : (l.registerFile path content).2.CompiledWith types := by
  obtain ⟨source, t, -, ht, hr⟩ | ⟨-, e, hr⟩ := l.registerFile_cases path content <;> rw [hr]
  · exact h.register ht _
  · exact h

/-- Files that fail are passed over. -/
theorem registerFiles (h : l.CompiledWith types) (files : List (String × Except FileError String)) :
    (l.registerFiles files).1.CompiledWith types := by
  unfold Library.registerFiles
  generalize 0 = count
  induction files generalizing l count with
  | nil => exact h
  | cons file files ih =>
    obtain ⟨path, content⟩ := file
    have hfile := h.registerFile path content
    rw [List.foldl_cons]
    dsimp only
    generalize l.registerFile path content = r at hfile ⊢
    obtain ⟨answer, next⟩ := r
    cases answer with
    | ok => exact ih hfile _
    | error => exact ih hfile _

theorem perform (h : l.CompiledWith types) {r : Request} (hr : r.FromSource) :
    (l.perform r).CompiledWith types := by
  cases r with
  | template name t => exact absurd rfl (hr name t)
  | source name source => exact h.registerSource name source
  | file path content => exact h.registerFile path content
  | files files => exact h.registerFiles files

/-- **A library that compiles all it is asked to add** has only templates that are compiled against
its content types. -/
theorem performAll (h : l.CompiledWith types) {requests : List Request}
    (hr : ∀ r ∈ requests, r.FromSource) : (l.performAll requests).CompiledWith types := by
  induction requests generalizing l with
  | nil => exact h
  | cons r requests ih =>
    obtain ⟨hr, hrequests⟩ := List.forall_mem_cons.mp hr
    exact ih (h.perform hr) hrequests

end CompiledWith

end Mustache.Library
