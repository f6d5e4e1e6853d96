import Mathlib
import Mustache.Config.Basic
import Mustache.Proofs.Template.Filling

/-!
# What a library holds

After any requests, whichever of them fail, a library holds under each name the last template that
was added under it, or what it held before. Which templates are added depends on the requests and
the content types of the library only, and these never change.

* `Template.named?`, `Template.ofFile?`: the template that a source or a file adds, and its name;
* `Library.Request.added`: what a request adds, in order; `Library.Request.Fails`;
* `Library.addAll`: the library with templates added;
* **`Library.perform_eq`**, **`Library.performAll_eq`**: a request, and several of them;
* `Library.registerFiles_eq`: what several files add, and how many of them do;
* **`Library.holds_performAll`**.
-/

namespace Mustache

/-- The template of a source with its name, unless the source has a fault. -/
def Template.named? (types : ContentTypes) (name source : String) : Option (String × Template) :=
  (compile types source).toOption.map fun t => (name, t)

/-- The template of a file with the stem of the file's name, unless the file cannot be read or has a
fault. -/
def Template.ofFile? (types : ContentTypes) (file : String × Except FileError String) :
    Option (String × Template) :=
  file.2.toOption.bind (named? types ((Path.stem? file.1).getD ""))

namespace Library

/-- What a request adds to a library with the content types. -/
def Request.added (types : ContentTypes) : Request → List (String × Template)
  | .template name t => [(name, t)]
  | .source name text => (Template.named? types name text).toList
  | .file path content => (Template.ofFile? types (path, content)).toList
  | .files sources => sources.filterMap (Template.ofFile? types)

/-- The library answers the request with an error. -/
def Request.Fails (l : Library) : Request → Prop
  | .template _ _ => False
  | .source name text => ∃ fault, (l.registerSource name text).1 = .error fault
  | .file path content => ∃ e, (l.registerFile path content).1 = .error e
  | .files _ => False

/-- The library with templates added in order. -/
def addAll (l : Library) (added : List (String × Template)) : Library :=
  { l with templates := Entries.putAll added l.templates }

variable (l : Library)

@[simp] theorem addAll_nil : l.addAll [] = l := rfl

theorem addAll_append (added more : List (String × Template)) :
    l.addAll (added ++ more) = (l.addAll added).addAll more := by
  simp [addAll, Entries.putAll]

/-! ## One request -/

/-- **A source** adds its template, or fails and leaves the library as it is. -/
theorem registerSource_named (name source : String) :
    (l.registerSource name source).2 =
        l.addAll (Template.named? l.contentTypes name source).toList ∧
      ((∃ fault, (l.registerSource name source).1 = .error fault) ↔
        Template.named? l.contentTypes name source = none) := by
  unfold Template.named?
  obtain ⟨t, ht, hr⟩ | ⟨fault, hf, hr⟩ := l.registerSource_cases name source
  · rw [ht, hr]
    exact ⟨rfl, by simp [Except.toOption]⟩
  · rw [hf, hr]
    exact ⟨rfl, by simp [Except.toOption]⟩

/-- **A file** adds its template, or fails and leaves the library as it is. -/
theorem registerFile_ofFile (path : String) (content : Except FileError String) :
    (l.registerFile path content).2 =
        l.addAll (Template.ofFile? l.contentTypes (path, content)).toList ∧
      ((∃ e, (l.registerFile path content).1 = .error e) ↔
        Template.ofFile? l.contentTypes (path, content) = none) := by
  unfold Template.ofFile? Template.named?
  obtain ⟨source, t, rfl, ht, hr⟩ | ⟨hf, e, hr⟩ := l.registerFile_cases path content <;> rw [hr]
  · simp only [Except.toOption, Option.bind_some, ht]
    exact ⟨rfl, by simp⟩
  · have hnone : (content.toOption.bind fun source =>
        (Template.compile l.contentTypes source).toOption.map
          fun t => ((Path.stem? path).getD "", t)) = none := by
      cases content with
      | error => rfl
      | ok source =>
        obtain ⟨fault, hf⟩ := hf source rfl
        simp [Except.toOption, hf]
    exact ⟨by rw [hnone]; rfl, fun _ => hnone, fun _ => ⟨e, rfl⟩⟩

/-- **Several files**: those that have no fault are added and counted. -/
theorem registerFiles_eq (files : List (String × Except FileError String)) :
    l.registerFiles files =
      (l.addAll (files.filterMap (Template.ofFile? l.contentTypes)),
        files.countP fun file => (Template.ofFile? l.contentTypes file).isSome) := by
  rw [registerFiles, ← Nat.zero_add (files.countP _)]
  generalize 0 = count
  induction files generalizing l count with
  | nil => rfl
  | cons file files ih =>
    obtain ⟨path, content⟩ := file
    obtain ⟨hnext, hfails⟩ := l.registerFile_ofFile path content
    rw [List.foldl_cons]
    dsimp only
    generalize l.registerFile path content = r at hnext hfails ⊢
    obtain ⟨answer, next⟩ := r
    dsimp only at hnext hfails
    subst hnext
    cases he : Template.ofFile? l.contentTypes (path, content) with
    | none =>
      obtain ⟨e, rfl⟩ := hfails.mpr he
      simp [he, ih]
    | some e =>
      have hadd : l.addAll (e :: files.filterMap (Template.ofFile? l.contentTypes)) =
          (l.addAll [e]).addAll (files.filterMap (Template.ofFile? l.contentTypes)) :=
        l.addAll_append [e] _
      rw [List.filterMap_cons_some he, List.countP_cons_of_pos (by rw [he]; rfl), hadd]
      cases answer with
      | error e' => nomatch he.symm.trans (hfails.mp ⟨e', rfl⟩)
      | ok => simp [ih, addAll, Nat.add_assoc, Nat.add_comm]

/-- **A request** adds what it adds to any library with the same content types. -/
theorem perform_eq (r : Request) : l.perform r = l.addAll (r.added l.contentTypes) := by
  cases r with
  | template name t => rfl
  | source name source => exact (l.registerSource_named name source).1
  | file path content => exact (l.registerFile_ofFile path content).1
  | files files =>
    rw [perform, registerFiles_eq]
    rfl

/-- A request fails if it has a single template to add and does not add it. -/
theorem Request.fails_iff (r : Request) :
    r.Fails l ↔ r.added l.contentTypes = [] ∧ ∀ files, r ≠ .files files := by
  cases r with
  | template name t => simp [Fails, added]
  | files files => simp [Fails]
  | source name source => simp [Fails, added, (l.registerSource_named name source).2]
  | file path content => simp [Fails, added, (l.registerFile_ofFile path content).2]

/-- A request that fails changes nothing. -/
theorem Request.Fails.perform {r : Request} (h : r.Fails l) : l.perform r = l := by
  rw [perform_eq, ((r.fails_iff l).mp h).1, addAll_nil]

/-! ## Requests in order -/

/-- **Several requests** add what each of them adds, in order. -/
theorem performAll_eq (requests : List Request) :
    l.performAll requests = l.addAll (requests.flatMap (Request.added l.contentTypes)) := by
  induction requests generalizing l with
  | nil => rfl
  | cons r requests ih =>
    show (l.perform r).performAll requests = _
    rw [ih, perform_eq, List.flatMap_cons, addAll_append]
    rfl

/-- **What a library holds after any requests**, whatever it held before and whatever the files come
to. Under each name it is the last template that was added under it, the name of a file being the
stem of its path, and what the library held before if there is none. The content types stay as they
are. Several files are counted as they are added, one by one. A request fails only if it has one
template to add and that cannot be read or has a fault, and then the library stays as it is. -/
theorem holds_performAll (requests : List Request) :
    (∀ name, (l.performAll requests).find? name =
      ((requests.flatMap (Request.added l.contentTypes)).reverse.lookup name).or (l.find? name)) ∧
      (l.performAll requests).contentTypes = l.contentTypes ∧
      (∀ files, ((l.performAll requests).registerFiles files).2 =
        files.countP fun file => (Template.ofFile? l.contentTypes file).isSome) ∧
      ∀ r : Request,
        (r.Fails (l.performAll requests) ↔
          r.added l.contentTypes = [] ∧ ∀ files, r ≠ .files files) ∧
        (r.Fails (l.performAll requests) →
          l.performAll (requests ++ [r]) = l.performAll requests) := by
  have htypes : (l.performAll requests).contentTypes = l.contentTypes := by
    rw [performAll_eq]
    rfl
  refine ⟨fun name => ?_, htypes, fun files => ?_, fun r => ⟨?_, fun hr => ?_⟩⟩
  · rw [performAll_eq]
    exact Entries.lookup_putAll _ _ _
  · rw [registerFiles_eq, htypes]
  · rw [Request.fails_iff, htypes]
  · show (requests ++ [r]).foldl perform l = _
    rw [List.foldl_append]
    exact hr.perform _

/-- Three templates of one name, a source and a file with a fault, and a failure at the end. -/
theorem holds_performAll_files :
    ∃ l next requests, l = empty Config.builtIn.types ∧
      requests = [.source "p" "1", .source "q" "{{#a}}",
        .files [("d/p.mustache", .ok "2"), ("x", .error .notFound), ("p.txt", .ok "3")]] ∧
      l.performAll requests = next ∧ next.templates = [("p", ⟨[.text "3"], l.contentTypes⟩)] ∧
      Request.Fails next (.file "p" (.error .invalidText)) ∧
      l.performAll (requests ++ [.file "p" (.error .invalidText)]) = next := by
  let l := empty Config.builtIn.types
  let requests : List Request := [.source "p" "1", .source "q" "{{#a}}",
    .files [("d/p.mustache", .ok "2"), ("x", .error .notFound), ("p.txt", .ok "3")]]
  obtain ⟨-, -, -, hfails⟩ := holds_performAll l requests
  obtain ⟨hiff, hkept⟩ := hfails (.file "p" (.error .invalidText))
  have hr : Request.Fails (l.performAll requests) (.file "p" (.error .invalidText)) :=
    hiff.mpr ⟨rfl, nofun⟩
  have hstem : Path.stem? "d/p.mustache" = some "p" ∧ Path.stem? "p.txt" = some "p" := by
    decide
  have hq : Token.parse l.contentTypes "{{#a}}" =
      .error ⟨.unclosedSection, 6, 1, 7, "{{#a}}"⟩ := by cbv
  have h1 : Token.parse l.contentTypes "1" = .ok [.text "1"] := by cbv
  have h2 : Token.parse l.contentTypes "2" = .ok [.text "2"] := by cbv
  have h3 : Token.parse l.contentTypes "3" = .ok [.text "3"] := by cbv
  have hadded : requests.flatMap (Request.added l.contentTypes) =
      [("p", ⟨[.text "1"], l.contentTypes⟩), ("p", ⟨[.text "2"], l.contentTypes⟩),
        ("p", ⟨[.text "3"], l.contentTypes⟩)] := by
    simp [requests, Request.added, Template.named?, Template.ofFile?, Template.compile, hstem, hq,
      h1, h2, h3, List.filterMap_cons, Except.map, Except.toOption]
  refine ⟨l, _, requests, rfl, rfl, rfl, ?_, hr, hkept hr⟩
  rw [performAll_eq, hadded]
  rfl

end Library

end Mustache
