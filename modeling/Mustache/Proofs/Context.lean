import Mathlib.Data.List.DropRight
import Mustache.Context

/-!
# Contexts made from others

A context is made from the root by steps, each of which keeps some of its parts and replaces or
extends the others. What a context is after all of them can be said of each part by itself, in terms
of the steps.

* `Context.Derivation`: a step, with what it gives to each part of a context;
* `Context.derive`, `Context.deriveAll`: a step, and several of them in order;
* what a step does to each part: `stack_derive`, `position_derive`, `indentation_derive`,
  `override?_derive`, `contentType_derive`, `registered_derive`;
* what steps in order come to: `stack_deriveAll` to `contentType_deriveAll`;
* **`Context.parts_deriveAll`**.
-/

namespace Mustache.Context

/-- A step from a context to one that is made from it. -/
inductive Derivation where
  | object (value : Value)
  | element (value : Value) (position : Position)
  | template (indentation : Option String) (overrides : Overrides)
  | block (indentation : Option String)
  | contentType (id : String)

namespace Derivation

/-- The value that is entered. -/
def value? : Derivation → Option Value
  | object value => some value
  | element value _ => some value
  | _ => none

/-- Whether the step leaves the sequence that the context may be in. -/
def moves : Derivation → Bool
  | object _ => true
  | element _ _ => true
  | template _ _ => true
  | _ => false

/-- The position in the sequence that is entered. -/
def position? : Derivation → Option Position
  | element _ position => some position
  | _ => none

/-- The indentation of a template or a block. -/
def indentation? : Derivation → Option String
  | template indentation _ => indentation
  | block indentation => indentation
  | _ => none

/-- The body that a template is given for a block. -/
def override? (name : String) : Derivation → Option (List Token)
  | template _ overrides => overrides.lookup name
  | _ => none

/-- Whether the step enters a template. -/
def isTemplate : Derivation → Bool
  | template _ _ => true
  | _ => false

/-- The content type that is named, if there is one of its id. -/
def type? (types : ContentTypes) : Derivation → Option ContentType
  | contentType id => types.find? id
  | _ => none

end Derivation

/-- The context that a step leads to. -/
def derive (c : Context) : Derivation → Context
  | .object value => c.withObject value
  | .element value position => c.withElement value position
  | .template indentation overrides => c.withPartial indentation overrides
  | .block indentation => c.withBlock indentation
  | .contentType id => c.withContentType id

/-- The context that several steps lead to. -/
def deriveAll (c : Context) (steps : List Derivation) : Context := steps.foldl derive c

/-- Indentations one inside the other, the outermost first. -/
def joinAll : List String → Option String
  | [] => none
  | outer :: inner => some (String.join (outer :: inner))

variable {c : Context} {name : String}

/-! ## Fields -/

@[simp] theorem joinIndentation_none (outer : Option String) :
    joinIndentation outer none = outer := by
  cases outer <;> rfl

/-- Of the context, a pragma changes the content type only. -/
theorem withContentType_eq (c : Context) (id : String) :
    ∃ type, c.withContentType id = { c with contentType := type } := by
  unfold withContentType
  cases c.contentTypes.find? id with
  | some type => exact ⟨type, rfl⟩
  | none => exact ⟨c.contentType, rfl⟩

@[simp] theorem override?_withObject (value : Value) :
    (c.withObject value).override? name = c.override? name := rfl

@[simp] theorem override?_withElement (value : Value) (position : Position) :
    (c.withElement value position).override? name = c.override? name := rfl

@[simp] theorem override?_withPartial (indentation : Option String) (own : Overrides) :
    (c.withPartial indentation own).override? name =
      (c.override? name).or (own.lookup name) :=
  Entries.lookup_fill _ _ _

@[simp] theorem override?_withBlock (indentation : Option String) :
    (c.withBlock indentation).override? name = c.override? name := rfl

@[simp] theorem override?_withContentType (id : String) :
    (c.withContentType id).override? name = c.override? name := by
  obtain ⟨type, he⟩ := c.withContentType_eq id
  rw [he]
  rfl

/-! ## One step -/

section

variable (c : Context) (d : Derivation)

theorem stack_derive : (c.derive d).stack = c.stack ++ d.value?.toList := by
  cases d with
  | object value | element value position => simp [derive, withObject, withElement, stack,
      Derivation.value?]
  | template indentation overrides | block indentation =>
    simp [derive, withPartial, withBlock, stack, Derivation.value?]
  | contentType id =>
    obtain ⟨type, he⟩ := c.withContentType_eq id
    simp [derive, he, stack, Derivation.value?]

theorem position_derive :
    (c.derive d).position = if d.moves then d.position? else c.position := by
  cases d with
  | object value | element value position | template indentation overrides | block indentation =>
    rfl
  | contentType id =>
    obtain ⟨type, he⟩ := c.withContentType_eq id
    rw [derive, he]
    rfl

theorem indentation_derive :
    (c.derive d).indentation = joinIndentation c.indentation d.indentation? := by
  cases d with
  | template indentation overrides | block indentation => rfl
  | object value | element value position => exact (joinIndentation_none _).symm
  | contentType id =>
    obtain ⟨type, he⟩ := c.withContentType_eq id
    rw [derive, he]
    exact (joinIndentation_none _).symm

/-- A block that is filled in stays so. -/
theorem override?_derive (name : String) :
    (c.derive d).override? name = (c.override? name).or (d.override? name) := by
  cases d <;> simp [derive, Derivation.override?]

/-- What is registered is the same for all contexts. -/
theorem registered_derive :
    (c.derive d).contentTypes = c.contentTypes ∧ (c.derive d).library = c.library := by
  cases d with
  | contentType id =>
    obtain ⟨type, he⟩ := c.withContentType_eq id
    rw [derive, he]
    exact ⟨rfl, rfl⟩
  | object | element | template | block => exact ⟨rfl, rfl⟩

/-- A template starts with the default; apart from that the content type stays until another one is
named. -/
theorem contentType_derive :
    (c.derive d).contentType =
      if d.isTemplate then c.contentTypes.defaultType
      else (d.type? c.contentTypes).getD c.contentType := by
  cases d with
  | contentType id =>
    simp only [derive, withContentType, Derivation.isTemplate, Derivation.type?]
    cases c.contentTypes.find? id <;> rfl
  | object | element | template | block => rfl

end

/-! ## Steps in order -/

theorem deriveAll_concat (c : Context) (steps : List Derivation) (d : Derivation) :
    c.deriveAll (steps ++ [d]) = (c.deriveAll steps).derive d := by
  simp [deriveAll]

theorem joinIndentation_joinAll (outer : List String) (inner : Option String) :
    joinIndentation (joinAll outer) inner = joinAll (outer ++ inner.toList) := by
  cases inner with
  | none => simp
  | some blanks => cases outer <;> simp [joinAll, joinIndentation, String.append_assoc]

section

variable (c : Context) (steps : List Derivation)

theorem stack_deriveAll :
    (c.deriveAll steps).stack = c.stack ++ steps.filterMap Derivation.value? := by
  induction steps using List.reverseRecOn with
  | nil => simp [deriveAll]
  | append_singleton steps d ih =>
    rw [deriveAll_concat, stack_derive, ih, List.filterMap_append, List.append_assoc]
    cases h : d.value? <;> simp [h]

theorem position_deriveAll :
    (c.deriveAll steps).position =
      ((steps.filter Derivation.moves).getLast?.map Derivation.position?).getD c.position := by
  induction steps using List.reverseRecOn with
  | nil => rfl
  | append_singleton steps d ih =>
    rw [deriveAll_concat, position_derive, List.filter_append]
    by_cases h : d.moves
    · simp [h]
    · simp [h, ih]

theorem indentation_deriveAll (hi : c.indentation = none) :
    (c.deriveAll steps).indentation = joinAll (steps.filterMap Derivation.indentation?) := by
  induction steps using List.reverseRecOn with
  | nil => exact hi
  | append_singleton steps d ih =>
    rw [deriveAll_concat, indentation_derive, ih, joinIndentation_joinAll, List.filterMap_append]
    cases h : d.indentation? <;> simp [h]

theorem override?_deriveAll (name : String) :
    (c.deriveAll steps).override? name =
      (c.override? name).or (steps.findSome? (Derivation.override? name)) := by
  induction steps using List.reverseRecOn with
  | nil => simp [deriveAll]
  | append_singleton steps d ih =>
    rw [deriveAll_concat, override?_derive, ih, List.findSome?_append, Option.or_assoc]
    cases h : d.override? name <;> simp [h]

theorem registered_deriveAll :
    (c.deriveAll steps).contentTypes = c.contentTypes ∧
      (c.deriveAll steps).library = c.library := by
  induction steps using List.reverseRecOn with
  | nil => exact ⟨rfl, rfl⟩
  | append_singleton steps d ih =>
    obtain ⟨htypes, hlibrary⟩ := (c.deriveAll steps).registered_derive d
    rw [deriveAll_concat, htypes, hlibrary]
    exact ih

/-- Only what comes after the last template matters to the content type. -/
theorem contentType_deriveAll (hc : c.contentType = c.contentTypes.defaultType) :
    (c.deriveAll steps).contentType =
      (((steps.rtakeWhile fun d => !d.isTemplate).filterMap
        (Derivation.type? c.contentTypes)).getLast?).getD c.contentTypes.defaultType := by
  induction steps using List.reverseRecOn with
  | nil => exact hc
  | append_singleton steps d ih =>
    rw [deriveAll_concat, contentType_derive, (registered_deriveAll c steps).1,
      List.rtakeWhile_concat]
    by_cases ht : d.isTemplate
    · simp [ht]
    · cases h : d.type? c.contentTypes <;> simp [ht, h, ih]

end

/-- **What a context is after any steps from the root.** Its objects are the root and the values that
were entered, in order. It has a position if the last step into an object, an element or a template
was one into an element, and then the position given there. Its indentation joins all those that
templates and blocks were given, the outermost first. A block is filled in by the first template
that was given a body for it. The content type is the last one that was named and is registered
since the last template was entered, or else the default. -/
theorem parts_deriveAll (data : Value) (types : ContentTypes) (library : Option Library)
    (steps : List Derivation) :
    let c := (root data types library).deriveAll steps
    c.stack = data :: steps.filterMap Derivation.value? ∧
      c.position = (steps.filter Derivation.moves).getLast?.bind Derivation.position? ∧
      c.indentation = joinAll (steps.filterMap Derivation.indentation?) ∧
      (∀ name, c.override? name = steps.findSome? (Derivation.override? name)) ∧
      c.contentType = (((steps.rtakeWhile fun d => !d.isTemplate).filterMap
        (Derivation.type? types)).getLast?).getD types.defaultType ∧
      c.contentTypes = types ∧ c.library = library := by
  refine ⟨?_, ?_, ?_, fun name => ?_, ?_, registered_deriveAll _ steps⟩
  · exact stack_deriveAll _ steps
  · rw [position_deriveAll]
    cases (steps.filter Derivation.moves).getLast? <;> rfl
  · exact indentation_deriveAll _ steps rfl
  · exact override?_deriveAll _ steps name
  · exact contentType_deriveAll _ steps rfl

end Mustache.Context
