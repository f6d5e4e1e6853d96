import Mathlib.Data.List.Forall2
import Mathlib.Tactic.SplitIfs
import Mustache.Proofs.Value.Sort
import Mustache.Render

/-!
# Values at any depth

What a value can bring into a rendering: the elements of a sequence, the entries of a map, and
whatever lambdas and host objects answer with. A property of values that transforms keep holds of
all that names and expressions resolve to, if it holds everywhere in the data.

* `Value.Part`, `Value.Occurs`, `Value.Everywhere`, with `Value.everywhere_iff`;
* `Value.Stable`: a property that transforms keep; `Value.NotLambda`;
* **`Value.Stable.resolve`**: what an expression resolves to.
-/

namespace Mustache

namespace Value

/-- The first value is directly inside the second, or one of its answers. -/
inductive Part : Value → Value → Prop
  | item {items : List Value} {u : Value} (h : u ∈ items) : Part u (.sequence items)
  | entry {entries : List (String × Value)} {name : String} {u : Value} (h : (name, u) ∈ entries) :
    Part u (.map entries)
  | answer (number : Nat) (answer : Nat → String → Value) (n : Nat) (input : String) :
    Part (answer n input) (.lambda number answer)
  | child {number : Nat} {face : Face} {child property transform : String → Option Value}
    {name : String} {u : Value} (h : child name = some u) :
    Part u (.object number face child property transform)
  | property {number : Nat} {face : Face} {child property transform : String → Option Value}
    {name : String} {u : Value} (h : property name = some u) :
    Part u (.object number face child property transform)
  | transform {number : Nat} {face : Face} {child property transform : String → Option Value}
    {name : String} {u : Value} (h : transform name = some u) :
    Part u (.object number face child property transform)

/-- The first value is the second or occurs in a part of it. -/
inductive Occurs (u : Value) : Value → Prop
  | here : Occurs u u
  | inside {v w : Value} (hw : Part w v) (h : Occurs u w) : Occurs u v

/-- The property holds of the value and of all that occurs in it. -/
def Everywhere (q : Value → Prop) (v : Value) : Prop := ∀ u, Occurs u v → q u

variable {q : Value → Prop}

/-- **A property holds everywhere if it holds of the value and everywhere in its parts.** -/
theorem everywhere_iff {v : Value} :
    Everywhere q v ↔ q v ∧ ∀ u, Part u v → Everywhere q u := by
  constructor
  · intro h
    exact ⟨h v .here, fun u hu w hw => h w (.inside hu hw)⟩
  · rintro ⟨hv, hp⟩ u hu
    cases hu with
    | here => exact hv
    | inside hw hu => exact hp _ hw u hu

theorem Everywhere.here {v : Value} (h : Everywhere q v) : q v := (everywhere_iff.mp h).1

theorem Everywhere.part {u v : Value} (h : Everywhere q v) (hu : Part u v) : Everywhere q u :=
  (everywhere_iff.mp h).2 u hu

/-- A value without parts. -/
theorem everywhere_of_no_part {v : Value} (hv : q v) (hp : ∀ u, ¬ Part u v) : Everywhere q v :=
  everywhere_iff.mpr ⟨hv, fun u hu => absurd hu (hp u)⟩

theorem everywhere_text {s : String} (hv : q (.text s)) : Everywhere q (.text s) :=
  everywhere_of_no_part hv nofun

theorem everywhere_map {entries : List (String × Value)} (hv : q (.map entries))
    (h : ∀ e ∈ entries, Everywhere q e.2) : Everywhere q (.map entries) := by
  refine everywhere_iff.mpr ⟨hv, fun u hu => ?_⟩
  cases hu with
  | entry hm => exact h _ hm

theorem everywhere_sequence {items : List Value} (hv : q (.sequence items))
    (h : ∀ v ∈ items, Everywhere q v) : Everywhere q (.sequence items) := by
  refine everywhere_iff.mpr ⟨hv, fun u hu => ?_⟩
  cases hu with
  | item hm => exact h u hm

/-! ## What transforms keep -/

/-- A property that transforms keep. -/
structure Stable (q : Value → Prop) : Prop where
  bool : ∀ b, q (.bool b)
  int : ∀ n, q (.int n)
  float : ∀ x, q (.float x)
  reversed : ∀ {items}, q (.sequence items) → q (.sequence items.reverse)
  sorted : ∀ {items sorted}, q (.sequence items) → sort? items = .value sorted →
    q (.sequence sorted)
  enumerated : ∀ entries : List (String × Value), q (.sequence (entries.map Transform.entry))
  text : ∀ {s name t}, q (.text s) → Transform.ofText? s name = some (.text t) → q (.text t)
  key : ∀ {entries e}, q (.map entries) → e ∈ entries → q (.text e.1)
  entry : ∀ {entries e}, q (.map entries) → e ∈ entries → q (Transform.entry e)

section

variable (hq : Stable q)

include hq

theorem Stable.everywhere_bool (b : Bool) : Everywhere q (.bool b) :=
  everywhere_of_no_part (hq.bool b) nofun

theorem Stable.everywhere_int (n : Int) : Everywhere q (.int n) :=
  everywhere_of_no_part (hq.int n) nofun

theorem Stable.everywhere_float (x : Float) : Everywhere q (.float x) :=
  everywhere_of_no_part (hq.float x) nofun

end

theorem Everywhere.items {items : List Value} (h : Everywhere q (.sequence items)) :
    ∀ v ∈ items, Everywhere q v := fun _ hv => h.part (.item hv)

section

variable (hq : Stable q) {u v : Value} {name : String}

include hq

theorem Stable.ofText? {s : String} (h : q (.text s)) (hu : Transform.ofText? s name = some u) :
    Everywhere q u := by
  have ht {t : String} (e : u = .text t) : Everywhere q u := by
    subst e
    exact everywhere_text (hq.text h hu)
  unfold Transform.ofText? at hu
  split at hu
  · cases hu; exact hq.everywhere_bool _
  · cases hu; exact hq.everywhere_int _
  · exact ht (Option.some.inj hu).symm
  · exact ht (Option.some.inj hu).symm
  · exact ht (Option.some.inj hu).symm
  · exact ht (Option.some.inj hu).symm
  · nomatch hu

theorem Stable.ofInt? {n : Int} (hu : Transform.ofInt? n name = some u) : Everywhere q u := by
  have hi {m : Int} (h : Transform.inRange? m = some u) : Everywhere q u := by
    unfold Transform.inRange? at h
    split_ifs at h
    cases h
    exact hq.everywhere_int m
  unfold Transform.ofInt? at hu
  split at hu
  · cases hu; exact hq.everywhere_bool _
  · exact hi hu
  · exact hi hu
  · cases hu; exact hq.everywhere_bool _
  · cases hu; exact hq.everywhere_bool _
  · nomatch hu

theorem Stable.ofFloat? {x : Float} (hu : Transform.ofFloat? x name = some u) :
    Everywhere q u := by
  unfold Transform.ofFloat? at hu
  split at hu
  · cases hu; exact hq.everywhere_bool _
  · cases hu; exact hq.everywhere_float _
  · cases hu; exact hq.everywhere_float _
  · nomatch hu

theorem Stable.ofSequence? {items : List Value} (h : Everywhere q (.sequence items))
    (hu : Transform.ofSequence? items name = .value u) : Everywhere q u := by
  unfold Transform.ofSequence? at hu
  split at hu
  · exact h.items u (List.mem_of_head? (Found.ofOption_eq_value.mp hu))
  · exact h.items u (List.mem_of_getLast? (Found.ofOption_eq_value.mp hu))
  · cases hu; exact hq.everywhere_int _
  · cases hu; exact hq.everywhere_bool _
  · cases hu
    exact everywhere_sequence (hq.reversed h.here) fun v hv => h.items v (List.mem_reverse.mp hv)
  · obtain ⟨sorted, hs, rfl⟩ := Found.map_eq_value.mp hu
    exact everywhere_sequence (hq.sorted h.here hs) fun v hv => h.items v (mem_of_sort? hs hv)
  · cases hu

theorem Stable.ofMap? {entries : List (String × Value)} (h : Everywhere q (.map entries))
    (hu : Transform.ofMap? entries name = some u) : Everywhere q u := by
  unfold Transform.ofMap? at hu
  split at hu
  · cases hu; exact hq.everywhere_int _
  · cases hu; exact hq.everywhere_bool _
  · cases hu
    refine everywhere_sequence (hq.enumerated _) fun v hv => ?_
    obtain ⟨e, he, rfl⟩ := List.mem_map.mp hv
    have he := List.mem_mergeSort.mp he
    have key : Everywhere q (.text e.1) := everywhere_text (hq.key h.here he)
    have value : Everywhere q e.2 := h.part (.entry he)
    exact everywhere_map (hq.entry h.here he)
      (List.forall_mem_cons.mpr ⟨key, List.forall_mem_singleton.mpr value⟩)
  · nomatch hu

theorem Stable.result? (h : Everywhere q v) (hu : Transform.result? v name = .value u) :
    Everywhere q u := by
  cases v with
  | text s => exact hq.ofText? h.here (Found.ofOption_eq_value.mp hu)
  | int n => exact hq.ofInt? (Found.ofOption_eq_value.mp hu)
  | float x => exact hq.ofFloat? (Found.ofOption_eq_value.mp hu)
  | sequence items => exact hq.ofSequence? h hu
  | map entries => exact hq.ofMap? h (Found.ofOption_eq_value.mp hu)
  | object => exact h.part (.transform (Found.ofOption_eq_value.mp hu))
  | null | bool | lambda => cases hu

/-- What a chain of transforms comes to. -/
theorem Stable.chain? {names : List String} (h : Everywhere q v)
    (hu : Transform.chain? v names = .value u) : Everywhere q u := by
  induction names generalizing v with
  | nil => cases hu; exact h
  | cons name names ih =>
    obtain ⟨w, hw, hu⟩ := Found.bind_eq_value.mp hu
    exact ih (hq.result? h hw) hu

theorem Stable.position {p : Position} (hu : p.transform name = some u) : Everywhere q u := by
  unfold Position.transform at hu
  split at hu
  · cases hu; exact hq.everywhere_bool _
  · cases hu; exact hq.everywhere_bool _
  · cases hu; exact hq.everywhere_int _
  · cases hu; exact hq.everywhere_bool _
  · cases hu; exact hq.everywhere_bool _
  · nomatch hu

end

/-! ## Lambdas -/

/-- The value is not a lambda. -/
def NotLambda (v : Value) : Prop := ∀ number answer, v ≠ .lambda number answer

theorem stable_notLambda : Stable NotLambda where
  bool _ := nofun
  int _ := nofun
  float _ := nofun
  reversed _ := nofun
  sorted _ _ := nofun
  enumerated _ := nofun
  text _ _ := nofun
  key _ _ := nofun
  entry _ _ := nofun

/-- A value that is not a lambda is not followed. -/
theorem NotLambda.settle {v : Value} (hv : v.NotLambda) (input : String) (calls : Calls) :
    v.settle input calls = (v, calls) := by
  rw [Value.settle]
  exact hv

/-! ## What names find -/

theorem Everywhere.settle {v : Value} (h : Everywhere q v) (input : String) (calls : Calls) :
    Everywhere q (v.settle input calls).1 := by
  fun_induction Value.settle input v calls with
  | case1 calls number answer ih => exact ih (h.part (.answer _ _ _ _))
  | case2 => exact h

theorem Everywhere.child? {u v : Value} {name : String} {calls : Calls} (h : Everywhere q v)
    (hu : (v.child? name calls).1 = some u) : Everywhere q u := by
  fun_induction Value.child? name v calls with
  | case1 calls entries => exact h.part (.entry (Entries.mem_of_lookup hu))
  | case2 calls number face child property transform =>
    obtain hu | ⟨-, hu⟩ := Option.or_eq_some_iff.mp hu
    · exact h.part (.child hu)
    · exact h.part (.property hu)
  | case3 calls number answer ih => exact ih (h.part (.answer _ _ _ _)) hu
  | case4 => nomatch hu

theorem everywhere_climb {name : String} {objects : List Value} {calls : Calls} {u : Value}
    (h : ∀ v ∈ objects, Everywhere q v) (hu : (climb name objects calls).1 = some u) :
    Everywhere q u := by
  induction objects generalizing calls with
  | nil => nomatch hu
  | cons v objects ih =>
    obtain ⟨hv, ho⟩ := List.forall_mem_cons.mp h
    rw [climb] at hu
    split at hu
    · rename_i w after hw
      exact hv.child? (by rw [hw]; exact hu)
    · exact ih ho hu

theorem everywhere_descend {names : List String} {v u : Value} {calls : Calls}
    (h : Everywhere q v) (hu : (descend names v calls).1 = some u) : Everywhere q u := by
  induction names generalizing v calls with
  | nil => cases hu; exact h
  | cons name names ih =>
    rw [descend] at hu
    split at hu
    · rename_i w after hw
      exact ih (h.child? (by rw [hw])) hu
    · nomatch hu

/-- A name finds something in the objects, or the position if a transform follows. -/
theorem resolveName_cases {c : Context} {e : Expression} {calls : Calls} {v : Value}
    (h : ∀ v ∈ c.top :: c.below, Everywhere q v) (hv : (resolveName c e calls).1 = some v) :
    Everywhere q v ∨ (∃ p : Position, v = p.object) ∧ e.transforms ≠ [] := by
  have htop := h c.top (.head _)
  unfold resolveName at hv
  split_ifs at hv with hdot hposition
  · cases hv
    exact .inl htop
  · obtain ⟨p, -, rfl⟩ := Option.map_eq_some_iff.mp hv
    exact .inr ⟨⟨p, rfl⟩, hposition.2⟩
  · refine .inl ?_
    split at hv
    · exact everywhere_descend htop hv
    · split at hv
      · nomatch hv
      · split at hv
        · rename_i w after hw
          exact everywhere_descend (everywhere_climb h (by rw [hw])) hv
        · nomatch hv

/-- **What an expression resolves to** has a property that transforms keep, if it holds everywhere
in the objects of the context. -/
theorem Stable.resolve (hq : Stable q) {c : Context} {e : Expression} {calls : Calls} {u : Value}
    (h : ∀ v ∈ c.top :: c.below, Everywhere q v)
    (hu : (Mustache.resolve c e calls).1 = .value u) : Everywhere q u := by
  unfold Mustache.resolve at hu
  split at hu
  · rename_i v after hv
    obtain hv | ⟨⟨p, rfl⟩, ht⟩ := resolveName_cases h (by rw [hv])
    · exact hq.chain? hv hu
    · -- The position itself is never found, only what it answers to the first transform.
      obtain ⟨name, names, hn⟩ := List.exists_cons_of_ne_nil ht
      rw [hn] at hu
      obtain ⟨w, hw, hu⟩ := Found.bind_eq_value.mp hu
      exact hq.chain? (hq.position (Found.ofOption_eq_value.mp hw)) hu
  · cases hu

end Value

end Mustache
