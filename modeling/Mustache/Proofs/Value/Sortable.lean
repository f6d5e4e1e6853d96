import Mustache.Proofs.Value.Occurs

/-!
# Values that can be sorted

Sorting comes upon disorder in long sequences only, and only if the comparison of their elements is
no order. Transforms make no such sequence of values that have none. So what is nowhere in the data
is never come upon.

* `Value.Orderly.mono`, `Value.length_of_sort?`; `Value.Sortable`, **`Value.stable_sortable`**;
* `Transform.result?_ne_disorder`, `Transform.chain?_ne_disorder`; **`resolve_ne_disorder`**.
-/

namespace Mustache

open Sorting Sorting.Procedure

namespace Value

variable {items items' sorted : List Value}

/-- Fewer of the values, or the same in another order. -/
theorem Orderly.mono (h : Orderly items) (hsub : items' ⊆ items)
    (hfew : items.length ≤ 20 → items'.length ≤ 20) : Orderly items' := by
  obtain hlength | ⟨order, htrans, horder⟩ := h
  · exact .inl (hfew hlength)
  · exact .inr ⟨order, htrans, fun v hv w hw => horder v (hsub hv) w (hsub hw)⟩

/-- Few values that are sorted are as many as before. -/
theorem length_of_sort? (h : sort? items = .value sorted) (hfew : items.length ≤ 20) :
    sorted.length = items.length := by
  obtain ⟨places, hrun, rfl⟩ := sortBy?_eq_value.mp h
  obtain ⟨other, hother, hperm⟩ := exists_eval_insertion
    (fun i j => place? items.toArray i j == some .lt) (List.finRange items.toArray.size)
  have heval := congrArg (Option.map Prod.fst) hrun
  rw [run_fst, sort, if_pos (by rwa [List.length_finRange]), hother] at heval
  cases heval
  simpa using hperm.length_eq

/-- The value is no sequence that may be found out of order. -/
def Sortable (v : Value) : Prop := ∀ items, v = .sequence items → Orderly items

theorem sortable_sequence : Sortable (.sequence items) ↔ Orderly items :=
  ⟨fun h => h items rfl, by rintro h _ ⟨⟩; exact h⟩

/-- Maps all count as equal. -/
theorem orderly_entries (entries : List (String × Value)) :
    Orderly (entries.map Transform.entry) := by
  have hequal : Std.TransCmp fun _ _ : Value => Ordering.eq :=
    { eq_swap := rfl, isLE_trans := fun _ _ => rfl }
  refine .inr ⟨_, hequal, fun v hv w hw => ?_⟩
  obtain ⟨e, -, rfl⟩ := List.mem_map.mp hv
  obtain ⟨e', -, rfl⟩ := List.mem_map.mp hw
  rfl

theorem stable_sortable : Stable Sortable where
  bool _ := nofun
  int _ := nofun
  float _ := nofun
  reversed h := sortable_sequence.mpr <| (sortable_sequence.mp h).mono
    (fun _ hv => List.mem_reverse.mp hv) (by rw [List.length_reverse]; exact id)
  sorted h hs := sortable_sequence.mpr <| (sortable_sequence.mp h).mono
    (fun _ hv => mem_of_sort? hs hv) fun hfew => (length_of_sort? hs hfew).trans_le hfew
  enumerated entries := sortable_sequence.mpr (orderly_entries entries)
  text _ _ := nofun
  key _ _ := nofun
  entry _ _ := nofun

end Value

namespace Transform

variable {v : Value}

theorem result?_ne_disorder (h : v.Sortable) (name : String) : result? v name ≠ .disorder := by
  cases v with
  | sequence items =>
    rw [result?]
    unfold ofSequence?
    split
    · exact Found.ofOption_ne_disorder
    · exact Found.ofOption_ne_disorder
    · exact nofun
    · exact nofun
    · exact nofun
    · exact Found.map_eq_disorder.not.mpr (Value.sort?_ne_disorder (h items rfl))
    · exact nofun
  | text | int | float | map | object => exact Found.ofOption_ne_disorder
  | null | bool | lambda => exact nofun

/-- A chain of transforms does not come upon disorder. -/
theorem chain?_ne_disorder (h : v.Everywhere Value.Sortable) (names : List String) :
    chain? v names ≠ .disorder := by
  induction names generalizing v with
  | nil => exact nofun
  | cons name names ih =>
    rw [chain?]
    cases hr : result? v name with
    | value w => exact ih (Value.stable_sortable.result? h hr)
    | miss => exact nofun
    | disorder => exact absurd hr (result?_ne_disorder h.here name)

end Transform

/-- **No expression comes upon disorder**, if nothing in the objects can be found out of order. -/
theorem resolve_ne_disorder {c : Context}
    (h : ∀ v ∈ c.top :: c.below, v.Everywhere Value.Sortable) (e : Expression) (calls : Calls) :
    (resolve c e calls).1 ≠ .disorder := by
  unfold resolve
  split
  · rename_i v after hv
    obtain hv | ⟨⟨p, rfl⟩, ht⟩ := Value.resolveName_cases h (by rw [hv])
    · exact Transform.chain?_ne_disorder hv e.transforms
    · obtain ⟨name, names, hn⟩ := List.exists_cons_of_ne_nil ht
      rw [hn, Transform.chain?]
      cases hr : Transform.result? p.object name with
      | value w =>
        exact Transform.chain?_ne_disorder
          (Value.stable_sortable.position (Found.ofOption_eq_value.mp hr)) names
      | miss => exact nofun
      | disorder => exact absurd hr (Found.ofOption_ne_disorder)
  · exact nofun

end Mustache
