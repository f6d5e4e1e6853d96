import Mathlib.Tactic.SplitIfs
import Mustache.Decimal.Shortest
import Mustache.Entries
import Mustache.Text.Case

/-!
# Texts without a line feed

* `Text.Unbroken`, closed under joining;
* `unbroken_lowercase`, `unbroken_uppercase`, `unbroken_capitalize`: another case breaks no line;
* `unbroken_int`, `unbroken_decimal`: neither does a number.
-/

namespace Mustache.Text

/-- The text has no line feed. -/
def Unbroken (cs : List Char) : Prop := '\n' ∉ cs

instance (cs : List Char) : Decidable (Unbroken cs) := inferInstanceAs (Decidable ('\n' ∉ cs))

variable {cs ds : List Char}

theorem unbroken_append : Unbroken (cs ++ ds) ↔ Unbroken cs ∧ Unbroken ds := by
  simp only [Unbroken, List.mem_append, not_or]

theorem unbroken_flatMap {f : Char → List Char} (h : ∀ c ∈ cs, Unbroken (f c)) :
    Unbroken (cs.flatMap f) := fun hn => by
  obtain ⟨c, hc, hn⟩ := List.mem_flatMap.mp hn
  exact h c hc hn

theorem Unbroken.subset (h : Unbroken cs) (hs : ∀ c ∈ ds, c ∈ cs) : Unbroken ds :=
  fun hn => h (hs _ hn)

theorem Unbroken.ne (h : Unbroken cs) {c : Char} (hc : c ∈ cs) : c ≠ '\n' := fun e => h (e ▸ hc)

theorem unbroken_intercalate {mark : String} (hm : Unbroken mark.toList) {texts : List String}
    (h : ∀ s ∈ texts, Unbroken s.toList) : Unbroken (mark.intercalate texts).toList := by
  induction texts with
  | nil => rw [String.intercalate_nil]; decide
  | cons s texts ih =>
    obtain ⟨hs, hts⟩ := List.forall_mem_cons.mp h
    by_cases he : texts = []
    · rw [he, String.intercalate_singleton]
      exact hs
    · rw [String.intercalate_cons_of_ne_nil he, String.toList_append, String.toList_append]
      exact unbroken_append.mpr ⟨unbroken_append.mpr ⟨hs, hm⟩, ih hts⟩

/-! ## Case -/

theorem ofNat_ne_lineFeed {n : Nat} (h : n ≠ 10) : Char.ofNat n ≠ '\n' := by
  intro e
  by_cases hv : n.isValidChar
  · rw [Char.ofNat, dif_pos hv] at e
    exact h (congrArg Char.toNat e)
  · rw [Char.ofNat, dif_neg hv] at e
    exact absurd e (by decide)

theorem unbroken_otherCase {runs : List CaseRun} {expansions : List (Nat × List Nat)}
    (hr : ∀ r ∈ runs, 10 < (r.first : Int) + r.offset) (he : ∀ e ∈ expansions, 10 ∉ e.2) {c : Char}
    (hc : c ≠ '\n') : Unbroken (otherCase runs expansions c) := by
  unfold otherCase
  split
  · rename_i letters hl
    intro hn
    obtain ⟨n, hm, hn⟩ := List.mem_map.mp hn
    refine ofNat_ne_lineFeed (fun e => ?_) hn
    exact he _ (Entries.mem_of_lookup hl) (e ▸ hm)
  · split
    · rename_i n hs
      obtain ⟨r, hm, hn⟩ := List.exists_of_findSome?_eq_some hs
      have hb := hr r hm
      unfold CaseRun.shift? at hn
      split at hn
      · cases hn
        intro hn
        refine ofNat_ne_lineFeed ?_ (List.mem_singleton.mp hn).symm
        omega
      · nomatch hn
    · intro hn
      exact hc (List.mem_singleton.mp hn).symm

theorem unbroken_toLower {c : Char} (hc : c ≠ '\n') : Unbroken (toLower c) :=
  unbroken_otherCase (by decide +kernel) (by decide +kernel) hc

theorem unbroken_toUpper {c : Char} (hc : c ≠ '\n') : Unbroken (toUpper c) :=
  unbroken_otherCase (by decide +kernel) (by decide +kernel) hc

theorem unbroken_lowercaseAfter (h : Unbroken cs) (before : List Char) :
    Unbroken (lowercaseAfter before cs) := by
  induction cs generalizing before with
  | nil => exact h
  | cons c cs ih =>
    rw [lowercaseAfter, unbroken_append]
    refine ⟨?_, ih (h.subset fun _ => .tail _) _⟩
    split_ifs
    · decide
    · decide
    · exact unbroken_toLower (h.ne (.head _))

theorem unbroken_capitalizeFrom (h : Unbroken cs) (start : Bool) :
    Unbroken (capitalizeFrom start cs) := by
  induction cs generalizing start with
  | nil => exact h
  | cons c cs ih =>
    have hc : c ≠ '\n' := h.ne (.head _)
    have hcs : Unbroken cs := h.subset fun _ => .tail _
    rw [capitalizeFrom]
    split_ifs
    · exact fun hn => (List.mem_cons.mp hn).elim (fun e => hc e.symm) (ih hcs true)
    · exact unbroken_append.mpr ⟨unbroken_toUpper hc, ih hcs false⟩
    · exact unbroken_append.mpr ⟨unbroken_toLower hc, ih hcs false⟩

section

variable {s : String} (h : Unbroken s.toList)

include h

theorem unbroken_lowercase : Unbroken (lowercase s).toList := by
  rw [lowercase, String.toList_ofList]
  exact unbroken_lowercaseAfter h []

theorem unbroken_uppercase : Unbroken (uppercase s).toList := by
  rw [uppercase, String.toList_ofList]
  exact unbroken_flatMap fun c hc => unbroken_toUpper (h.ne hc)

theorem unbroken_capitalize : Unbroken (capitalize s).toList := by
  rw [capitalize, String.toList_ofList]
  exact unbroken_capitalizeFrom h true

end

/-! ## Numbers -/

theorem unbroken_digits (n : Nat) : Unbroken (Nat.toDigits 10 n) := fun hn =>
  absurd (Nat.isDigit_of_mem_toDigits (by decide) (by decide) hn) (by decide)

theorem unbroken_int (n : Int) : Unbroken (toString n).toList := by
  have digits (m : Nat) : Unbroken (toString m).toList := by
    show Unbroken (String.ofList (Nat.toDigits 10 m)).toList
    rw [String.toList_ofList]
    exact unbroken_digits m
  cases n with
  | ofNat m => exact digits m
  | negSucc m =>
    show Unbroken ("-" ++ toString (m + 1)).toList
    rw [String.toList_append]
    exact unbroken_append.mpr ⟨by decide, digits (m + 1)⟩

theorem unbroken_zeros (n : Nat) : Unbroken (List.replicate n '0') := fun hn =>
  absurd (List.eq_of_mem_replicate hn) (by decide)

theorem unbroken_positional (d : Nat) (u : Int) : Unbroken (Decimal.positional d u).toList := by
  unfold Decimal.positional
  simp only
  split_ifs
  · rw [String.toList_ofList]
    exact unbroken_append.mpr ⟨unbroken_digits d, unbroken_zeros _⟩
  · have padded (n : Nat) : Unbroken (List.replicate n '0' ++ Nat.toDigits 10 d) :=
      unbroken_append.mpr ⟨unbroken_zeros n, unbroken_digits d⟩
    rw [String.toList_ofList, unbroken_append]
    refine ⟨(padded _).subset fun _ => List.mem_of_mem_take, fun hn => ?_⟩
    obtain h | h := List.mem_cons.mp hn
    · exact absurd h (by decide)
    · exact padded _ (List.mem_of_mem_drop h)

theorem unbroken_decimal (x : Float) : Unbroken (Decimal.render x).toList := by
  unfold Decimal.render
  extract_lets bits size text
  have ht : Unbroken text.toList := by
    unfold text
    split_ifs
    · decide
    · decide
    · exact unbroken_positional _ _
  split_ifs
  · decide
  · rw [String.toList_append]
    exact unbroken_append.mpr ⟨by decide, ht⟩
  · exact ht

end Mustache.Text
