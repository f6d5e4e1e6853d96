import Mustache.Proofs.Tag.Sigil
import Mustache.Proofs.Text.Trim

/-!
# Padding in a tag

Blanks right after the sigil of a tag, or right before its terminator, are trimmed with those that
are there. Neither do they hide the terminator, since it has no blanks.

* `Text.unmet_padded`: a literal without blanks does not start before blanks that are put in;
* `Sigil.proper_terminator`, `Sigil.fits_padded`;
* `Sigil.Gap`: a place for padding; **`Tag.meet_padded`**.
-/

namespace Mustache

variable {w text rest : List Char}

/-- **Blanks that are put in** do not make a literal that has none. -/
theorem Text.unmet_padded {mark : List Char} (hm : ∀ c ∈ mark, isBlank c = false)
    (hw : ∀ c ∈ w, isBlank c = true) (h : Unmet mark text rest) : Unmet mark text (w ++ rest) := by
  cases w with
  | nil => exact h
  | cons x w =>
    rintro a b rfl hne ⟨after, hafter⟩
    have hnone : ¬ mark <+: b := fun hp => h a b rfl hne (hp.trans ⟨rest, rfl⟩)
    obtain ⟨front, hfront, -⟩ | ⟨front, hfront, hx⟩ := List.append_eq_append_iff.mp hafter
    · exact hnone ⟨front, hfront.symm⟩
    · -- The literal ends behind the first of the blanks.
      cases front with
      | nil => exact hnone ⟨[], by rw [List.append_nil, hfront, List.append_nil]⟩
      | cons y front =>
        obtain rfl : x = y := (List.cons.inj hx).1
        have hblank := hm x (hfront ▸ List.mem_append_right b List.mem_cons_self)
        rw [hw x List.mem_cons_self] at hblank
        nomatch hblank

namespace Sigil

variable {d : Delimiters} {k : Sigil}

/-- A terminator starts with a character, and has no blanks. -/
theorem proper_terminator (hd : d.Proper) (k : Sigil) :
    k.terminator d ≠ [] ∧ ∀ c ∈ k.terminator d, Text.isBlank c = false := by
  by_cases hk : k = brace
  · subst hk
    exact ⟨List.cons_ne_nil _ _, List.forall_mem_cons.mpr ⟨rfl, hd.stop_no_blank⟩⟩
  · rw [terminator_eq d hk]
    exact ⟨hd.stop_ne_nil, hd.stop_no_blank⟩

/-- Neither a sigil nor a star is a blank. -/
theorem fits_padded (hw : ∀ c ∈ w, Text.isBlank c = true) (h : k.Fits (text ++ rest)) :
    k.Fits (text ++ (w ++ rest)) := by
  refine h.of_head ?_
  cases text with
  | cons => exact .inl rfl
  | nil =>
    cases w with
    | nil => exact .inl rfl
    | cons x w =>
      have hx := hw x List.mem_cons_self
      have hmarks : ∀ m ∈ '*' :: marks, Text.isBlank m = false := by simp [marks, Text.isBlank]
      have hne : x ∉ '*' :: marks := fun hm => by
        rw [hmarks x hm] at hx
        cases hx
      exact .inr ⟨x, rfl, fun hm => hne (List.mem_cons_of_mem _ hm), fun e => hne (e ▸ .head _)⟩

/-- **A place for padding** in a tag: right after the sigil, or right before the terminator. -/
def Gap (d : Delimiters) (k : Sigil) (text rest : List Char) : Prop :=
  k.Fits (text ++ rest) ∧
    (text = [] ∨ ∃ after, rest = k.terminator d ++ after ∧ Text.Unmet (k.terminator d) text rest)

end Sigil

/-- **Padding is met like nothing.** -/
theorem Tag.meet_padded (types : ContentTypes) {d : Delimiters} (hd : d.Proper) {k : Sigil}
    (hg : k.Gap d text rest) (hw : ∀ c ∈ w, Text.isBlank c = true) :
    meet types d (k.mark ++ (text ++ (w ++ rest))) = meet types d (k.mark ++ (text ++ rest)) := by
  obtain ⟨hne, hm⟩ := k.proper_terminator hd
  rw [meet_sigil types d k (Sigil.fits_padded hw hg.1), meet_sigil types d k hg.1]
  have hgap : Text.Unmet (k.terminator d) w rest := by
    obtain ⟨m, mark, he⟩ := List.exists_cons_of_ne_nil hne
    rw [he]
    refine Text.unmet_of_head fun h => ?_
    have hblank := hm m (he ▸ List.mem_cons_self)
    rw [hw m h] at hblank
    nomatch hblank
  obtain rfl | ⟨after, rfl, hu⟩ := hg.2
  · rw [List.nil_append, List.nil_append, Text.cut?_append hgap]
    cases Text.cut? (k.terminator d) rest with
    | none => rfl
    | some r =>
      have htrim : Text.trim (w ++ r.1 ++ []) = Text.trim r.1 :=
        Text.trim_blanks hw (List.forall_mem_nil _) r.1
      rw [List.append_nil] at htrim
      dsimp only [Option.map_some]
      rw [htrim]
  · have hpadded : Text.Unmet (k.terminator d) (text ++ w) (k.terminator d ++ after) :=
      Text.unmet_append.mpr ⟨Text.unmet_padded hm hw hu, hgap⟩
    rw [← List.append_assoc text w, Text.cut?_eq_some.mpr ⟨rfl, hpadded⟩,
      Text.cut?_eq_some.mpr ⟨rfl, hu⟩]
    have htrim : Text.trim ([] ++ text ++ w) = Text.trim text :=
      Text.trim_blanks (List.forall_mem_nil _) hw text
    rw [List.nil_append] at htrim
    dsimp only
    rw [htrim]

/-- Behind a tag there is nothing of the part before the gap. -/
theorem Tag.suffix_of_meet {types : ContentTypes} {d : Delimiters} {k : Sigil} {t : Tag}
    {left : List Char} (hg : k.Gap d text rest)
    (hm : meet types d (k.mark ++ (text ++ rest)) = .ok (t, left)) : left <:+ rest := by
  rw [meet_sigil types d k hg.1] at hm
  cases hcut : Text.cut? (k.terminator d) (text ++ rest) with
  | none =>
    rw [hcut] at hm
    nomatch hm
  | some r =>
    obtain ⟨front, behind⟩ := r
    rw [hcut] at hm
    dsimp only at hm
    obtain rfl : behind = left := by
      cases hk : k.tag? (Text.trim front) with
      | error cause => rw [hk] at hm; cases hm
      | ok t => rw [hk] at hm; cases hm; rfl
    obtain rfl | ⟨after, rfl, hu⟩ := hg.2
    · refine ⟨front ++ k.terminator d, ?_⟩
      rw [List.append_assoc]
      exact (Text.cut?_eq_some.mp hcut).1.symm
    · rw [Text.cut?_eq_some.mpr ⟨rfl, hu⟩] at hcut
      cases hcut
      exact ⟨_, rfl⟩

end Mustache
