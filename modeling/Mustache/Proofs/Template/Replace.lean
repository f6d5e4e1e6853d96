import Mustache.Config.Basic
import Mustache.Proofs.Tag.Padding
import Mustache.Proofs.Template.Alike

/-!
# A tag in place of another

A tag can be replaced by one that is read the same: all that changes is the text that the sections
around it keep. So padding in a tag does not matter.

* `Outlook.Reaches`: reading gets to a place in a text; `Outlook.Proper`;
* `Outlook.Beside`: the same place in a text and in one with another tag in it;
  **`Outlook.lawful_beside`**;
* `Source.Replaced`, **`Token.parse_replace`**;
* **`Token.parse_padded`**; `Token.parse_padded_star`: the star of a dynamic name is part of the
  sigil.
-/

namespace Mustache

/-- The same source, or one in which the text `tag` is replaced by `tag'`. -/
def Source.Replaced (tag tag' : List Char) (src src' : Source) : Prop :=
  src.delimiters = src'.delimiters ∧
    (src.raw = src'.raw ∨
      ∃ x y, src.raw.toList = x ++ (tag ++ y) ∧ src'.raw.toList = x ++ (tag' ++ y))

namespace Outlook

variable {types : ContentTypes} {u v w : Outlook} {x : List Char}

/-! ## Places in a text -/

/-- **Reading the text `x` gets from one place to another**, over characters and over tags. -/
inductive Reaches (types : ContentTypes) : Outlook → List Char → Outlook → Prop
  | here (v : Outlook) : Reaches types v [] v
  | char {v w : Outlook} {c : Char} {rest x : List Char} (h : v.text = c :: rest)
      (hs : ¬ v.delimiters.start.toList <+: v.text) (hr : Reaches types (v.on rest) x w) :
    Reaches types v (c :: x) w
  | tag {v w : Outlook} {used rest x : List Char} {t : Tag}
      (h : v.text = v.delimiters.start.toList ++ (used ++ rest))
      (hm : Tag.meet types v.delimiters (used ++ rest) = .ok (t, rest))
      (hr : Reaches types (v.behind t rest) x w) :
    Reaches types v (v.delimiters.start.toList ++ (used ++ x)) w

theorem Reaches.text (h : Reaches types v x w) : v.text = x ++ w.text := by
  induction h with
  | here => rfl
  | char h _ _ ih => exact h.trans (congrArg _ ih)
  | @tag v w used rest x t h _ _ ih =>
    obtain rfl : rest = x ++ w.text := ih
    rw [h]
    simp only [List.append_assoc]

/-- A start delimiter is not longer than the text that is read and the one that is met there: where
the delimiters change, a whole tag is read. -/
theorem Reaches.start_length_le (h : Reaches types v x w) :
    v.delimiters.start.toList.length ≤ x.length + w.delimiters.start.toList.length := by
  induction h with
  | here => simp
  | char _ _ _ ih =>
    simp only [on_delimiters, List.length_cons] at ih ⊢
    omega
  | tag =>
    simp only [List.length_append]
    omega

/-- The delimiters of an outlook, and those around, are proper. -/
def Proper (v : Outlook) : Prop := v.delimiters.Proper ∧ ∀ d ∈ v.outer, d.Proper

theorem Proper.behind (hv : v.Proper) {inner rest : List Char} {t : Tag}
    (hm : Tag.meet types v.delimiters inner = .ok (t, rest)) : (v.behind t rest).Proper :=
  Draft.scope_keeps (P := Delimiters.Proper) hv
    (by rintro found rfl; exact Tag.proper_of_meet hm)

theorem Reaches.proper (h : Reaches types v x w) (hv : v.Proper) : w.Proper := by
  induction h with
  | here => exact hv
  | char _ _ _ ih => exact ih hv
  | tag _ hm _ ih => exact ih (hv.behind hm)

/-! ## Another tag -/

/-- The same place in two texts. The first text goes on to the place `w`, where it has `p ++ q`
behind a start delimiter, and the second one has `p'` instead of `p` there. Or the place is behind
all that is replaced. -/
inductive Beside (types : ContentTypes) (w : Outlook) (p' q : List Char) : Outlook → Outlook → Prop
  | before {v : Outlook} {x : List Char} (hv : v.Proper) (hr : Reaches types v x w) :
    Beside types w p' q v (v.on (x ++ (w.delimiters.start.toList ++ (p' ++ q))))
  | behind {v : Outlook} (hv : v.Proper) (hq : v.text <:+ q) : Beside types w p' q v v

/-- The text before a place in which the delimiters differ decides where a tag starts. -/
theorem Reaches.not_start {c : Char} {inner inner' : List Char} (h : Reaches types v (c :: x) w)
    (hs : ¬ v.delimiters.start.toList <+: c :: x ++ (w.delimiters.start.toList ++ inner)) :
    ¬ v.delimiters.start.toList <+: c :: x ++ (w.delimiters.start.toList ++ inner') := by
  rw [← List.append_assoc] at hs ⊢
  refine fun hp => hs ?_
  have hlength := h.start_length_le
  rw [← List.length_append] at hlength
  exact (List.prefix_of_prefix_length_le hp ⟨inner', rfl⟩ hlength).trans ⟨inner, rfl⟩

variable {p p' q : List Char}

/-- **The next character or tag is the same** in both texts. -/
theorem Beside.paired {v v' : Outlook} (h : Beside types w p' q v v')
    (ht : w.text = w.delimiters.start.toList ++ (p ++ q))
    (hm : Tag.meet types w.delimiters (p' ++ q) = Tag.meet types w.delimiters (p ++ q))
    (hq : ∀ t rest, Tag.meet types w.delimiters (p ++ q) = .ok (t, rest) → rest <:+ q) :
    Paired types (Beside types w p' q) v v' := by
  cases h with
  | @before x hv hr =>
    cases hr with
    | here =>
      cases hmeet : Tag.meet types w.delimiters (p ++ q) with
      | error cause => exact .fault ht rfl hmeet (hm.trans hmeet)
      | ok r => exact .tag ht rfl hmeet (hm.trans hmeet) (.behind (hv.behind hmeet) (hq _ _ hmeet))
    | @char _ _ c rest x h hs hr =>
      have htext := (Reaches.char h hs hr).text
      rw [ht] at htext
      rw [htext] at hs
      refine .char h rfl (htext ▸ hs) ?_ (.before hv hr)
      exact (Reaches.char h (htext ▸ hs) hr).not_start hs
    | @tag _ _ used rest x t h hmeet hr =>
      refine .tag h ?_ hmeet (Tag.meet_local hv.1.stop_ne_nil hmeet _)
        (.before (hv.behind hmeet) hr)
      simp only [on_text, on_delimiters, List.append_assoc]
  | behind hv hq =>
    by_cases hs : v.delimiters.start.toList <+: v.text
    · obtain ⟨inner, hi⟩ := hs
      cases hmeet : Tag.meet types v.delimiters inner with
      | error cause => exact .fault hi.symm hi.symm hmeet hmeet
      | ok r =>
        refine .tag hi.symm hi.symm hmeet hmeet (.behind (hv.behind hmeet) ?_)
        obtain ⟨used, hused⟩ := Tag.used_of_meet hmeet
        exact List.IsSuffix.trans ⟨_, by rw [← hi, hused, ← List.append_assoc]; rfl⟩ hq
    · cases htext : v.text with
      | nil => exact .done htext htext
      | cons c rest =>
        refine .char htext htext hs hs (.behind hv ?_)
        exact List.IsSuffix.trans ⟨[c], htext.symm⟩ hq

/-- What lies between two places is the same in both texts, or has the tag in it. -/
theorem Beside.source {v v' u u' : Outlook} (h : Beside types w p' q v v')
    (h' : Beside types w p' q u u') (hw : w.Proper)
    (ht : w.text = w.delimiters.start.toList ++ (p ++ q)) {raw raw' : List Char}
    (hv : v.text = raw ++ u.text) (hv' : v'.text = raw' ++ u'.text) :
    Source.Replaced (w.delimiters.start.toList ++ p) (w.delimiters.start.toList ++ p')
      ⟨String.ofList raw, v.delimiters⟩ ⟨String.ofList raw', v'.delimiters⟩ := by
  cases h with
  | @before x _ hr =>
    rw [hr.text, ht] at hv
    cases h' with
    | @before y _ hr' =>
      rw [hr'.text, ht, ← List.append_assoc raw] at hv
      rw [on_text, on_text, ← List.append_assoc raw'] at hv'
      have hx := List.append_cancel_right hv
      obtain rfl : raw = raw' :=
        List.append_cancel_right (hx.symm.trans (List.append_cancel_right hv'))
      exact ⟨rfl, .inl rfl⟩
    | behind _ hq =>
      obtain ⟨y, rfl⟩ := hq
      simp only [← List.append_assoc] at hv
      rw [on_text] at hv'
      simp only [← List.append_assoc] at hv'
      refine ⟨rfl, .inr ⟨x, y, ?_, ?_⟩⟩
      · rw [String.toList_ofList, ← List.append_cancel_right hv]
        simp only [List.append_assoc]
      · rw [String.toList_ofList, ← List.append_cancel_right hv']
        simp only [List.append_assoc]
  | behind _ hq =>
    cases h' with
    | @before y _ hr' =>
      have hlength := hq.length_le
      rw [hv, hr'.text, ht] at hlength
      have hpos := List.length_pos_iff.mpr hw.1.start_ne_nil
      simp only [List.length_append] at hlength
      omega
    | behind =>
      obtain rfl : raw = raw' := List.append_cancel_right (hv.symm.trans hv')
      exact ⟨rfl, .inl rfl⟩

/-- **Both texts read alike** if both tags are met alike. -/
theorem lawful_beside (hw : w.Proper) (ht : w.text = w.delimiters.start.toList ++ (p ++ q))
    (hm : Tag.meet types w.delimiters (p' ++ q) = Tag.meet types w.delimiters (p ++ q))
    (hq : ∀ t rest, Tag.meet types w.delimiters (p ++ q) = .ok (t, rest) → rest <:+ q) :
    Lawful types (Beside types w p' q)
      (Source.Replaced (w.delimiters.start.toList ++ p) (w.delimiters.start.toList ++ p')) where
  proper h := by
    cases h with
    | before hv | behind hv => exact ⟨hv.1, hv.1⟩
  paired h := h.paired ht hm hq
  source h h' := h.source h' hw ht

end Outlook

namespace Token

variable {types : ContentTypes} {source : String} {before : List Char} {outer : List Delimiters}
  {d : Delimiters}

/-- **A tag is as good as another one** that is met alike: if reading gets to it, the template with
the other one in its place has the same tokens, but for what the sections around it keep of the
text, or a fault of the same cause. -/
theorem parse_replace {p p' q : List Char}
    (hr : Outlook.Reaches types ⟨[], .standard, source.toList⟩ before
      ⟨outer, d, d.start.toList ++ (p ++ q)⟩)
    (hm : Tag.meet types d (p' ++ q) = Tag.meet types d (p ++ q))
    (hq : ∀ t rest, Tag.meet types d (p ++ q) = .ok (t, rest) → rest <:+ q) :
    ParsedAlike (Source.Replaced (d.start.toList ++ p) (d.start.toList ++ p')) (parse types source)
      (parse types (String.ofList (before ++ (d.start.toList ++ (p' ++ q))))) := by
  have hv : Outlook.Proper ⟨[], .standard, source.toList⟩ :=
    ⟨Delimiters.proper_standard, List.forall_mem_nil _⟩
  have hbeside : Outlook.Beside types _ p' q _ _ := .before hv hr
  refine parseWith_alike (Outlook.lawful_beside (hr.proper hv) rfl hm hq) ?_
  rw [String.toList_ofList]
  exact hbeside

/-- **Padding in a tag does not matter.** If reading a template gets to a tag, blanks right after
its sigil or right before its terminator leave the tokens the same, but for what the sections around
the tag keep of the text, or the fault has the same cause. -/
theorem parse_padded {k : Sigil} {text rest w : List Char}
    (hr : Outlook.Reaches types ⟨[], .standard, source.toList⟩ before
      ⟨outer, d, d.start.toList ++ (k.mark ++ (text ++ rest))⟩)
    (hg : k.Gap d text rest) (hw : ∀ c ∈ w, Text.isBlank c = true) :
    ParsedAlike
      (Source.Replaced (d.start.toList ++ (k.mark ++ text))
        (d.start.toList ++ (k.mark ++ (text ++ w))))
      (parse types source)
      (parse types (String.ofList
        (before ++ (d.start.toList ++ (k.mark ++ (text ++ (w ++ rest))))))) := by
  have hd : d.Proper :=
    (hr.proper ⟨Delimiters.proper_standard, List.forall_mem_nil _⟩).1
  have hm : Tag.meet types d (k.mark ++ (text ++ w) ++ rest) =
      Tag.meet types d (k.mark ++ text ++ rest) := by
    simpa only [List.append_assoc] using Tag.meet_padded types hd hg hw
  rw [← List.append_assoc k.mark] at hr
  have hreplace := parse_replace hr hm fun t left ht =>
    Tag.suffix_of_meet hg (by rwa [List.append_assoc] at ht)
  simpa only [List.append_assoc] using hreplace

/-- A blank before the name of a partial in a section. -/
theorem parse_padded_partial :
    ParsedAlike (Source.Replaced ['{', '{', '>'] ['{', '{', '>', ' '])
      (parse Config.builtIn.types "{{#s}}{{>p}}{{/s}}")
      (parse Config.builtIn.types "{{#s}}{{> p}}{{/s}}") := by
  let opened : List Char := ['#', 's', '}', '}']
  let behind : List Char := 'p' :: '}' :: '}' :: "{{/s}}".toList
  let partialTag : List Char :=
    Delimiters.standard.start.toList ++ ((Sigil.inclusion false).mark ++ ([] ++ behind))
  have hmeet : Tag.meet Config.builtIn.types .standard (opened ++ partialTag) =
      .ok (.opening (.present (.plain "s")), partialTag) := by
    cbv
  have hr : Outlook.Reaches Config.builtIn.types
      ⟨[], .standard, "{{#s}}{{>p}}{{/s}}".toList⟩
      (Delimiters.standard.start.toList ++ (opened ++ []))
      ⟨[.standard], .standard, partialTag⟩ :=
    .tag (by decide) hmeet (.here _)
  have hgap : (Sigil.inclusion false).Gap .standard [] behind :=
    ⟨fun h => absurd (Option.some.inj h) (by decide : 'p' ≠ '*'), .inl rfl⟩
  have hpadded := parse_padded hr hgap (w := [' ']) (List.forall_mem_singleton.mpr rfl)
  have hbefore : Delimiters.standard.start.toList ++ ((Sigil.inclusion false).mark ++ []) =
      ['{', '{', '>'] := by
    decide
  have hafter : Delimiters.standard.start.toList ++
      ((Sigil.inclusion false).mark ++ ([] ++ [' '])) = ['{', '{', '>', ' '] := by
    decide
  have hsource : String.ofList (Delimiters.standard.start.toList ++ (opened ++ []) ++
      (Delimiters.standard.start.toList ++ ((Sigil.inclusion false).mark ++
        ([] ++ ([' '] ++ behind))))) =
      "{{#s}}{{> p}}{{/s}}" := by
    decide
  rwa [hbefore, hafter, hsource] at hpadded

/-- **The star of a dynamic name belongs to the sigil**: with a blank in front of the star it is
part of the name. -/
theorem parse_padded_star :
    parse Config.builtIn.types "{{>*which}}" = .ok [.partialTag ⟨"which", true⟩ none] ∧
      parse Config.builtIn.types "{{> *which}}" = .ok [.partialTag ⟨"*which", false⟩ none] ∧
      ∀ R, ¬ ParsedAlike R (parse Config.builtIn.types "{{>*which}}")
        (parse Config.builtIn.types "{{> *which}}") := by
  have hdynamic : parse Config.builtIn.types "{{>*which}}" =
      .ok [.partialTag ⟨"which", true⟩ none] := by cbv
  have hstatic : parse Config.builtIn.types "{{> *which}}" =
      .ok [.partialTag ⟨"*which", false⟩ none] := by cbv
  refine ⟨hdynamic, hstatic, fun R h => ?_⟩
  rw [hdynamic, hstatic] at h
  cases h with
  | ok h =>
    cases h with
    | cons h =>
      generalize "*which" = name at h
      cases h

end Token

end Mustache
