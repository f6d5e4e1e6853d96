import Mustache.Config.Basic
import Mustache.Proofs.Tag.Neutral
import Mustache.Proofs.Template.Alike

/-!
# A template does not depend on its delimiters

The same texts and tags are written with delimiters that nothing in them is made of. Whatever the
delimiters are, the tokens are the same, but for what sections keep for lambdas.

* `Segment`, `Segment.writeAll`: the parts of a template and how they are written;
  `Segment.Admissible`;
* `Outlook.Writes`: what is left of a template that is written; `Outlook.Written`: two writings of
  it; **`Outlook.lawful_written`**;
* **`Token.parseWith_neutral`**.
-/

namespace Mustache

/-- A part of a template: a text, or what stands between the delimiters of a tag. -/
inductive Segment where
  | text (content : List Char)
  | tag (content : List Char)

namespace Segment

/-- The text of the segment. -/
def content : Segment → List Char
  | text content => content
  | tag content => content

/-- The segment in a template with the given delimiters. -/
def write (d : Delimiters) : Segment → List Char
  | text content => content
  | tag content => d.start.toList ++ (content ++ d.stop.toList)

/-- The template. -/
def writeAll (d : Delimiters) (segments : List Segment) : List Char := segments.flatMap (write d)

/-- The tag does not change the delimiters, and if it starts with a brace it ends with another
one. -/
def Admissible : Segment → Prop
  | text _ => True
  | tag content => content.head? ≠ some '=' ∧
      (content.head? = some '{' → 2 ≤ content.length ∧ content.getLast? = some '}')

end Segment

namespace Outlook

variable {types : ContentTypes} {d d' : Delimiters} {segments : List Segment} {v v' : Outlook}

/-- What is left are the given segments, and the delimiters are always the same. -/
structure Writes (d : Delimiters) (segments : List Segment) (v : Outlook) : Prop where
  outer : ∀ e ∈ v.outer, e = d
  delimiters : v.delimiters = d
  text : v.text = Segment.writeAll d segments

/-- A tag that is not a change of delimiters leaves them. -/
theorem Writes.behind (h : v.Writes d segments) {t : Tag} (ht : ∀ found, t ≠ .delimiters found)
    (left : List Segment) : (v.behind t (Segment.writeAll d left)).Writes d left := by
  obtain ⟨outer, delimiters, text⟩ := v
  obtain ⟨ho, rfl, -⟩ := h
  refine ⟨?_, ?_, rfl⟩
  · cases t with
    | delimiters found => exact absurd rfl (ht found)
    | opening => exact List.forall_mem_cons.mpr ⟨rfl, ho⟩
    | closing => exact fun e he => ho e (List.mem_of_mem_tail he)
    | interpolation | comment | inclusion | pragma => exact ho
  · cases t with
    | delimiters found => exact absurd rfl (ht found)
    | closing =>
      cases outer with
      | nil => rfl
      | cons e outer => exact ho e List.mem_cons_self
    | opening | interpolation | comment | inclusion | pragma => rfl

/-- A text does not start like a start delimiter. -/
theorem Writes.not_start {c : Char} {content : List Char}
    (hv : v.Writes d (.text (c :: content) :: segments))
    (hd : d.Neutral ((Segment.text (c :: content) :: segments).map Segment.content)) :
    ¬ v.delimiters.start.toList <+: v.text := by
  rw [hv.text, hv.delimiters]
  obtain ⟨m, mark, hm⟩ := List.exists_cons_of_ne_nil hd.start_ne_nil
  rintro ⟨rest, hrest⟩
  rw [hm] at hrest
  obtain rfl : m = c := (List.cons.inj hrest).1
  exact hd.not_mem m (by simp [hm]) _ List.mem_cons_self List.mem_cons_self

/-- The same segments are left, in two writings with neutral delimiters. -/
def Written (d d' : Delimiters) (v v' : Outlook) : Prop :=
  ∃ segments : List Segment, (∀ s ∈ segments, s.Admissible) ∧
    d.Neutral (segments.map Segment.content) ∧ d'.Neutral (segments.map Segment.content) ∧
    v.Writes d segments ∧ v'.Writes d' segments

/-- **The next character or tag is the same** in both writings. -/
theorem Written.paired (h : Written d d' v v') : Paired types (Written d d') v v' := by
  obtain ⟨segments, ha, hd, hd', hv, hv'⟩ := h
  induction segments generalizing v v' with
  | nil => exact .done hv.text hv'.text
  | cons segment segments ih =>
    have ha' : ∀ s ∈ segments, s.Admissible := (List.forall_mem_cons.mp ha).2
    have tail {d : Delimiters} (hd : d.Neutral ((segment :: segments).map Segment.content)) :
        d.Neutral (segments.map Segment.content) :=
      hd.of_subset fun part hp => ⟨part, List.mem_cons_of_mem _ hp, List.Subset.refl part⟩
    cases segment with
    | text content =>
      cases content with
      | nil =>
        exact ih ha' (tail hd) (tail hd') ⟨hv.outer, hv.delimiters, hv.text⟩
          ⟨hv'.outer, hv'.delimiters, hv'.text⟩
      | cons c content =>
        have left : ∀ part ∈ (Segment.text content :: segments).map Segment.content,
            ∃ text ∈ (Segment.text (c :: content) :: segments).map Segment.content, part ⊆ text :=
          List.forall_mem_cons.mpr ⟨⟨_, List.mem_cons_self, List.subset_cons_self c content⟩,
            fun part hp => ⟨part, List.mem_cons_of_mem _ hp, List.Subset.refl part⟩⟩
        exact .char hv.text hv'.text (hv.not_start hd) (hv'.not_start hd')
          ⟨.text content :: segments, List.forall_mem_cons.mpr ⟨trivial, ha'⟩, hd.of_subset left,
            hd'.of_subset left, ⟨hv.outer, hv.delimiters, rfl⟩, ⟨hv'.outer, hv'.delimiters, rfl⟩⟩
    | tag content =>
      obtain ⟨ht, hbrace⟩ : (Segment.tag content).Admissible := ha _ List.mem_cons_self
      obtain ⟨r, hr, hmeet⟩ := Tag.meet_neutral types ht hbrace
      have text {d : Delimiters} {v : Outlook} (hv : v.Writes d (.tag content :: segments)) :
          v.text = v.delimiters.start.toList ++
            (content ++ (v.delimiters.stop.toList ++ Segment.writeAll d segments)) := by
        rw [hv.text, hv.delimiters]
        simp [Segment.writeAll, Segment.write]
      have meet {d : Delimiters} {v : Outlook} (hv : v.Writes d (.tag content :: segments))
          (hd : d.Neutral ((Segment.tag content :: segments).map Segment.content)) :
          Tag.meet types v.delimiters
              (content ++ (v.delimiters.stop.toList ++ Segment.writeAll d segments)) =
            r.map fun t => (t, Segment.writeAll d segments) := by
        rw [hv.delimiters]
        exact hmeet d _ (hd.of_subset
          (List.forall_mem_singleton.mpr ⟨content, List.mem_cons_self, List.Subset.refl _⟩))
      cases r with
      | error cause => exact .fault (text hv) (text hv') (meet hv hd) (meet hv' hd')
      | ok t =>
        have hnone (found : Delimiters) : t ≠ .delimiters found := fun e => hr found (congrArg _ e)
        exact .tag (text hv) (text hv') (meet hv hd) (meet hv' hd')
          ⟨segments, ha', tail hd, tail hd', hv.behind hnone segments, hv'.behind hnone segments⟩

/-- **Two writings of a template read alike.** -/
theorem lawful_written (types : ContentTypes) (d d' : Delimiters) :
    Lawful types (Written d d') fun _ _ => True where
  proper := by
    rintro v v' ⟨segments, -, hd, hd', hv, hv'⟩
    rw [hv.delimiters, hv'.delimiters]
    exact ⟨hd.proper, hd'.proper⟩
  paired h := h.paired
  source _ _ _ _ := trivial

end Outlook

/-- **A template does not depend on its delimiters.** The same segments, written with one pair of
neutral delimiters or with another and read with them, have the same tokens, but for the texts and
the delimiters that sections keep, or faults of the same cause. -/
theorem Token.parseWith_neutral {types : ContentTypes} {segments : List Segment}
    (ha : ∀ s ∈ segments, s.Admissible) {d d' : Delimiters}
    (hd : d.Neutral (segments.map Segment.content))
    (hd' : d'.Neutral (segments.map Segment.content)) :
    ParsedAlike (fun _ _ => True)
      (parseWith d types (String.ofList (Segment.writeAll d segments)))
      (parseWith d' types (String.ofList (Segment.writeAll d' segments))) := by
  refine parseWith_alike (Outlook.lawful_written types d d') ⟨segments, ha, hd, hd', ?_, ?_⟩
  · exact ⟨List.forall_mem_nil _, rfl, String.toList_ofList⟩
  · exact ⟨List.forall_mem_nil _, rfl, String.toList_ofList⟩

/-- A section with a tag in triple braces, between bars and between double parentheses. -/
theorem Token.parseWith_neutral_section :
    ParsedAlike (fun _ _ => True)
      (parseWith ⟨"|", "|"⟩ Config.builtIn.types "|#s|a|{ b }||/s|")
      (parseWith ⟨"((", "))"⟩ Config.builtIn.types "((#s))a(({ b }))((/s))") := by
  let segments : List Segment :=
    [.tag "#s".toList, .text "a".toList, .tag "{ b }".toList, .tag "/s".toList]
  have ha : ∀ s ∈ segments, s.Admissible := by
    simp [segments, Segment.Admissible]
  have hbar : Text.isAlphanumeric '|' = false := by decide +kernel
  have hopen : Text.isAlphanumeric '(' = false := by decide +kernel
  have hclose : Text.isAlphanumeric ')' = false := by decide +kernel
  have hd : Delimiters.Neutral (segments.map Segment.content) ⟨"|", "|"⟩ :=
    ⟨by decide, by decide, by simp [hbar], by simp [Text.isBlank],
      by simp [Delimiters.reserved], by simp [segments, Segment.content]⟩
  have hd' : Delimiters.Neutral (segments.map Segment.content) ⟨"((", "))"⟩ :=
    ⟨by decide, by decide, by simp [hopen, hclose], by simp [Text.isBlank],
      by simp [Delimiters.reserved], by simp [segments, Segment.content]⟩
  have hsource : String.ofList (Segment.writeAll ⟨"|", "|"⟩ segments) = "|#s|a|{ b }||/s|" := by
    decide
  have hsource' : String.ofList (Segment.writeAll ⟨"((", "))"⟩ segments) =
      "((#s))a(({ b }))((/s))" := by
    decide
  rw [← hsource, ← hsource']
  exact Token.parseWith_neutral ha hd hd'

end Mustache
