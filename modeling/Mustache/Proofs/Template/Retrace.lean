import Mathlib.Logic.Relation
import Mustache.Proofs.Template.Atop
import Mustache.Proofs.Template.Passage

/-!
# A body is read in place as it is read on its own

While a tag is open, the steps over its body are those over a text of its own, which starts with
the body and with the delimiters that the tag leaves. What is outside of the tag lies below.

* `Draft.Leads`: reading gets from one draft to another; `Draft.leads_of_run`, `Draft.Leads.run`;
* `Draft.frames_of_step`: what a step does to the tags that are open; `Draft.Behind`: what is left
  of the source ends the body of each of them; `Draft.Leads.body_suffix`;
* `Draft.Retraces`: the body of an open tag so far, read on its own; `Draft.retraces_enter`,
  `Draft.Retraces.step`, **`Draft.retraces_step`**.
-/

namespace Mustache.Draft

variable {types : ContentTypes} {s s' next final b : Draft} {f : Frame} {outer : List Frame}

/-! ## From draft to draft -/

/-- Reading gets from one draft to another. -/
def Leads (types : ContentTypes) : Draft → Draft → Prop :=
  Relation.ReflTransGen fun s next => s.cursor.rest ≠ [] ∧ s.step types = .ok next

theorem Leads.step (h : s.Leads types s') (hne : s'.cursor.rest ≠ [])
    (hs : s'.step types = .ok next) : s.Leads types next :=
  Relation.ReflTransGen.tail h ⟨hne, hs⟩

theorem Leads.proper (h : s.Leads types next) (hs : s.Proper) : next.Proper := by
  induction h with
  | refl => exact hs
  | tail _ hstep ih => exact ih.step hstep.2

theorem Leads.suffix (h : s.Leads types next) (hs : s.Proper) :
    next.cursor.rest <:+ s.cursor.rest := by
  induction h with
  | refl => exact List.suffix_refl _
  | tail h hstep ih =>
    obtain ⟨used, -, hreads⟩ := reads_of_step (Leads.proper h hs).1.start_ne_nil hstep.1 hstep.2
    exact List.IsSuffix.trans ⟨used, hreads.1.symm⟩ ih

/-- **A run goes on** from every draft that it leads to. -/
theorem Leads.run (h : s.Leads types next) (hs : s.Proper) : s.run types = next.run types := by
  induction h with
  | refl => rfl
  | tail h hstep ih =>
    rw [ih, run_eq (Leads.proper h hs).1.start_ne_nil hstep.1, hstep.2]
    rfl

/-- **A run leads to its end**, where no tag is open. -/
theorem leads_of_run (h : s.run types = .ok final) :
    s.Leads types final ∧ final.frames = [] ∧ final.cursor.rest = [] := by
  fun_induction run types s with
  | case1 s he hf =>
    cases h
    exact ⟨.refl, List.isEmpty_iff.mp hf, List.isEmpty_iff.mp he⟩
  | case2 => cases h
  | case3 => cases h
  | case4 s he next hs _ ih =>
    obtain ⟨hl, hend⟩ := ih h
    exact ⟨Relation.ReflTransGen.head ⟨mt List.isEmpty_iff.mpr he, hs⟩ hl, hend⟩
  | case5 => cases h

/-! ## The tags that are open -/

theorem Reaches.frames {blanks text held : List Char} (h : s.Reaches blanks text s' held) :
    s'.frames = s.frames := h.scope.2.2

/-- **What a step does to the open tags**: it keeps or closes them, or it opens another one, after
which an end delimiter has been read. -/
theorem frames_of_step (h : s.step types = .ok next) :
    next.frames <:+ s.frames ∨ ∃ (s' : Draft) (held : List Char) (start : Nat) (o : Opening)
      (c : Cursor) (used : List Char), s'.frames = s.frames ∧
        s.cursor.Reads (used ++ s.delimiters.stop.toList) c ∧ next = s'.enter held start o c := by
  cases moves_of_step h with
  | finish | line =>
    left
    rw [pushText_frames]
  | @tag s' _ blanks text held tag inner c t ha hi hread hr hp =>
    have hframes := hr.frames
    cases t with
    | opening o =>
      cases hp
      obtain ⟨used, hused⟩ := Tag.reads_of_read hread
      have hreads := ha.reads.trans (hi.trans hused)
      rw [← List.append_assoc, ← List.append_assoc] at hreads
      exact .inr ⟨s', held, _, o, c, _, hframes, hreads, rfl⟩
    | closing e =>
      obtain ⟨f, outer, tokens, hf, -, -, rfl⟩ := close_spec hp
      left
      rw [← hframes, hf]
      exact List.suffix_cons f outer
    | interpolation | comment | inclusion | delimiters | pragma =>
      cases hp
      exact .inl (by simp [hframes])

/-- What is left of the source ends the body of every open tag. -/
def Behind (s : Draft) : Prop := ∀ f ∈ s.frames, s.cursor.rest <:+ f.body

theorem Behind.step (h : s.Behind) (hd : s.delimiters.start.toList ≠ [])
    (hne : s.cursor.rest ≠ []) (hs : s.step types = .ok next) : next.Behind := by
  obtain ⟨used, -, hreads⟩ := reads_of_step hd hne hs
  have hrest : next.cursor.rest <:+ s.cursor.rest := ⟨used, hreads.1.symm⟩
  obtain hf | ⟨s', held, start, o, c, -, hf, -, rfl⟩ := frames_of_step hs
  · exact fun f hm => hrest.trans (h f (hf.subset hm))
  · refine List.forall_mem_cons.mpr ⟨List.suffix_refl _, fun f hm => ?_⟩
    exact hrest.trans (h f (hf ▸ hm))

theorem Leads.behind (h : s.Leads types next) (hs : s.Proper) (hb : s.Behind) : next.Behind := by
  induction h with
  | refl => exact hb
  | tail h hstep ih => exact ih.step (Leads.proper h hs).1.start_ne_nil hstep.1 hstep.2

/-- The body of every open tag is what is left of the source at some place. -/
theorem Leads.body_suffix {d : Delimiters} {source : String}
    (h : (start d source).Leads types s) (hd : d.Proper) :
    ∀ f ∈ s.frames, f.body <:+ source.toList := by
  have hstart := proper_start hd source
  induction h with
  | refl => exact nofun
  | @tail b next h hstep ih =>
    obtain hframes | ⟨s', held, o, opening, c, -, hframes, -, rfl⟩ := frames_of_step hstep.2
    · exact fun f hf => ih f (hframes.subset hf)
    · refine List.forall_mem_cons.mpr ⟨?_, fun f hf => ih f (hframes ▸ hf)⟩
      exact (Leads.step h hstep.1 hstep.2).suffix hstart

/-! ## A body on its own -/

/-- The start of the body of a tag as a text of its own. -/
def bodyStart (f : Frame) : Draft :=
  { start f.delimiters (String.ofList f.body) with lineStart := f.alone }

/-- A draft that has only frames. -/
def under (offset : Nat) (frames : List Frame) : Draft :=
  ⟨⟨offset, []⟩, false, .standard, [], frames⟩

/-- **The body of an open tag so far, read on its own**, leads to what is on top of the tag. -/
def Retraces (types : ContentTypes) (s : Draft) (f : Frame) (outer : List Frame) : Prop :=
  ∃ offset b, (bodyStart f).Leads types b ∧ s = (under offset (f :: outer)).atop b

theorem insideParent_under (hf : ∀ target, f.opening ≠ .parent target) (offset : Nat)
    (outer : List Frame) : insideParent (under offset (f :: outer)).frames = false := by
  obtain ⟨opening, _⟩ := f
  cases opening with
  | parent target => exact absurd rfl (hf target)
  | present | absent | block => rfl

/-- When a tag is opened, nothing of its body has been read. -/
theorem retraces_enter (types : ContentTypes) (s : Draft) (blanks : List Char) (start : Nat)
    {o : Opening} (ho : ∀ target, o ≠ .parent target) (c : Cursor) :
    ∃ f, (s.enter blanks start o c).frames = f :: s.frames ∧ f.opening = o ∧
      Retraces types (s.enter blanks start o c) f s.frames := by
  refine ⟨_, rfl, rfl, (s.leave blanks c).cursor.offset, _, .refl, ?_⟩
  simp only [atop, under, bodyStart, Draft.start, Cursor.ofString, Cursor.shift,
    String.toList_ofList, tokensAtop, framesAtop, Nat.add_zero, List.append_nil]
  cases o with
  | parent target => exact absurd rfl (ho target)
  | present | absent | block =>
    simp only [enter, leave_delimiters]
    rfl

/-- **After a step** that does not close the tag, its body is read further. -/
theorem Retraces.step (h : Retraces types s f outer) (hf : ∀ target, f.opening ≠ .parent target)
    (hne : s.cursor.rest ≠ []) (hs : s.step types = .ok next)
    (hopen : f :: outer <:+ next.frames) : Retraces types next f outer := by
  obtain ⟨offset, b, hb, rfl⟩ := h
  have hbase := insideParent_under hf offset outer
  obtain hstep | ⟨-, -, hclose⟩ := step_atop_or types hbase b
  · rw [hs] at hstep
    cases hbs : b.step types with
    | error fault =>
      rw [hbs] at hstep
      nomatch hstep
    | ok b' =>
      rw [hbs] at hstep
      exact ⟨offset, b', hb.step hne hbs, Except.ok.inj hstep⟩
  · have hlength := hopen.length_le
    rw [hclose next hs] at hlength
    exact absurd hlength (by simp [under])

/-- **Every body that is open** can be read on its own, from one step to the next. -/
theorem retraces_step
    (h : ∀ f outer, f :: outer <:+ s.frames → (∀ target, f.opening ≠ .parent target) →
      Retraces types s f outer)
    (hne : s.cursor.rest ≠ []) (hs : s.step types = .ok next) (hopen : f :: outer <:+ next.frames)
    (hf : ∀ target, f.opening ≠ .parent target) : Retraces types next f outer := by
  obtain hframes | ⟨s', held, start, o, c, -, hframes, -, rfl⟩ := frames_of_step hs
  · exact (h f outer (hopen.trans hframes) hf).step hf hne hs hopen
  · obtain he | hold := List.suffix_cons_iff.mp hopen
    · have hf' : f.opening = o := congrArg Frame.opening (List.cons.inj he).1
      obtain ⟨g, hg, -, hr⟩ := retraces_enter types s' held start (o := o)
        (fun target => hf' ▸ hf target) c
      obtain ⟨rfl, rfl⟩ := List.cons.inj (he.trans hg)
      exact hr
    · exact (h f outer (hframes ▸ hold) hf).step hf hne hs hopen

end Mustache.Draft
