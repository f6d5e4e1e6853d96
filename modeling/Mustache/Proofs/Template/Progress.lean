import Mustache.Config.Basic
import Mustache.Proofs.Template.Retrace
import Mustache.Proofs.Template.Sections

/-!
# Reading makes progress

A step takes at least the start delimiter off the text, so the delimiters may not be empty. They
come from the template itself: a tag sets them, a close tag brings back those of its open tag, and
a section keeps them for the text that its lambda answers with.

* `Delimiters.Plain`: what a tag lets through as delimiters; **`Delimiters.plain_of_read`**;
* `Delimiters.InUse`: those with which a text may come to be compiled;
* `Draft.Plain`, `Draft.Plain.step`, `Draft.plain_of_leads`: all delimiters of a draft;
* `Tag.read_cause_ne`, **`Draft.run_cause_ne`**: reading does not run out of text unaware;
* `Draft.LeadsIn`: reading in a number of steps; `Draft.LeadsIn.length_le`, **`Draft.exists_last`**;
* **`Token.parseWith_progress`**.
-/

namespace Mustache

/-! ## Delimiters -/

/-- Proper delimiters that a tag which sets them can hold: they have no equal sign. -/
structure Delimiters.Plain (d : Delimiters) : Prop where
  proper : d.Proper
  start_no_equals : '=' ∉ d.start.toList
  stop_no_equals : '=' ∉ d.stop.toList

namespace Delimiters

theorem plain_standard : standard.Plain where
  proper := proper_standard
  start_no_equals := by decide
  stop_no_equals := by decide

theorem plain_of_delimiters? {stop : List Char} {c next : Cursor} {d : Delimiters}
    (h : Tag.delimiters? stop c = some (d, next)) : d.Plain := by
  refine ⟨proper_of_delimiters? h, ?_, ?_⟩
  all_goals
    simp only [Tag.delimiters?, Option.bind_eq_bind, Option.bind_eq_some_iff] at h
    obtain ⟨⟨start, c₁⟩, h₁, ⟨close, c₂⟩, h₂, c₃, h₃, c₄, h₄, h⟩ := h
    split_ifs at h with hne
    cases h
    rw [String.toList_ofList]
  · simp only [Bool.or_eq_true, not_or] at hne
    simpa using hne.2
  · intro hmem
    have hclose := Cursor.of_upTo? h₂ '=' hmem
    simp at hclose

/-- **A tag sets plain delimiters.** -/
theorem plain_of_read {types : ContentTypes} {d found : Delimiters} {start : Nat}
    {c next : Cursor} (h : Tag.read types d start c = .ok (.delimiters found, next)) :
    found.Plain :=
  plain_of_delimiters? ((Tag.setting_of_read h).1 found rfl)

/-- The delimiters with which a text may come to be compiled: the standard ones for a template, and
for the answer of a lambda those that its section keeps, in a text that was compiled before. -/
inductive InUse : Delimiters → Prop
  | standard : InUse standard
  | kept {d : Delimiters} {types : ContentTypes} {source : String} {tokens : List Token}
      {t : Token} {src : Source} {body : List Token} (hd : InUse d)
      (h : Token.parseWith d types source = .ok tokens) (ht : Token.Occurs t tokens)
      (hs : t.section? = some (src, body)) : InUse src.delimiters

end Delimiters

/-! ## Causes of a fault -/

namespace Tag

variable {types : ContentTypes} {d : Delimiters} {start place : Nat} {stop : List Char} {c : Cursor}
  {fault : Fault}

theorem readText_error {α : Type} {accept : List Char → Option α}
    (h : readText place accept stop c = .error fault) : fault = ⟨.unfinishedName, place⟩ := by
  unfold readText at h
  split at h
  · exact (Except.error.inj h).symm
  · split at h
    · exact (Except.error.inj h).symm
    · nomatch h

theorem map_error {α : Type} {f : α × Cursor → Tag × Cursor} {r : Except Fault (α × Cursor)}
    (h : r.map f = .error fault) : r = .error fault := by
  cases r with
  | error e => exact congrArg _ (Except.error.inj h)
  | ok a => nomatch h

/-- What a tag can be at fault for. -/
theorem cause_of_read (h : read types d start c = .error fault) :
    fault.cause = .unfinishedName ∨ fault.cause = .transformedBlock ∨
      fault.cause = .invalidDelimiters ∨ fault.cause = .malformedPragma ∨
        fault.cause = .unknownPragma := by
  have text {α : Type} {accept : List Char → Option α} {f : α × Cursor → Tag × Cursor}
      {place : Nat} {stop : List Char} {c : Cursor}
      (h : (readText place accept stop c).map f = .error fault) :
      fault.cause = .unfinishedName := by
    rw [readText_error (map_error h)]
  have target {f : Target × Cursor → Tag × Cursor}
      (h : (readTarget d.stop.toList start c.tail).map f = .error fault) :
      fault.cause = .unfinishedName := by
    have ht := map_error h
    unfold readTarget at ht
    split at ht <;> rw [readText_error ht]
  unfold read at h
  simp only at h
  split at h
  case h_3 =>
    unfold readBlock at h
    split at h
    · rename_i e he
      cases h
      exact .inl (by rw [readText_error he])
    · split_ifs at h
      cases h
      exact .inr (.inl rfl)
  case h_8 | h_9 => exact .inl (target h)
  case h_10 =>
    split at h
    · cases h
      exact .inr (.inr (.inl rfl))
    · nomatch h
  case h_11 =>
    unfold readPragma at h
    split at h
    · cases h
      exact .inr (.inr (.inr (.inl rfl)))
    · split_ifs at h
      cases h
      exact .inr (.inr (.inr (.inr rfl)))
  all_goals exact .inl (text h)

end Tag

namespace Draft

variable {types : ContentTypes} {s s' next : Draft} {fault : Fault} {n : ℕ}

/-- What a tag can be at fault for behind its end delimiter: only a close tag is. -/
theorem cause_of_place {blanks : List Char} {tag c : Cursor} {t : Tag}
    (h : s.place blanks tag t c = .error fault) :
    fault.cause = .mismatchedClose ∨ fault.cause = .strayInParent := by
  cases t with
  | closing expr =>
    change s.close blanks tag expr c = .error fault at h
    unfold close at h
    split at h
    · cases h
      exact .inl rfl
    · split_ifs at h
      · cases h
        exact .inl rfl
      · dsimp only at h
        split at h <;> cases h
        exact .inr rfl
  | interpolation | opening | comment | inclusion | delimiters | pragma => nomatch h

/-- **A step never runs out of text unaware.** -/
theorem step_cause_ne (h : s.step types = .error fault) : fault.cause ≠ .unexpectedEnd := by
  obtain ⟨blanks, text, tag, -, ⟨-, hs⟩ | ⟨rest, -, hs⟩ | ⟨inner, s', held, -, -, hs⟩⟩ :=
    s.step_cases types
  · nomatch hs.symm.trans h
  · nomatch hs.symm.trans h
  · rw [hs] at h
    cases hread : Tag.read types s.delimiters tag.offset inner with
    | error e =>
      rw [hread] at h
      cases h
      obtain hc | hc | hc | hc | hc := Tag.cause_of_read hread <;> rw [hc] <;> nofun
    | ok r =>
      rw [hread] at h
      obtain hc | hc := cause_of_place h <;> rw [hc] <;> nofun

/-- **Nor does a run**, with proper delimiters: every step makes the text shorter. -/
theorem run_cause_ne (hs : s.Proper) (h : s.run types = .error fault) :
    fault.cause ≠ .unexpectedEnd := by
  fun_induction run types s with
  | case1 => cases h
  | case2 =>
    cases h
    intro he
    cases he
  | case3 s _ e hstep =>
    cases h
    exact step_cause_ne hstep
  | case4 s _ next hstep _ ih => exact ih (hs.step hstep) h
  | case5 s he next hstep hlong =>
    exact absurd (step_shorter hs.1.start_ne_nil (mt List.isEmpty_iff.mpr he) hstep) hlong

/-! ## The delimiters of a draft -/

/-- All delimiters that a draft may come to use are plain. -/
def Plain (s : Draft) : Prop := s.delimiters.Plain ∧ ∀ d ∈ s.scopes, d.Plain

theorem plain_start {d : Delimiters} (hd : d.Plain) (source : String) : (start d source).Plain :=
  ⟨hd, by simp [start, scopes]⟩

theorem Plain.proper (hs : s.Plain) : s.Proper := ⟨hs.1.proper, fun d hd => (hs.2 d hd).proper⟩

theorem Plain.step (hs : s.Plain) (h : s.step types = .ok next) : next.Plain :=
  step_keeps_delimiters Delimiters.plain_of_read h hs

theorem plain_of_leads (h : s.Leads types next) (hs : s.Plain) : next.Plain := by
  induction h with
  | refl => exact hs
  | tail _ hstep ih => exact ih.step hstep.2

/-- The token keeps plain delimiters, if it is a section. -/
def KeepsPlain (t : Token) : Prop :=
  ∀ src body, t.section? = some (src, body) → src.delimiters.Plain

/-- **What is kept in the sections** that have been read, from one step to the next. -/
theorem holds_keepsPlain_step (hs : s.Plain) (hk : s.Holds KeepsPlain)
    (h : s.step types = .ok next) : next.Holds KeepsPlain := by
  have hnone (t : Token) (ht : t.section? = none) : KeepsPlain t := by
    intro src body h
    rw [ht] at h
    nomatch h
  cases moves_of_step h with
  | finish | line => exact hk.pushText hnone _
  | @tag s' _ blanks text held tag inner c t ha hi hread hr hp =>
    have hs' : s'.Holds KeepsPlain := by
      obtain ⟨-, rfl, -⟩ | ⟨-, rfl, -⟩ := hr
      · exact hk
      · exact hk.pushText hnone _
    refine hs'.place hnone (fun f outer e new hf _ _ _ _ hnew => ?_) hp
    intro src body hsection
    rw [hnew] at hsection
    cases hsection
    refine hs.2 f.delimiters (List.mem_map_of_mem ?_)
    rw [← hr.frames, hf]
    exact List.mem_cons_self

/-! ## The number of steps -/

/-- Reading gets from one draft to another in so many steps. -/
inductive LeadsIn (types : ContentTypes) (s : Draft) : ℕ → Draft → Prop
  | refl : LeadsIn types s 0 s
  | tail {n : ℕ} {s' next : Draft} (h : LeadsIn types s n s') (hne : s'.cursor.rest ≠ [])
      (hs : s'.step types = .ok next) : LeadsIn types s (n + 1) next

theorem LeadsIn.leads (h : s.LeadsIn types n next) : s.Leads types next := by
  induction h with
  | refl => exact .refl
  | tail _ hne hs ih => exact ih.step hne hs

theorem LeadsIn.head (hne : s.cursor.rest ≠ []) (hs : s.step types = .ok s')
    (h : s'.LeadsIn types n next) : s.LeadsIn types (n + 1) next := by
  induction h with
  | refl => exact .tail .refl hne hs
  | tail _ hne' hs' ih => exact .tail ih hne' hs'

/-- **Every step takes a character at least.** -/
theorem LeadsIn.length_le (h : s.LeadsIn types n next) (hs : s.Proper) :
    n + next.cursor.rest.length ≤ s.cursor.rest.length := by
  induction h with
  | refl => omega
  | tail hl hne hstep ih =>
    have hshorter := step_shorter (hl.leads.proper hs).1.start_ne_nil hne hstep
    omega

/-- **Reading comes to an end**: at the end of the text, or at a step that fails. -/
theorem exists_last (types : ContentTypes) (hs : s.Proper) :
    ∃ n last, s.LeadsIn types n last ∧
      (last.cursor.rest = [] ∨ ∃ fault, last.step types = .error fault) := by
  induction hlength : s.cursor.rest.length using Nat.strong_induction_on generalizing s with
  | h length ih =>
    by_cases hne : s.cursor.rest = []
    · exact ⟨0, s, .refl, .inl hne⟩
    cases hstep : s.step types with
    | error fault => exact ⟨0, s, .refl, .inr ⟨fault, hstep⟩⟩
    | ok next =>
      have hshorter := step_shorter hs.1.start_ne_nil hne hstep
      obtain ⟨n, last, hl, hend⟩ := ih _ (hlength ▸ hshorter) (hs.step hstep) rfl
      exact ⟨n + 1, last, hl.head hne hstep, hend⟩

end Draft

/-- All sections of a text that is compiled keep plain delimiters. -/
theorem Token.keepsPlain_of_parseWith {d : Delimiters} (hd : d.Plain) {types : ContentTypes}
    {source : String} {tokens : List Token} (h : parseWith d types source = .ok tokens) :
    Everywhere Draft.KeepsPlain tokens := by
  obtain ⟨final, hrun, rfl⟩ := parseWith_eq_ok.mp h
  have hkeeps := Draft.run_keeps (P := fun s => s.Plain ∧ s.Holds Draft.KeepsPlain)
    (fun s next hs hstep => ⟨hs.1.step hstep, Draft.holds_keepsPlain_step hs.1 hs.2 hstep⟩)
    ⟨Draft.plain_start hd source, nofun, nofun⟩ hrun
  exact everywhere_iff.mpr fun t ht => hkeeps.1.2.1 t (List.mem_reverse.mp ht)

/-- All delimiters that come to be used are plain. -/
theorem Delimiters.InUse.plain {d : Delimiters} (h : d.InUse) : d.Plain := by
  induction h with
  | standard => exact plain_standard
  | kept _ hparse ht hs ih => exact Token.keepsPlain_of_parseWith ih hparse _ ht _ _ hs

/-- **Reading makes progress**, in a template and in every text that a lambda answers with. All
delimiters on the way are plain: the current ones, those of the open tags, and those that the
sections keep. So every step takes a part of the text that is not empty, there are at most as many
steps as the source has characters, the last of them reaches the end of the source or a fault, and
no fault says that the text ran out unaware. -/
theorem Token.parseWith_progress {d : Delimiters} (hd : d.InUse) (types : ContentTypes)
    (source : String) :
    (∀ s, (Draft.start d source).Leads types s → s.Plain ∧
      ∀ next, s.cursor.rest ≠ [] → s.step types = .ok next →
        ∃ used, used ≠ [] ∧ s.cursor.Reads used next.cursor) ∧
    (∀ n s, (Draft.start d source).LeadsIn types n s → n ≤ source.toList.length) ∧
    (∃ n last, (Draft.start d source).LeadsIn types n last ∧
      (last.cursor.rest = [] ∨ ∃ fault, last.step types = .error fault)) ∧
    (∀ e, parseWith d types source = .error e → e.cause ≠ .unexpectedEnd) ∧
    ∀ tokens, parseWith d types source = .ok tokens → ∀ t src body, Occurs t tokens →
      t.section? = some (src, body) → src.delimiters.Plain := by
  have hplain := Draft.plain_start hd.plain source
  refine ⟨fun s hs => ?_, fun n s hs => ?_, ?_, fun e he => ?_, fun tokens h t src body ht => ?_⟩
  · have hs' := Draft.plain_of_leads hs hplain
    exact ⟨hs', fun next hne hstep => Draft.reads_of_step hs'.1.proper.start_ne_nil hne hstep⟩
  · have hlength := hs.length_le hplain.proper
    have hstart : (Draft.start d source).cursor.rest = source.toList := rfl
    rw [hstart] at hlength
    omega
  · exact Draft.exists_last types hplain.proper
  · unfold parseWith at he
    cases hrun : (Draft.start d source).run types with
    | ok final =>
      rw [hrun] at he
      nomatch he
    | error fault =>
      rw [hrun] at he
      cases he
      exact Draft.run_cause_ne hplain.proper hrun
  · exact keepsPlain_of_parseWith hd.plain h t ht src body

/-- The delimiters that a section keeps, which is compiled after they have been set. -/
theorem Token.parseWith_progress_kept :
    Delimiters.InUse ⟨"<%", "%>"⟩ ∧
      ∀ e, parseWith ⟨"<%", "%>"⟩ Config.builtIn.types "<%=" = .error e →
        e.cause ≠ .unexpectedEnd := by
  have hp : parseWith .standard Config.builtIn.types "{{=<% %>=}}<%#s%><%/s%>" =
      .ok [.sectionTag (.plain "s") ⟨"", ⟨"<%", "%>"⟩⟩ []] := by
    cbv
  have hd : Delimiters.InUse ⟨"<%", "%>"⟩ :=
    .kept .standard hp (.here (List.mem_singleton.mpr rfl)) rfl
  exact ⟨hd, (Token.parseWith_progress hd Config.builtIn.types "<%=").2.2.2.1⟩

end Mustache
