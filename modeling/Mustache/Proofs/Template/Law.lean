import Mustache.Proofs.Template.Step
import Mustache.Proofs.Token.Occurs

/-!
# Laws that the tokens of a template obey

A law says which tokens may stand in a body, and which directly inside a parent. It is enough to
check it on the tokens that a tag adds: the tokens of an open body wait in the frames, and when the
body is closed they become part of one token.

* `Overrides.mem_collect?`: what a parent collects from its body;
* `Draft.Law`: what has to be checked; `Draft.Obeys`: the law for the bodies that are open;
* **`Draft.Law.parseWith`**: the tokens of a template obey every law.
-/

namespace Mustache

/-! ## Laws -/

/-- A text of one line at most: not empty, and with a line feed at the end only. -/
def Text.IsLine (text : List Char) : Prop := text ≠ [] ∧ '\n' ∉ text.dropLast

/-- An indentation: spaces and tabs, of which there is at least one. -/
def Text.IsIndentation (text : List Char) : Prop :=
  text ≠ [] ∧ ∀ c ∈ text, Text.isInlineBlank c = true

theorem Text.isInlineBlank_iff {c : Char} : isInlineBlank c = true ↔ c = ' ' ∨ c = '\t' := by
  simp [isInlineBlank]

theorem Text.IsIndentation.isLine {text : List Char} (h : IsIndentation text) : IsLine text :=
  ⟨h.1, fun hn => absurd (h.2 _ (List.dropLast_subset _ hn)) (by decide)⟩

theorem indentation?_eq_some {blanks : List Char} {indentation : String}
    (hb : ∀ c ∈ blanks, Text.isInlineBlank c = true) (h : indentation? blanks = some indentation) :
    Text.IsIndentation indentation.toList := by
  unfold indentation? at h
  split_ifs at h with he
  cases h
  rw [List.isEmpty_iff] at he
  simpa [Text.IsIndentation] using ⟨he, hb⟩

/-- What each step over the items of a list keeps, all of them together keep. -/
theorem foldlM_keeps {α β : Type} {step : β → α → Option β} {P : β → Prop} {items : List α}
    (hstep : ∀ b, P b → ∀ a ∈ items, ∀ b', step b a = some b' → P b') {b b' : β}
    (h : items.foldlM step b = some b') (hb : P b) : P b' := by
  induction items generalizing b with
  | nil => cases h; exact hb
  | cons a items ih =>
    rw [List.foldlM_cons, Option.bind_eq_bind, Option.bind_eq_some_iff] at h
    obtain ⟨next, hn, h⟩ := h
    exact ih (fun b hb a ha => hstep b hb a (.tail _ ha)) h (hstep b hb a (.head _) next hn)

/-- What a parent collects from its body: the bodies of the definitions in it. -/
theorem Overrides.mem_collect? {body : List Token} {overrides : Overrides}
    (h : collect? body = some overrides) : ∀ e ∈ overrides, .definitionTag e.1 e.2 ∈ body := by
  refine foldlM_keeps (P := fun o => ∀ e ∈ o, .definitionTag e.1 e.2 ∈ body)
    (fun before hbefore t ht next hnext e he => ?_) h (by simp)
  split at hnext
  · cases hnext
    obtain rfl | hs := Entries.mem_put he
    · exact ht
    · exact hbefore e hs
  · split_ifs at hnext
    cases hnext
    exact hbefore e he

namespace Draft

/-- A law about the tokens of a body, where `p true` is for those directly inside a parent: a token
obeys it if the tokens in its bodies do. -/
structure Law (types : ContentTypes) (p : Bool → Token → Prop) : Prop where
  text : ∀ inside {text}, Text.IsLine text → p inside (.text (String.ofList text))
  variableTag : ∀ inside expr, p inside (.variableTag expr)
  verbatimTag : ∀ inside expr, p inside (.verbatimTag expr)
  partialTag : ∀ inside target {indentation},
    (∀ i ∈ indentation, Text.IsIndentation i.toList) → p inside (.partialTag target indentation)
  pragmaTag : ∀ inside {id}, types.contains id = true → p inside (.pragmaTag id)
  sectionTag : ∀ inside expr source {body}, (∀ t ∈ body, p false t) →
    p inside (.sectionTag expr source body)
  invertedTag : ∀ inside expr source {body}, (∀ t ∈ body, p false t) →
    p inside (.invertedTag expr source body)
  definitionTag : ∀ name {body}, (∀ t ∈ body, p false t) → p true (.definitionTag name body)
  blockTag : ∀ name {default indentation}, (∀ t ∈ default, p false t) →
    (∀ i ∈ indentation, Text.IsIndentation i.toList) → p false (.blockTag name default indentation)
  parentTag : ∀ inside target {indentation overrides},
    (∀ e ∈ overrides, p true (.definitionTag e.1 e.2)) →
    (∀ i ∈ indentation, Text.IsIndentation i.toList) →
    p inside (.parentTag target indentation overrides)

/-- The tokens of the innermost body and of those around it obey the law. -/
def Obeys (p : Bool → Token → Prop) : List Token → List Frame → Prop
  | tokens, [] => ∀ t ∈ tokens, p false t
  | tokens, f :: outer =>
    (∀ t ∈ tokens, p (insideParent (f :: outer)) t) ∧
      (∀ c ∈ f.blanks, Text.isInlineBlank c = true) ∧ Obeys p f.outer outer

variable {types : ContentTypes} {p : Bool → Token → Prop} {s next : Draft}

theorem obeys_append {new tokens : List Token} {frames : List Frame} :
    Obeys p (new ++ tokens) frames ↔
      (∀ t ∈ new, p (insideParent frames) t) ∧ Obeys p tokens frames := by
  cases frames with
  | nil => exact List.forall_mem_append
  | cons f outer => simp only [Obeys, List.forall_mem_append, and_assoc]

theorem obeys_cons {t : Token} {tokens : List Token} {frames : List Frame} :
    Obeys p (t :: tokens) frames ↔ p (insideParent frames) t ∧ Obeys p tokens frames := by
  rw [← List.singleton_append, obeys_append, List.forall_mem_singleton]

namespace Law

variable (hp : Law types p)

include hp

theorem ofText {text : List Char} (h : text ≠ [] → Text.IsLine text) {frames : List Frame} :
    ∀ t ∈ Token.ofText text, p (insideParent frames) t := by
  intro t ht
  obtain ⟨hne, rfl⟩ := Token.mem_ofText.mp ht
  exact hp.text _ (h hne)

theorem ofBlanks {blanks : List Char} (hb : ∀ c ∈ blanks, Text.isInlineBlank c = true)
    {frames : List Frame} : ∀ t ∈ Token.ofText blanks, p (insideParent frames) t :=
  hp.ofText fun hne => Text.IsIndentation.isLine ⟨hne, hb⟩

/-- The tokens that stand for a closed tag. -/
theorem closed {f : Frame} {outer : List Frame} {raw : String} {body tokens : List Token}
    {closedAlone : Bool} (hb : ∀ c ∈ f.blanks, Text.isInlineBlank c = true)
    (hbody : ∀ t ∈ body, p (insideParent (f :: outer)) t)
    (ht : Frame.tokens? f outer raw body closedAlone = some tokens) :
    ∀ t ∈ tokens, p (insideParent outer) t := by
  obtain ⟨opening, start, blanks, alone, front, before, d⟩ := f
  have hi : ∀ i ∈ indentation? blanks, Text.IsIndentation i.toList :=
    fun i => indentation?_eq_some hb
  cases opening with
  | present expr =>
    cases ht
    exact List.forall_mem_singleton.mpr (hp.sectionTag _ expr _ hbody)
  | absent expr =>
    cases ht
    exact List.forall_mem_singleton.mpr (hp.invertedTag _ expr _ hbody)
  | block name =>
    cases ho : insideParent outer with
    | true =>
      simp only [Frame.tokens?, ho, if_true] at ht
      cases ht
      exact List.forall_mem_singleton.mpr (hp.definitionTag name hbody)
    | false =>
      simp only [Frame.tokens?, ho, Bool.false_eq_true, if_false] at ht
      cases ht
      refine List.forall_mem_singleton.mpr (hp.blockTag name hbody fun i h => ?_)
      split_ifs at h
      · exact hi i h
      · cases h
  | parent target =>
    obtain ⟨overrides, hc, rfl⟩ := Option.map_eq_some_iff.mp ht
    have ho : ∀ e ∈ overrides, p true (.definitionTag e.1 e.2) :=
      fun e he => hbody _ (Overrides.mem_collect? hc e he)
    by_cases ha : (alone || closedAlone) = true
    · rw [if_pos ha]
      exact List.forall_mem_singleton.mpr (hp.parentTag _ target ho hi)
    · rw [if_neg ha]
      exact List.forall_mem_cons.mpr ⟨hp.parentTag _ target ho nofun, hp.ofBlanks hb⟩

theorem leave {blanks : List Char} (hb : ∀ c ∈ blanks, Text.isInlineBlank c = true) (c : Cursor)
    (h : Obeys p s.tokens s.frames) :
    Obeys p (s.leave blanks c).tokens (s.leave blanks c).frames := by
  obtain ⟨-, c', -, e⟩ | ⟨-, e⟩ := s.leave_cases blanks c <;> rw [e]
  · exact h
  · rw [pushText_eq]
    exact obeys_append.mpr ⟨hp.ofBlanks hb, h⟩

theorem enter {blanks : List Char} (hb : ∀ c ∈ blanks, Text.isInlineBlank c = true) (start : Nat)
    (opening : Opening) (c : Cursor) (h : Obeys p s.tokens s.frames) :
    Obeys p (s.enter blanks start opening c).tokens (s.enter blanks start opening c).frames := by
  refine ⟨by simp [Draft.enter], hb, ?_⟩
  have hl := hp.leave hb c h
  rw [leave_frames] at hl
  cases opening with
  | parent target => exact h
  | present expr | absent expr | block name => exact hl

theorem closeTag {blanks : List Char} (hb : ∀ c ∈ blanks, Text.isInlineBlank c = true)
    {tag c : Cursor} {expr : Expression} (h : Obeys p s.tokens s.frames)
    (hc : s.close blanks tag expr c = .ok next) : Obeys p next.tokens next.frames := by
  obtain ⟨f, outer, tokens, hf, -, ht, rfl⟩ := close_spec hc
  have hl := hp.leave hb c h
  rw [leave_frames, hf] at hl
  have hbody := hp.closed hl.2.1 (fun t hm => hl.1 t (List.mem_reverse.mp hm)) ht
  exact obeys_append.mpr ⟨hbody, hl.2.2⟩

theorem place {blanks : List Char} (hb : ∀ c ∈ blanks, Text.isInlineBlank c = true)
    {tag c : Cursor} {t : Tag} (ht : ∀ id, t = .pragma id → types.contains id = true)
    (h : Obeys p s.tokens s.frames) (hs : s.place blanks tag t c = .ok next) :
    Obeys p next.tokens next.frames := by
  have hl := hp.leave hb c h
  cases t with
  | interpolation verbatim expr =>
    cases hs
    rw [pushText_eq]
    refine obeys_cons.mpr ⟨?_, obeys_append.mpr ⟨hp.ofBlanks hb, h⟩⟩
    cases verbatim
    · exact hp.variableTag _ expr
    · exact hp.verbatimTag _ expr
  | opening opening => cases hs; exact hp.enter hb _ _ c h
  | closing expr => exact hp.closeTag hb h hs
  | comment => cases hs; exact hl
  | inclusion target =>
    cases hs
    refine obeys_cons.mpr ⟨hp.partialTag _ target fun i hi => ?_, hl⟩
    split_ifs at hi
    · exact indentation?_eq_some hb hi
    · cases hi
  | delimiters d => cases hs; exact hl
  | pragma id => cases hs; exact obeys_cons.mpr ⟨hp.pragmaTag _ (ht id rfl), hl⟩

end Law

theorem Ahead.front_no_lineFeed {blanks text : List Char} {tag : Cursor}
    (ha : s.Ahead blanks text tag) : '\n' ∉ blanks ++ text := fun hn =>
  (List.mem_append.mp hn).elim (fun hb => absurd (ha.blanks_inline _ hb) (by decide))
    ha.no_lineFeed

theorem Ahead.isLine {blanks text : List Char} {tag : Cursor} (ha : s.Ahead blanks text tag)
    (hne : blanks ++ text ≠ []) : Text.IsLine (blanks ++ text) :=
  ⟨hne, fun hn => ha.front_no_lineFeed (List.dropLast_subset _ hn)⟩

theorem Law.step (hp : Law types p) (h : Obeys p s.tokens s.frames)
    (hs : s.step types = .ok next) : Obeys p next.tokens next.frames := by
  cases moves_of_step hs with
  | @finish blanks text tag ha hr =>
    rw [pushText_eq]
    exact obeys_append.mpr ⟨hp.ofText ha.isLine, h⟩
  | @line blanks text rest tag ha hr =>
    rw [pushText_eq]
    refine obeys_append.mpr ⟨hp.ofText fun hne => ⟨hne, ?_⟩, h⟩
    rw [List.dropLast_concat]
    exact ha.front_no_lineFeed
  | @tag s' _ blanks text held tag inner c t ha hi hread hr hplace =>
    have ht : ∀ id, t = .pragma id → types.contains id = true := (Tag.setting_of_read hread).2
    obtain ⟨-, rfl, rfl⟩ | ⟨hne, rfl, rfl⟩ := hr
    · exact hp.place ha.blanks_inline ht h hplace
    · refine hp.place (by simp) ht ?_ hplace
      rw [pushText_eq]
      exact obeys_append.mpr ⟨hp.ofText ha.isLine, h⟩

/-- **The tokens of a template obey every law.** -/
theorem Law.parseWith (hp : Law types p) {d : Delimiters} {source : String} {tokens : List Token}
    (h : Token.parseWith d types source = .ok tokens) : ∀ t ∈ tokens, p false t := by
  obtain ⟨final, hr, rfl⟩ := Token.parseWith_eq_ok.mp h
  obtain ⟨ho, hf, -⟩ := run_keeps (P := fun s => Obeys p s.tokens s.frames)
    (fun s next ho hs => hp.step ho hs) (by simp [start, Obeys]) hr
  rw [hf] at ho
  exact fun t ht => ho t (List.mem_reverse.mp ht)

end Draft

end Mustache
