import Mustache.Proofs.Tag.Sigil

/-!
# Delimiters that nothing else is made of

If the characters of the end delimiter occur in no tag and mean nothing in one, what is read of a
tag does not depend on the delimiters: each way of reading stops where the tag does.

* `Delimiters.Neutral`: such delimiters for given texts;
* `Sigil.split`: a tag has a sigil, except for a change of delimiters and a pragma;
* `Cursor.take_stop`, `Cursor.after_stop`, `Tag.setting_stop`: the moves over a pragma;
* **`Tag.meet_neutral`**.
-/

namespace Mustache

/-- The characters that have a meaning in tags, besides letters, digits and blanks. -/
def Delimiters.reserved : List Char :=
  ['#', '^', '$', '/', '{', '}', '&', '!', '>', '<', '*', '=', '%', ':', '_', '-']

/-- **Neutral delimiters** for some texts: of characters without a meaning that are not in them. -/
structure Delimiters.Neutral (texts : List (List Char)) (d : Delimiters) : Prop where
  start_ne_nil : d.start.toList ≠ []
  stop_ne_nil : d.stop.toList ≠ []
  not_alphanumeric : ∀ c ∈ d.start.toList ++ d.stop.toList, Text.isAlphanumeric c = false
  not_blank : ∀ c ∈ d.start.toList ++ d.stop.toList, Text.isBlank c = false
  not_reserved : ∀ c ∈ d.start.toList ++ d.stop.toList, c ∉ reserved
  not_mem : ∀ c ∈ d.start.toList ++ d.stop.toList, ∀ text ∈ texts, c ∉ text

/-- Delimiters are neutral for parts of the texts as well. -/
theorem Delimiters.Neutral.of_subset {texts parts : List (List Char)} {d : Delimiters}
    (hd : d.Neutral texts) (h : ∀ part ∈ parts, ∃ text ∈ texts, part ⊆ text) : d.Neutral parts where
  start_ne_nil := hd.start_ne_nil
  stop_ne_nil := hd.stop_ne_nil
  not_alphanumeric := hd.not_alphanumeric
  not_blank := hd.not_blank
  not_reserved := hd.not_reserved
  not_mem c hc part hp hm := by
    obtain ⟨text, ht, hsub⟩ := h part hp
    exact hd.not_mem c hc text ht (hsub hm)

theorem Delimiters.Neutral.proper {texts : List (List Char)} {d : Delimiters}
    (hd : d.Neutral texts) : d.Proper where
  start_ne_nil := hd.start_ne_nil
  start_no_blank c hc := hd.not_blank c (List.mem_append_left _ hc)
  stop_ne_nil := hd.stop_ne_nil
  stop_no_blank c hc := hd.not_blank c (List.mem_append_right _ hc)

/-! ## Sigils of a tag -/

namespace Sigil

/-- The sigil of a tag, and the text after it. -/
def split : List Char → Sigil × List Char
  | '#' :: text => (present, text)
  | '^' :: text => (absent, text)
  | '$' :: text => (block, text)
  | '/' :: text => (close, text)
  | '{' :: text => (brace, text)
  | '&' :: text => (ampersand, text)
  | '!' :: text => (exclamation, text)
  | '>' :: '*' :: text => (inclusion true, text)
  | '>' :: text => (inclusion false, text)
  | '<' :: '*' :: text => (parent true, text)
  | '<' :: text => (parent false, text)
  | text => (none, text)

/-- **Every tag is a sigil and a text**, unless it changes the delimiters or is a pragma. -/
theorem split_spec {content : List Char} (he : content.head? ≠ some '=')
    (hp : content.head? ≠ some '%') :
    content = (split content).1.mark ++ (split content).2 ∧
      (split content).1.Fits (split content).2 := by
  have star {text : List Char} (h : ∀ rest, text = '*' :: rest → False) :
      text.head? ≠ some '*' := fun hs => by
    obtain ⟨rest, hr⟩ := List.head?_eq_some_iff.mp hs
    exact h rest hr
  unfold split
  split
  case h_9 h | h_11 h => exact ⟨rfl, star h⟩
  case h_12 =>
    refine ⟨rfl, fun c hc hm => ?_⟩
    obtain ⟨rest, rfl⟩ := List.head?_eq_some_iff.mp hc
    simp only [marks, List.mem_cons, List.not_mem_nil, or_false] at hm
    simp_all
  all_goals exact ⟨rfl, trivial⟩

end Sigil

/-! ## The end of a tag -/

namespace Text

variable {m : Char} {mark front rest : List Char}

/-- A literal is found behind a text without its first character. -/
theorem cut?_stop (h : m ∉ front) :
    cut? (m :: mark) (front ++ (m :: mark ++ rest)) = some (front, rest) :=
  cut?_eq_some.mpr ⟨rfl, unmet_of_head h⟩

end Text

/-- A terminator is found where the text ends. -/
theorem Sigil.cut?_neutral {d : Delimiters} {k : Sigil} {text : List Char}
    (hd : d.Neutral [text]) (hk : k ≠ .brace) (rest : List Char) :
    Text.cut? (k.terminator d) (text ++ (d.stop.toList ++ rest)) = some (text, rest) := by
  obtain ⟨m, mark, hm⟩ := List.exists_cons_of_ne_nil hd.stop_ne_nil
  rw [terminator_eq d hk, hm]
  refine Text.cut?_stop (hd.not_mem m ?_ text List.mem_cons_self)
  simp [hm]

/-- A tag in triple braces ends at the last of its characters. -/
theorem Sigil.cut?_brace {d : Delimiters} {text : List Char} (hd : d.Neutral [text])
    (rest : List Char) :
    Text.cut? (Sigil.brace.terminator d) (text ++ (['}'] ++ (d.stop.toList ++ rest))) =
      some (text, rest) := by
  obtain ⟨m, mark, hm⟩ := List.exists_cons_of_ne_nil hd.stop_ne_nil
  have hmem : m ∈ d.start.toList ++ d.stop.toList := by simp [hm]
  refine Text.cut?_eq_some.mpr ⟨by simp [terminator, Delimiters.verbatimEnd], ?_⟩
  -- Behind a closing brace within the text there is no end delimiter.
  rintro a b rfl hne ⟨after, hafter⟩
  obtain ⟨c, b, rfl⟩ := List.exists_cons_of_ne_nil hne
  simp only [terminator, Delimiters.verbatimEnd, hm, List.cons_append] at hafter
  have hstop := (List.cons.inj hafter).2
  cases b with
  | nil =>
    have hbrace : m = '}' := (List.cons.inj hstop).1
    exact hd.not_reserved m hmem (hbrace ▸ by decide)
  | cons x b =>
    obtain rfl : m = x := (List.cons.inj hstop).1
    exact hd.not_mem m hmem _ List.mem_cons_self (by simp)

/-! ## Pragmas -/

namespace Cursor

variable {m : Char} {c : Cursor}

/-- A run ends where a character is not of its class. -/
theorem take_stop {p : Char → Bool} (hp : p m = false) (c : Cursor) (more : List Char) :
    (c.extend (m :: more)).take p = ((c.take p).1, (c.take p).2.extend (m :: more)) := by
  rw [take, take, extend_rest, Text.takeWhile_append_stop hp, Text.dropWhile_append_stop hp,
    extend_past]

theorem skip_stop {p : Char → Bool} (hp : p m = false) (c : Cursor) (more : List Char) :
    (c.extend (m :: more)).skip p = (c.skip p).extend (m :: more) :=
  congrArg Prod.snd (take_stop hp c more)

/-- Another character does not start a text that ends. -/
theorem after_stop {x : Char} (hx : x ≠ m) (c : Cursor) (more : List Char) :
    (c.extend (m :: more)).after? [x] = (c.after? [x]).map (extend (m :: more)) := by
  obtain ⟨offset, rest⟩ := c
  cases rest with
  | nil => simp [after?, extend, Text.after?, hx]
  | cons y rest =>
    by_cases hy : x = y
    · simp [after?, extend, Text.after?, hy, past]
    · simp [after?, extend, Text.after?, hy]

/-- A literal comes next if nothing is before it. -/
theorem after_literal {mark : List Char} (hm : m ∉ c.rest) (rest : List Char) :
    (c.extend (m :: mark ++ rest)).after? (m :: mark) =
      if c.rest.isEmpty then some (c.past (m :: mark) rest) else none := by
  obtain ⟨offset, left⟩ := c
  cases left with
  | nil =>
    show (Text.after? (m :: mark) (m :: mark ++ rest)).map _ = _
    rw [Text.after?_append]
    rfl
  | cons x left =>
    have hx : m ≠ x := fun e => hm (e ▸ List.mem_cons_self)
    simp [after?, extend, Text.after?, hx]

theorem mem_of_mem_skip {p : Char → Bool} (h : m ∈ (c.skip p).rest) : m ∈ c.rest :=
  (List.dropWhile_sublist p).mem h

end Cursor

/-- **The setting of a pragma** ends where the tag does. -/
theorem Tag.setting_stop {m : Char} {mark rest : List Char} {c : Cursor}
    (ha : Text.isAlphanumeric m = false) (hb : Text.isBlank m = false)
    (hr : m ∉ Delimiters.reserved) (hm : m ∉ c.rest) :
    setting? (m :: mark) (c.extend (m :: mark ++ rest)) =
      (setting? [] c).bind fun (name, value, e) =>
        if e.rest.isEmpty then some (name, value, e.past (m :: mark) rest) else none := by
  have hline : m ≠ '_' := fun e => hr (e ▸ by decide)
  have hdash : m ≠ '-' := fun e => hr (e ▸ by decide)
  have hcolon : ':' ≠ m := fun e => hr (e ▸ by decide)
  have hname : (fun ch => Text.isAlphanumeric ch || ch == '_') m = false := by simp [ha, hline]
  have hvalue : (fun ch => Text.isAlphanumeric ch || ch == '_' || ch == '-') m = false := by
    simp [ha, hline, hdash]
  have hnotin {p : Char → Bool} {c : Cursor} (h : m ∉ c.rest) : m ∉ (c.skip p).rest :=
    fun hs => h (Cursor.mem_of_mem_skip hs)
  simp only [setting?, Option.bind_eq_bind, List.cons_append]
  rw [Cursor.skip_stop hb, Cursor.take_stop hname]
  dsimp only
  split_ifs with hn
  · rfl
  rw [Cursor.skip_stop hb, Cursor.after_stop hcolon]
  have hm₁ := hnotin (p := Text.isBlank) (hnotin
    (p := fun ch => Text.isAlphanumeric ch || ch == '_') (hnotin (p := Text.isBlank) hm))
  change m ∉ (((c.skip Text.isBlank).take _).2.skip Text.isBlank).rest at hm₁
  generalize ((c.skip Text.isBlank).take _).2.skip Text.isBlank = c₁ at hm₁ ⊢
  cases hcolon' : c₁.after? [':'] with
  | none => rfl
  | some c₂ =>
    have hm₂ : m ∉ c₂.rest := fun h =>
      hm₁ ((Cursor.reads_after hcolon').1 ▸ List.mem_append_right _ h)
    dsimp only [Option.map_some, Option.bind_some]
    rw [Cursor.skip_stop hb, Cursor.take_stop hvalue]
    dsimp only
    split_ifs with hv
    · rfl
    have hm₃ := hnotin (p := Text.isBlank) (hnotin
      (p := fun ch => Text.isAlphanumeric ch || ch == '_' || ch == '-')
      (hnotin (p := Text.isBlank) hm₂))
    change m ∉ (((c₂.skip Text.isBlank).take _).2.skip Text.isBlank).rest at hm₃
    rw [Cursor.skip_stop hb]
    generalize ((c₂.skip Text.isBlank).take _).2.skip Text.isBlank = c₃ at hm₃ ⊢
    rw [← List.cons_append, Cursor.after_literal hm₃, show c₃.after? [] = some c₃ from rfl]
    dsimp only [Option.bind_some]
    split_ifs <;> rfl

/-- The tag of the text of a pragma. -/
def Tag.pragma? (types : ContentTypes) (text : List Char) : Except Cause Tag :=
  match setting? [] ⟨0, text⟩ with
  | none => .error .malformedPragma
  | some (name, value, e) =>
    if e.rest.isEmpty then
      if String.ofList name = "CONTENT_TYPE" && types.contains (String.ofList value) then
        .ok (.pragma (String.ofList value))
      else .error .unknownPragma
    else .error .malformedPragma

namespace Tag

variable {types : ContentTypes} {d : Delimiters} {content text : List Char}

/-- **A pragma** is that of its text. -/
theorem meet_pragma (types : ContentTypes) (hd : d.Neutral [text]) (rest : List Char) :
    meet types d ('%' :: (text ++ (d.stop.toList ++ rest))) =
      (pragma? types text).map fun t => (t, rest) := by
  obtain ⟨m, mark, hm⟩ := List.exists_cons_of_ne_nil hd.stop_ne_nil
  have hmem : m ∈ d.start.toList ++ d.stop.toList := by simp [hm]
  have hsetting (offset : Nat) :
      setting? d.stop.toList ⟨offset, text ++ (d.stop.toList ++ rest)⟩ =
        (setting? [] (Cursor.shift offset ⟨0, text⟩)).bind fun (name, value, e) =>
          if e.rest.isEmpty then some (name, value, e.past d.stop.toList rest) else none := by
    rw [hm]
    exact setting_stop (c := Cursor.shift offset ⟨0, text⟩) (hd.not_alphanumeric m hmem)
      (hd.not_blank m hmem) (hd.not_reserved m hmem) (hd.not_mem m hmem text List.mem_cons_self)
  show outcome (readPragma types d.stop.toList 0
    (Cursor.mk _ (text ++ (d.stop.toList ++ rest)))) = _
  rw [readPragma, hsetting, setting_shift, pragma?]
  cases setting? [] ⟨0, text⟩ with
  | none => rfl
  | some r =>
    dsimp only [Option.map_some, Option.bind_some]
    rw [Cursor.shift_rest]
    by_cases he : r.2.2.rest.isEmpty
    · rw [if_pos he, if_pos he]
      dsimp only
      split_ifs <;> rfl
    · rw [if_neg he, if_neg he]
      rfl

theorem pragma?_ne_delimiters (found : Delimiters) :
    pragma? types text ≠ .ok (.delimiters found) := by
  unfold pragma?
  split
  · nofun
  · split_ifs <;> nofun

theorem tag?_ne_delimiters (k : Sigil) (found : Delimiters) :
    k.tag? text ≠ .ok (.delimiters found) := by
  have accepted {α : Type} (f : α → Tag) (hf : ∀ a, f a ≠ .delimiters found) (a : Option α) :
      Sigil.accepted (a.map f) ≠ .ok (.delimiters found) := by
    cases a with
    | none => nofun
    | some a => exact fun h => hf a (Except.ok.inj h)
  cases k with
  | block =>
    rw [Sigil.tag?]
    cases expression? text with
    | none => nofun
    | some e =>
      dsimp only
      split_ifs <;> nofun
  | exclamation => nofun
  | none | present | absent | close | brace | ampersand | inclusion | parent =>
    exact accepted _ nofun _

/-- The end delimiter does not make another sigil of a sigil. -/
theorem fits_neutral {k : Sigil} (hd : d.Neutral [text]) (h : k.Fits text) (rest : List Char) :
    k.Fits (text ++ (d.stop.toList ++ rest)) := by
  refine h.of_head ?_
  cases text with
  | cons => exact .inl rfl
  | nil =>
    obtain ⟨m, mark, hm⟩ := List.exists_cons_of_ne_nil hd.stop_ne_nil
    have hne := hd.not_reserved m (by simp [hm])
    have hmarks : '*' :: Sigil.marks ⊆ Delimiters.reserved := by decide
    exact .inr ⟨m, by rw [hm]; rfl, fun h => hne (hmarks (List.mem_cons_of_mem _ h)),
      fun e => hne (e ▸ hmarks (.head _))⟩

/-- **What is between neutral delimiters** is read without regard to them: all that matters is the
content of the tag. -/
theorem meet_neutral (types : ContentTypes) (he : content.head? ≠ some '=')
    (hb : content.head? = some '{' → 2 ≤ content.length ∧ content.getLast? = some '}') :
    ∃ r : Except Cause Tag, (∀ found, r ≠ .ok (.delimiters found)) ∧
      ∀ (d : Delimiters) (rest : List Char), d.Neutral [content] →
        meet types d (content ++ (d.stop.toList ++ rest)) = r.map fun t => (t, rest) := by
  have part {d : Delimiters} {text : List Char} (hd : d.Neutral [content]) (h : text ⊆ content) :
      d.Neutral [text] := hd.of_subset (List.forall_mem_singleton.mpr ⟨_, List.mem_cons_self, h⟩)
  by_cases hp : content.head? = some '%'
  · obtain ⟨text, rfl⟩ := List.head?_eq_some_iff.mp hp
    exact ⟨pragma? types text, pragma?_ne_delimiters, fun d rest hd =>
      meet_pragma types (part hd (List.subset_cons_self _ _)) rest⟩
  obtain ⟨hcontent, hfits⟩ := Sigil.split_spec he hp
  generalize Sigil.split content = r at hcontent hfits
  obtain ⟨k, text⟩ := r
  dsimp only at hcontent hfits
  subst hcontent
  have htext : text ⊆ k.mark ++ text := List.subset_append_right _ _
  by_cases hk : k = .brace
  · subst hk
    obtain ⟨hlength, hlast⟩ := hb rfl
    obtain ⟨front, rfl⟩ : ∃ front, text = front ++ ['}'] := by
      obtain rfl | ⟨front, c, rfl⟩ := List.eq_nil_or_concat text
      · simp [Sigil.mark] at hlength
      · refine ⟨front, ?_⟩
        simp only [List.concat_eq_append, ← List.append_assoc, List.getLast?_append,
          List.getLast?_singleton] at hlast ⊢
        cases hlast
        rfl
    refine ⟨Sigil.brace.tag? (Text.trim front), tag?_ne_delimiters .brace, fun d rest hd => ?_⟩
    have hd' := part hd (List.Subset.trans (List.subset_append_left front ['}']) htext)
    rw [List.append_assoc, meet_sigil types d .brace trivial, List.append_assoc,
      Sigil.cut?_brace hd']
  · refine ⟨k.tag? (Text.trim text), tag?_ne_delimiters k, fun d rest hd => ?_⟩
    have hd' := part hd htext
    rw [List.append_assoc, meet_sigil types d k (fits_neutral hd' hfits rest),
      Sigil.cut?_neutral hd' hk]

end Tag

end Mustache
