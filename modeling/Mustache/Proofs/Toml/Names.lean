import Mustache.Proofs.Value.Occurs
import Mustache.Toml.Document

/-!
# Names in TOML documents

A name is given one value at most: no map in the value of a document has two entries of a name. The
tables of a document are kept that way by every statement, and so are inline tables by every entry.

* `Value.NamesOnce`; `Toml.Table.Distinct`: a table that keeps to it at every depth;
* `Distinct.within`: an edit at the end of a path; `Distinct.define`, `Distinct.append`,
  `Distinct.assign`: the edits that there are;
* `keepsNames_word`, `keepsNames_value`: values, inline tables included;
* `Document.distinct_add`, `Document.distinct_run`: a statement, and all of them;
* **`namesOnce_of_decode`**.
-/

namespace Mustache

/-- If the value is a map, no name occurs twice in it. -/
def Value.NamesOnce (v : Value) : Prop :=
  ∀ entries, v = .map entries → (Entries.keys entries).Nodup

namespace Toml

open Value

/-! ## Tables -/

namespace Table

/-- No name occurs twice in the table or in what stands in it. -/
structure Distinct (t : Table) : Prop where
  keys : (Entries.keys t).Nodup
  nodes : ∀ e ∈ t, (nodeValue e.2).Everywhere NamesOnce

theorem values_eq (t : Table) : values t = t.map fun e => (e.1, nodeValue e.2) := by
  induction t with
  | nil => rfl
  | cons e t ih => rw [values, ih, List.map_cons]

theorem tableValues_eq (tables : List Table) : tableValues tables = tables.map value := by
  induction tables with
  | nil => rfl
  | cons t tables ih => rw [tableValues, ih, List.map_cons, value]

/-- The value of a table tells whether its names are distinct. -/
theorem distinct_iff {t : Table} : t.Distinct ↔ t.value.Everywhere NamesOnce := by
  have hkeys : Entries.keys (values t) = Entries.keys t := by
    simp [values_eq, Entries.keys, Function.comp_def]
  constructor
  · intro h
    refine everywhere_map ?_ fun e he => ?_
    · rintro entries ⟨⟩
      rw [hkeys]
      exact h.keys
    · rw [values_eq] at he
      obtain ⟨node, hn, rfl⟩ := List.mem_map.mp he
      exact h.nodes node hn
  · intro h
    refine ⟨?_, fun e he => ?_⟩
    · rw [← hkeys]
      exact h.here _ rfl
    · have hmem : (e.1, nodeValue e.2) ∈ values t := by
        rw [values_eq]
        exact List.mem_map.mpr ⟨e, he, rfl⟩
      exact h.part (.entry hmem)

theorem distinct_nil : Distinct [] := ⟨List.nodup_nil, nofun⟩

theorem everywhere_tables {last : Table} {earlier : List Table} :
    (nodeValue (.tables last earlier)).Everywhere NamesOnce ↔
      last.Distinct ∧ ∀ t ∈ earlier, t.Distinct := by
  have hitems {v : Value} :
      v ∈ (tableValues earlier).reverse ++ [.map (values last)] ↔
        v = last.value ∨ ∃ t ∈ earlier, t.value = v := by
    simp [tableValues_eq, or_comm, value]
  constructor
  · intro h
    have h := h.items
    refine ⟨distinct_iff.mpr (h _ (hitems.mpr (.inl rfl))), fun t ht => ?_⟩
    exact distinct_iff.mpr (h _ (hitems.mpr (.inr ⟨t, ht, rfl⟩)))
  · rintro ⟨hlast, hearlier⟩
    refine everywhere_sequence nofun fun v hv => ?_
    obtain rfl | ⟨t, ht, rfl⟩ := hitems.mp hv
    · exact distinct_iff.mp hlast
    · exact distinct_iff.mp (hearlier t ht)

namespace Distinct

variable {t t' : Table} {name : String} {n : Node}

theorem put (h : t.Distinct) (hn : (nodeValue n).Everywhere NamesOnce) :
    Distinct (Entries.put name n t) := by
  refine ⟨Entries.nodup_put h.keys, fun e he => ?_⟩
  obtain rfl | he := Entries.mem_put he
  · exact hn
  · exact h.nodes e he

theorem node (h : t.Distinct) (hl : t.lookup name = some n) :
    (nodeValue n).Everywhere NamesOnce :=
  h.nodes _ (Entries.mem_of_lookup hl)

/-- An edit that keeps names distinct does so at the end of every path. -/
theorem within {made : Origin} {edit : Origin → Table → Option Table}
    (hedit : ∀ {origin t t'}, Distinct t → edit origin t = some t' → Distinct t')
    {path : List String} {origin : Origin} (h : t.Distinct)
    (ht : within? made edit path origin t = some t') : t'.Distinct := by
  induction path generalizing origin t t' with
  | nil => exact hedit h ht
  | cons name path ih =>
    rw [within?] at ht
    split at ht
    · obtain ⟨inner, hi, rfl⟩ := Option.map_eq_some_iff.mp ht
      exact h.put (distinct_iff.mp (ih distinct_nil hi))
    · rename_i origin inner hl
      split_ifs at ht
      obtain ⟨edited, hi, rfl⟩ := Option.map_eq_some_iff.mp ht
      exact h.put (distinct_iff.mp (ih (distinct_iff.mpr (h.node hl)) hi))
    · rename_i last earlier hl
      obtain ⟨edited, hi, rfl⟩ := Option.map_eq_some_iff.mp ht
      obtain ⟨hlast, hearlier⟩ := everywhere_tables.mp (h.node hl)
      exact h.put (everywhere_tables.mpr ⟨ih hlast hi, hearlier⟩)
    · nomatch ht

/-- The header of a table. -/
theorem define {path : List String} (h : t.Distinct) (ht : t.define? path name = some t') :
    t'.Distinct := by
  refine h.within (fun {_ t _} h ht => ?_) ht
  split at ht
  · cases ht
    exact h.put (distinct_iff.mp distinct_nil)
  · rename_i inner hl
    cases ht
    have hinner : Distinct inner := distinct_iff.mpr (h.node hl)
    exact h.put (distinct_iff.mp hinner)
  · nomatch ht

/-- The header of a table in an array. -/
theorem append {path : List String} (h : t.Distinct) (ht : t.append? path name = some t') :
    t'.Distinct := by
  refine h.within (fun {_ t _} h ht => ?_) ht
  split at ht
  · cases ht
    exact h.put (everywhere_tables.mpr ⟨distinct_nil, nofun⟩)
  · rename_i last earlier hl
    cases ht
    exact h.put (everywhere_tables.mpr
      ⟨distinct_nil, List.forall_mem_cons.mpr (everywhere_tables.mp (h.node hl))⟩)
  · nomatch ht

/-- A key with a value. -/
theorem assign {header path : List String} {v : Value} (h : t.Distinct)
    (hv : v.Everywhere NamesOnce) (ht : t.assign? header path name v = some t') :
    t'.Distinct := by
  refine h.within (fun h ht => h.within (fun h ht => ?_) ht) ht
  split_ifs at ht
  cases ht
  exact h.put hv

end Distinct

end Table

/-! ## Values -/

/-- A reader of values reads none in which a name occurs twice. -/
def KeepsNames (value? : List Char → Option (Value × List Char)) : Prop :=
  ∀ cs v rest, value? cs = some (v, rest) → v.Everywhere NamesOnce

/-- The value is a truth value or a number. -/
def Scalar (v : Value) : Prop := (∃ b, v = .bool b) ∨ (∃ n, v = .int n) ∨ ∃ x, v = .float x

theorem Scalar.namesOnce {v : Value} (h : Scalar v) : v.Everywhere NamesOnce := by
  obtain ⟨b, rfl⟩ | ⟨n, rfl⟩ | ⟨x, rfl⟩ := h <;> exact everywhere_of_no_part nofun nofun

theorem scalar_of_inRange {n : Int} {v : Value} (h : inRange? n = some v) : Scalar v := by
  unfold inRange? at h
  split_ifs at h
  cases h
  exact .inr (.inl ⟨n, rfl⟩)

theorem scalar_of_integer {cs : List Char} {v : Value} (h : integer? cs = some v) : Scalar v := by
  obtain ⟨digits, -, h⟩ := Option.bind_eq_some_iff.mp h
  exact scalar_of_inRange h

theorem scalar_of_radixInteger {base : Nat} {cs : List Char} {v : Value}
    (h : radixInteger? base cs = some v) : Scalar v := by
  obtain ⟨digits, -, h⟩ := Option.bind_eq_some_iff.mp h
  exact scalar_of_inRange h

theorem scalar_of_number {cs : List Char} {v : Value} (h : number? cs = some v) : Scalar v := by
  obtain ⟨whole, -, h⟩ := Option.bind_eq_some_iff.mp h
  extract_lets after ofText at h
  have hofText {text : List Char} (ht : ofText text = some v) : Scalar v := by
    obtain ⟨x, -, ht⟩ := Option.bind_eq_some_iff.mp ht
    split_ifs at ht
    cases ht
    exact .inr (.inr ⟨x, rfl⟩)
  clear_value after
  split at h
  · obtain ⟨fraction, -, h⟩ := Option.bind_eq_some_iff.mp h
    obtain ⟨exponent, -, h⟩ := Option.bind_eq_some_iff.mp h
    exact hofText h
  · nomatch h
  · obtain ⟨exponent, -, h⟩ := Option.bind_eq_some_iff.mp h
    exact hofText h

theorem scalar_of_special {cs : List Char} {v : Value} (h : special? cs = some v) : Scalar v := by
  unfold special? at h
  dsimp only at h
  split_ifs at h <;> cases h <;> exact .inr (.inr ⟨_, rfl⟩)

/-- A moment is a map of one entry. -/
theorem Moment.namesOnce (m : Moment) : m.value.Everywhere NamesOnce := by
  refine everywhere_map ?_ (List.forall_mem_singleton.mpr (everywhere_text nofun))
  rintro entries ⟨⟩
  simp [Entries.keys]

theorem namesOnce_of_plainWord {cs : List Char} {v : Value} (h : plainWord? cs = some v) :
    v.Everywhere NamesOnce := by
  unfold plainWord? at h
  split at h
  · cases h
    exact Scalar.namesOnce (.inl ⟨true, rfl⟩)
  · cases h
    exact Scalar.namesOnce (.inl ⟨false, rfl⟩)
  · exact (scalar_of_radixInteger h).namesOnce
  · exact (scalar_of_radixInteger h).namesOnce
  · exact (scalar_of_radixInteger h).namesOnce
  · obtain h | ⟨-, h⟩ := Option.or_eq_some_iff.mp h
    · obtain ⟨m, -, rfl⟩ := Option.map_eq_some_iff.mp h
      exact m.namesOnce
    · obtain h | ⟨-, h⟩ := Option.or_eq_some_iff.mp h
      · exact (scalar_of_number h).namesOnce
      · obtain h | ⟨-, h⟩ := Option.or_eq_some_iff.mp h
        · exact (scalar_of_integer h).namesOnce
        · exact (scalar_of_special h).namesOnce

theorem keepsNames_word : KeepsNames word? := by
  intro cs v rest h
  obtain ⟨word, hw, he⟩ := Option.map_eq_some_iff.mp h
  cases he
  exact namesOnce_of_plainWord hw

section

variable {value? : List Char → Option (Value × List Char)} (hv : KeepsNames value?)

include hv

theorem KeepsNames.items {count : Nat} {cs rest : List Char} {vs : List Value}
    (h : items? value? count cs = some (vs, rest)) : ∀ v ∈ vs, v.Everywhere NamesOnce := by
  induction count generalizing cs vs with
  | zero => nomatch h
  | succ count ih =>
    rw [items?] at h
    split at h
    · cases h
      exact nofun
    · obtain ⟨⟨v, after⟩, hfirst, h⟩ := Option.bind_eq_some_iff.mp h
      dsimp only at h
      split at h
      · obtain ⟨⟨more, last⟩, hmore, he⟩ := Option.map_eq_some_iff.mp h
        cases he
        exact List.forall_mem_cons.mpr ⟨hv _ _ _ hfirst, ih hmore⟩
      · cases h
        exact List.forall_mem_singleton.mpr (hv _ _ _ hfirst)
      · nomatch h

theorem KeepsNames.assignment {cs rest : List Char} {path : List String} {name : String} {v : Value}
    (h : assignment? value? cs = some (path, name, v, rest)) : v.Everywhere NamesOnce := by
  obtain ⟨⟨path', name', after⟩, -, h⟩ := Option.bind_eq_some_iff.mp h
  dsimp only at h
  split at h
  · obtain ⟨⟨w, last⟩, hw, he⟩ := Option.map_eq_some_iff.mp h
    cases he
    exact hv _ _ _ hw
  · nomatch h

theorem KeepsNames.entries {count : Nat} {t t' : Table} {cs rest : List Char} (ht : t.Distinct)
    (h : entries? value? count t cs = some (t', rest)) : t'.Distinct := by
  induction count generalizing t cs with
  | zero => nomatch h
  | succ count ih =>
    rw [entries?] at h
    obtain ⟨⟨path, name, v, after⟩, hassign, h⟩ := Option.bind_eq_some_iff.mp h
    obtain ⟨next, hnext, h⟩ := Option.bind_eq_some_iff.mp h
    have hnext : next.Distinct := ht.assign (hv.assignment hassign) hnext
    split at h
    · exact ih hnext h
    · cases h
      exact hnext
    · nomatch h

end

theorem namesOnce_of_text {cs rest : List Char} {v : Value}
    (h : ((text? cs).map fun (s, rest) => (Value.text s, rest)) = some (v, rest)) :
    v.Everywhere NamesOnce := by
  obtain ⟨⟨s, after⟩, -, he⟩ := Option.map_eq_some_iff.mp h
  cases he
  exact everywhere_text nofun

/-- **No name occurs twice in a value**, inline tables included. -/
theorem keepsNames_value (depth : Nat) : KeepsNames (value? depth) := by
  induction depth with
  | zero =>
    intro cs v rest h
    unfold value? at h
    split at h
    · exact namesOnce_of_text h
    · exact namesOnce_of_text h
    · rename_i hdepth
      nomatch hdepth
    · rename_i hdepth
      nomatch hdepth
    · exact keepsNames_word _ _ _ h
  | succ depth ih =>
    intro cs v rest h
    unfold value? at h
    split at h
    · exact namesOnce_of_text h
    · exact namesOnce_of_text h
    · rename_i hdepth
      cases hdepth
      obtain ⟨⟨vs, after⟩, hitems, he⟩ := Option.map_eq_some_iff.mp h
      cases he
      exact everywhere_sequence nofun (ih.items hitems)
    · rename_i hdepth
      cases hdepth
      split at h
      · cases h
        exact Table.distinct_iff.mp Table.distinct_nil
      · obtain ⟨⟨t, after⟩, hentries, he⟩ := Option.map_eq_some_iff.mp h
        cases he
        exact Table.distinct_iff.mp (ih.entries Table.distinct_nil hentries)
    · exact keepsNames_word _ _ _ h

/-! ## Documents -/

theorem namesOnce_of_statement {cs rest : List Char} {path : List String} {name : String}
    {v : Value} (h : statement? cs = some (.assignment path name v, rest)) :
    v.Everywhere NamesOnce := by
  unfold statement? at h
  split at h
  · obtain ⟨⟨path', name', after⟩, -, h⟩ := Option.bind_eq_some_iff.mp h
    dsimp only at h
    split at h <;> nomatch h
  · obtain ⟨⟨path', name', after⟩, -, h⟩ := Option.bind_eq_some_iff.mp h
    dsimp only at h
    split at h <;> nomatch h
  · obtain ⟨⟨path', name', w, after⟩, hassign, he⟩ := Option.map_eq_some_iff.mp h
    cases he
    exact (keepsNames_value maxDepth).assignment hassign

namespace Document

/-- A statement keeps the names of a document distinct. -/
theorem distinct_add {d next : Document} (hd : d.root.Distinct) {cs rest : List Char}
    {s : Statement} (hs : statement? cs = some (s, rest)) (h : d.add? s = some next) :
    next.root.Distinct := by
  cases s with
  | table path name =>
    obtain ⟨root, hroot, rfl⟩ := Option.map_eq_some_iff.mp h
    exact hd.define hroot
  | tables path name =>
    obtain ⟨root, hroot, rfl⟩ := Option.map_eq_some_iff.mp h
    exact hd.append hroot
  | assignment path name v =>
    obtain ⟨root, hroot, rfl⟩ := Option.map_eq_some_iff.mp h
    exact hd.assign (namesOnce_of_statement hs) hroot

theorem distinct_run {count : Nat} {d final : Document} (hd : d.root.Distinct) {cs : List Char}
    (h : run? count d cs = some final) : final.root.Distinct := by
  induction count generalizing d cs with
  | zero =>
    rw [run?] at h
    split_ifs at h
    cases h
    exact hd
  | succ count ih =>
    rw [run?] at h
    split_ifs at h
    · cases h
      exact hd
    · split at h
      · exact ih hd h
      · obtain ⟨⟨s, after⟩, hs, h⟩ := Option.bind_eq_some_iff.mp h
        obtain ⟨next, hnext, h⟩ := Option.bind_eq_some_iff.mp h
        obtain ⟨rest, -, h⟩ := Option.bind_eq_some_iff.mp h
        exact ih (distinct_add hd hs hnext) h

end Document

/-- **In what a text stands for, no map has two entries of a name.** -/
theorem namesOnce_of_decode {text : String} {v : Value} (h : decode? text = some v) :
    v.Everywhere NamesOnce := by
  obtain ⟨d, hd, rfl⟩ := Option.map_eq_some_iff.mp h
  exact Table.distinct_iff.mp (Document.distinct_run Table.distinct_nil hd)

end Toml

end Mustache
