import Mathlib
import Mustache.Config.Reading
import Mustache.Proofs.ContentTypes
import Mustache.Proofs.Toml.Names
import Mustache.Template.Basic

/-!
# What a configuration holds

A configuration that is read holds each escape table of its text in place of the built-in one, and
the built-in tables that the text does not mention. No name occurs twice in a text, so that the
order in which the tables are laid over the built-in ones does not matter.

* `EscapeTable.Spells`: the table says what the entries of a text say;
* `Config.Overlays`: the built-in configuration with a text laid over it;
* `ContentTypes.ofTables`: a registry of tables and a default that may be missing among them;
* `Shape.Distinct`: what a text says, it says once; `Shape.distinct_of_decode`: so it is in TOML;
* `escapeTable_spells`: one table; `lookup_overlay_of_mem`, `lookup_overlay_of_not_mem`: all of
  them;
* **`Config.overlays_of_parseWith`**, **`Config.registry_of_parseWith`**: whatever the decoder is,
  if it does not say anything twice.
-/

namespace Mustache

/-- The keys of the entries are single characters, and the table replaces these alone. -/
structure EscapeTable.Spells (table : EscapeTable) (entries : List (String × String)) : Prop where
  keys : ∀ e ∈ entries, ∃ c, e.1 = String.singleton c
  lookup : ∀ c replacement,
    table.lookup c = some replacement ↔ (String.singleton c, replacement) ∈ entries

/-- The registry of escape tables and a default, unless the default is not among them. -/
def ContentTypes.ofTables (tables : List (String × EscapeTable)) (defaultId : String) :
    Except ConfigError ContentTypes :=
  let types := tables.map fun (id, table) => (id, table.contentType)
  if h : Entries.has defaultId types = true then .ok ⟨types, defaultId, h⟩
  else .error (.unknownDefault defaultId)

namespace Config

/-- The configuration is the built-in one with what a text says laid over it. -/
structure Overlays (c : Config) (shape : Shape) : Prop where
  own : ∀ id entries, (id, entries) ∈ shape.tables →
    ∃ table : EscapeTable, c.tables.lookup id = some table ∧ table.Spells entries
  others : ∀ id, id ∉ Entries.keys shape.tables → c.tables.lookup id = builtIn.tables.lookup id
  markup : Entries.has "HTML" c.tables = true
  plain : Entries.has "TEXT" c.tables = true
  default : c.defaultId = shape.defaultId.getD builtIn.defaultId
  has_default : Entries.has c.defaultId c.tables = true

theorem ofTables_eq (c : Config) : ContentTypes.ofTables c.tables c.defaultId = .ok c.types :=
  dif_pos c.types.has_default

theorem find?_types (c : Config) (id : String) :
    c.types.find? id = (c.tables.lookup id).map EscapeTable.contentType :=
  Entries.lookup_map _ _ _

/-! ## What a text says -/

/-- No table and no key is mentioned twice. -/
structure Shape.Distinct (shape : Shape) : Prop where
  tables : (Entries.keys shape.tables).Nodup
  entries : ∀ e ∈ shape.tables, (Entries.keys e.2).Nodup

/-- Entries whose values are all read keep their names. -/
theorem entries_of_mapM {α β : Type} {read? : α → Option β} {entries : List (String × α)}
    {result : List (String × β)}
    (h : (entries.mapM fun (name, v) => (read? v).map fun w => (name, w)) = some result) :
    Entries.keys result = Entries.keys entries ∧
      ∀ e ∈ result, ∃ v, (e.1, v) ∈ entries ∧ read? v = some e.2 := by
  induction entries generalizing result with
  | nil =>
    cases h
    exact ⟨rfl, nofun⟩
  | cons e entries ih =>
    obtain ⟨name, v⟩ := e
    rw [List.mapM_cons] at h
    obtain ⟨first, hfirst, h⟩ := Option.bind_eq_some_iff.mp h
    obtain ⟨rest, hrest, h⟩ := Option.bind_eq_some_iff.mp h
    obtain ⟨w, hw, rfl⟩ := Option.map_eq_some_iff.mp hfirst
    cases h
    obtain ⟨hkeys, hmem⟩ := ih hrest
    refine ⟨congrArg (name :: ·) hkeys, List.forall_mem_cons.mpr ⟨⟨v, .head _, hw⟩, fun e he => ?_⟩⟩
    obtain ⟨u, hu, hread⟩ := hmem e he
    exact ⟨u, .tail _ hu, hread⟩

open Value in
theorem nodup_textEntries {v : Value} {entries : List (String × String)}
    (hv : v.Everywhere NamesOnce) (h : textEntries? v = some entries) :
    (Entries.keys entries).Nodup := by
  cases v with
  | map own =>
    rw [(entries_of_mapM h).1]
    exact hv.here own rfl
  | _ => nomatch h

open Value in
theorem distinct_tableEntries {v : Value} {tables : List (String × List (String × String))}
    (hv : v.Everywhere NamesOnce) (h : tableEntries? v = some tables) :
    (Entries.keys tables).Nodup ∧ ∀ e ∈ tables, (Entries.keys e.2).Nodup := by
  cases v with
  | map own =>
    obtain ⟨hkeys, hmem⟩ := entries_of_mapM h
    refine ⟨?_, fun e he => ?_⟩
    · rw [hkeys]
      exact hv.here own rfl
    · obtain ⟨u, hu, hread⟩ := hmem e he
      exact nodup_textEntries (hv.part (.entry hu)) hread
  | _ => nomatch h

/-- The two keys that count are read one after the other. -/
theorem Shape.ofValue?_map (entries : List (String × Value)) :
    ofValue? (.map entries) =
      ((entries.lookup "default_content_type").elim (some none) fun v => some <$> v.text?).bind
        fun defaultId => ((entries.lookup "content_types").elim (some []) tableEntries?).bind
          fun tables => some ⟨defaultId, tables⟩ := by
  rw [ofValue?]
  cases entries.lookup "default_content_type" <;> cases entries.lookup "content_types" <;> rfl

theorem Shape.distinct_of_decode {text : String} {shape : Shape}
    (h : decode? text = some shape) : shape.Distinct := by
  obtain ⟨v, hv, h⟩ := Option.bind_eq_some_iff.mp h
  have hv := Toml.namesOnce_of_decode hv
  cases v with
  | map entries =>
    rw [ofValue?_map] at h
    obtain ⟨defaultId, -, h⟩ := Option.bind_eq_some_iff.mp h
    obtain ⟨tables, htables, h⟩ := Option.bind_eq_some_iff.mp h
    cases h
    cases hown : entries.lookup "content_types" with
    | none =>
      rw [hown] at htables
      cases htables
      exact ⟨List.nodup_nil, nofun⟩
    | some own =>
      rw [hown] at htables
      have hown := hv.part (.entry (Entries.mem_of_lookup hown))
      obtain ⟨hnodup, hentries⟩ := distinct_tableEntries hown htables
      exact ⟨hnodup, hentries⟩
  | _ => nomatch h

/-! ## One table -/

theorem exists_of_bind_eq_ok {ε α β : Type} {r : Except ε α} {f : α → Except ε β} {b : β}
    (h : r >>= f = .ok b) : ∃ a, r = .ok a ∧ f a = .ok b := by
  cases r with
  | error e => nomatch h
  | ok a => exact ⟨a, rfl, h⟩

theorem sorted_perm {α : Type} (entries : List (String × α)) :
    (Entries.sorted entries).Perm entries :=
  List.mergeSort_perm _ _

theorem eq_singleton_of_toList {key : String} {c : Char} (h : key.toList = [c]) :
    key = String.singleton c :=
  String.toList_injective (h.trans (String.toList_singleton c).symm)

/-- The table has the entries of a text, with characters for keys. -/
theorem perm_of_escapeTable {id : String} {entries : List (String × String)} {table : EscapeTable}
    (h : escapeTable id entries = .ok table) :
    (table.map fun (c, replacement) => (String.singleton c, replacement)).Perm entries := by
  refine .trans (.of_eq ?_) (sorted_perm entries)
  rw [escapeTable] at h
  generalize Entries.sorted entries = sorted at h
  induction sorted generalizing table with
  | nil =>
    cases h
    rfl
  | cons e sorted ih =>
    obtain ⟨key, replacement⟩ := e
    rw [List.mapM_cons] at h
    obtain ⟨first, hfirst, h⟩ := exists_of_bind_eq_ok h
    obtain ⟨rest, hrest, h⟩ := exists_of_bind_eq_ok h
    cases h
    dsimp only at hfirst
    split at hfirst
    · rename_i c hkey
      cases hfirst
      rw [List.map_cons, ih hrest, eq_singleton_of_toList hkey]
    · nomatch hfirst

/-- **One table**, whose keys are read as characters. -/
theorem escapeTable_spells {id : String} {entries : List (String × String)} {table : EscapeTable}
    (hentries : (Entries.keys entries).Nodup) (h : escapeTable id entries = .ok table) :
    table.Spells entries := by
  have hperm := perm_of_escapeTable h
  have hmem {c : Char} {replacement : String} :
      (c, replacement) ∈ table ↔ (String.singleton c, replacement) ∈ entries := by
    rw [← hperm.mem_iff]
    simp [String.singleton_inj]
  have hkeys : (Entries.keys table).Nodup := by
    refine .of_map String.singleton ?_
    have hnodup := (hperm.map Prod.fst).nodup_iff.mpr hentries
    rw [List.map_map] at hnodup
    rw [Entries.keys, List.map_map]
    exact hnodup
  refine ⟨fun e he => ?_, fun c replacement => ?_⟩
  · obtain ⟨f, -, rfl⟩ := List.mem_map.mp (hperm.mem_iff.mpr he)
    exact ⟨f.1, rfl⟩
  · rw [Entries.lookup_eq_some_iff hkeys]
    exact hmem

/-! ## All tables -/

/-- The tables of a text are put in place one after the other. -/
theorem exists_of_overlay {tables next : List (String × EscapeTable)}
    {own : List (String × List (String × String))} (h : overlay tables own = .ok next) :
    ∃ added, next = Entries.putAll added tables ∧ Entries.keys added = Entries.keys own ∧
      ∀ e ∈ own, ∃ table, escapeTable e.1 e.2 = .ok table ∧ (e.1, table) ∈ added := by
  induction own generalizing tables with
  | nil =>
    cases h
    exact ⟨[], rfl, rfl, nofun⟩
  | cons e own ih =>
    obtain ⟨id, entries⟩ := e
    rw [overlay] at h
    split at h
    · rename_i table htable
      obtain ⟨added, hnext, hkeys, hadded⟩ := ih h
      refine ⟨(id, table) :: added, hnext, congrArg (id :: ·) hkeys,
        List.forall_mem_cons.mpr ⟨⟨table, htable, .head _⟩, fun e he => ?_⟩⟩
      obtain ⟨other, hother, hmem⟩ := hadded e he
      exact ⟨other, hother, .tail _ hmem⟩
    · nomatch h

variable {tables next : List (String × EscapeTable)} {own : List (String × List (String × String))}

theorem lookup_overlay_of_mem (hown : (Entries.keys own).Nodup) (h : overlay tables own = .ok next)
    {id : String} {entries : List (String × String)} (hmem : (id, entries) ∈ own) :
    ∃ table, escapeTable id entries = .ok table ∧ next.lookup id = some table := by
  obtain ⟨added, rfl, hkeys, hadded⟩ := exists_of_overlay h
  obtain ⟨table, htable, hin⟩ := hadded _ hmem
  have hnodup : (Entries.keys added.reverse).Nodup := by
    rwa [Entries.keys, List.map_reverse, List.nodup_reverse, ← Entries.keys, hkeys]
  refine ⟨table, htable, ?_⟩
  rw [Entries.lookup_putAll,
    (Entries.lookup_eq_some_iff hnodup).mpr (List.mem_reverse.mpr hin), Option.some_or]

theorem lookup_overlay_of_not_mem (h : overlay tables own = .ok next) {id : String}
    (hid : id ∉ Entries.keys own) : next.lookup id = tables.lookup id := by
  obtain ⟨added, rfl, hkeys, -⟩ := exists_of_overlay h
  have hreverse : id ∉ Entries.keys added.reverse := by
    rwa [Entries.keys, List.map_reverse, List.mem_reverse, ← Entries.keys, hkeys]
  rw [Entries.lookup_putAll, Entries.lookup_eq_none_iff.mpr hreverse, Option.none_or]

/-- No table is taken away. -/
theorem has_overlay (h : overlay tables own = .ok next) {id : String}
    (hid : Entries.has id tables = true) : Entries.has id next = true := by
  obtain ⟨added, rfl, -, -⟩ := exists_of_overlay h
  rw [Entries.has, Entries.lookup_putAll, Option.isSome_or, Bool.or_eq_true]
  exact .inr hid

/-- **What a configuration holds**, if it holds what a text says that says nothing twice. -/
theorem overlays_of_ofShape {shape : Shape} {c : Config} (hshape : shape.Distinct)
    (h : ofShape shape = .ok c) : c.Overlays shape := by
  have hsorted := sorted_perm shape.tables
  have hnodup : (Entries.keys (Entries.sorted shape.tables)).Nodup :=
    (hsorted.map Prod.fst).nodup_iff.mpr hshape.tables
  unfold ofShape at h
  split at h
  · nomatch h
  · rename_i tables htables
    dsimp only at h
    split_ifs at h with hdefault
    cases h
    refine ⟨fun id entries hmem => ?_, fun id hid => ?_, ?_, ?_, rfl, hdefault⟩
    · obtain ⟨table, htable, hlookup⟩ :=
        lookup_overlay_of_mem hnodup htables (hsorted.mem_iff.mpr hmem)
      exact ⟨table, hlookup, escapeTable_spells (hshape.entries _ hmem) htable⟩
    · refine lookup_overlay_of_not_mem htables fun hmem => hid ?_
      exact (hsorted.map Prod.fst).mem_iff.mp hmem
    · exact has_overlay htables (by decide)
    · exact has_overlay htables (by decide)

/-- **A configuration that is read** is the built-in one with its text laid over it. -/
theorem overlays_of_parseWith {decode? : String → Option Shape}
    (hdecode : ∀ text shape, decode? text = some shape → shape.Distinct) {text : String}
    {c : Config} (h : parseWith decode? text = .ok c) :
    ∃ shape, decode? text = some shape ∧ c.Overlays shape := by
  rw [parseWith] at h
  split at h
  · rename_i shape hshape
    exact ⟨shape, hshape, overlays_of_ofShape (hdecode text shape hshape) h⟩
  · nomatch h

/-- **What a configuration that is read comes to**, whatever decoder it is read with that gives
maps, in which no name occurs twice. It is the built-in one with the text laid over it, and makes a
registry and a library. Of any registry, whatever changes are made to it, the default is one of its
types; the types are those that were registered last and those that there were before, of which none
disappears; and a default that is not among them is refused and changes nothing. -/
theorem registry_of_parseWith {decode? : String → Option Shape}
    (hdecode : ∀ text shape, decode? text = some shape → shape.Distinct) :
    (∀ text c, parseWith decode? text = .ok c →
      (∃ shape, decode? text = some shape ∧ c.Overlays shape) ∧
        ContentTypes.ofTables c.tables c.defaultId = .ok c.types ∧
        (ContentTypes.ofTables c.tables c.defaultId).map Library.empty = .ok (.empty c.types) ∧
        ∀ id, c.types.find? id = (c.tables.lookup id).map EscapeTable.contentType) ∧
      ∀ (t : ContentTypes) (changes : List ContentTypes.Change),
        let next := t.changeAll changes
        next.find? next.defaultId = some next.defaultType ∧
          (∀ id, next.find? id =
            ((changes.filterMap ContentTypes.Change.added?).reverse.lookup id).or (t.find? id)) ∧
          (∀ id, t.contains id = true → next.contains id = true) ∧
          ∀ id,
            (next.contains id = true → ∃ other, next.setDefault id = (.ok (), other) ∧
              other.types = next.types ∧ other.defaultId = id) ∧
            (next.contains id = false →
              next.setDefault id = (.error (.unknownDefault id), next)) := by
  refine ⟨fun text c h => ⟨overlays_of_parseWith hdecode h, c.ofTables_eq, ?_, c.find?_types⟩,
    fun t changes => ⟨ContentTypes.find?_defaultId _, ContentTypes.find?_changeAll t changes,
      fun id => ContentTypes.contains_changeAll changes, fun id => ⟨fun hid => ?_, fun hid => ?_⟩⟩⟩
  · rw [ofTables_eq]
    rfl
  · exact ⟨_, ContentTypes.setDefault_of_contains hid, rfl, rfl⟩
  · exact ContentTypes.setDefault_of_not_contains hid

/-- A table in place of a built-in one, another table, and changes of which the last one fails. -/
theorem registry_of_parseWith_tables :
    ∃ c shape, parse "[content_types]\nTEXT.b='c'\nA.b='d'" = .ok c ∧ c.Overlays shape ∧
      c.types.contains "A" = true ∧ ∃ next, next = c.types.changeAll [.setDefault "A",
        .register "C" EscapeTable.markup.contentType, .setDefault "B"] ∧
        next.contains "A" = true ∧ next.contains "C" = true ∧
        (∃ other, next.setDefault "C" = (.ok (), other) ∧ other.defaultId = "C") ∧
        next.contains "B" = false ∧ (next.setDefault "B").2 = next ∧ next.defaultId = "A" := by
  let c : Config := ⟨[("HTML", EscapeTable.markup), ("TEXT", [('b', "c")]), ("A", [('b', "d")])],
    "HTML", by decide⟩
  have h : parse "[content_types]\nTEXT.b='c'\nA.b='d'" = .ok c := by cbv
  obtain ⟨hread, hchanges⟩ := registry_of_parseWith fun _ _ => Shape.distinct_of_decode
  obtain ⟨⟨shape, -, hc⟩, -⟩ := hread _ _ h
  obtain ⟨-, -, hkept, hset⟩ := hchanges c.types [.setDefault "A",
    .register "C" EscapeTable.markup.contentType, .setDefault "B"]
  obtain ⟨other, hother, -, hid⟩ := (hset "C").1 rfl
  exact ⟨c, shape, h, hc, rfl, _, rfl, hkept "A" rfl, rfl, ⟨other, hother, hid⟩, rfl,
    congrArg Prod.snd ((hset "B").2 rfl), rfl⟩

end Config

end Mustache
