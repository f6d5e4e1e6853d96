/-!
# Entries by name

Values, templates, overrides and escape tables are all kept as a list of pairs in which no name
occurs twice. What such a list holds under a name is `List.lookup`.

* `Entries.put` adds an entry or replaces the one of its name, `Entries.putAll` several;
* `Entries.fill` adds the entries whose names are missing;
* **`lookup_put`**, `mem_keys_put`, `mem_of_lookup`, `mem_put`, `nodup_put`, **`lookup_putAll`**,
  **`lookup_fill`**: what these change and what they keep;
* `lookup_eq_none_iff`, `lookup_eq_some_iff`: which names are found, and which entries;
* `lookup_map`: values that are all changed alike.
-/

namespace Mustache.Entries

variable {κ α : Type} [BEq κ]

/-- The entries with one added, in place of the entry of the same name if there is one. -/
def put (name : κ) (value : α) : List (κ × α) → List (κ × α)
  | [] => [(name, value)]
  | (k, v) :: rest => if k == name then (name, value) :: rest else (k, v) :: put name value rest

/-- The entries with several added in order, so that the last of a name stays. -/
def putAll (added : List (κ × α)) (entries : List (κ × α)) : List (κ × α) :=
  added.foldl (fun entries (name, value) => put name value entries) entries

/-- The entries together with those of `more` whose names they lack. -/
def fill (entries more : List (κ × α)) : List (κ × α) :=
  entries ++ more.filter fun e => (entries.lookup e.1).isNone

/-- The names of the entries. -/
def keys (entries : List (κ × α)) : List κ := entries.map Prod.fst

/-- Whether there is an entry of the name. -/
def has (name : κ) (entries : List (κ × α)) : Bool := (entries.lookup name).isSome

/-! ## What is found afterwards -/

section Laws

variable [LawfulBEq κ]

/-- **The last entry of a name is the one found**, and other names keep theirs. -/
theorem lookup_put (name other : κ) (value : α) (entries : List (κ × α)) :
    (put name value entries).lookup other =
      if other == name then some value else entries.lookup other := by
  cases ho : other == name with
  | true =>
    rw [beq_iff_eq] at ho
    subst ho
    induction entries with
    | nil => simp [put]
    | cons e rest ih =>
      obtain ⟨k, v⟩ := e
      simp only [put]
      by_cases hk : k = other
      · simp [hk]
      · have hk' : (other == k) = false := by simpa using Ne.symm hk
        simp [hk, List.lookup_cons, hk', ih]
  | false =>
    induction entries with
    | nil => simp [put, List.lookup_cons, ho]
    | cons e rest ih =>
      obtain ⟨k, v⟩ := e
      simp only [put]
      by_cases hk : k = name
      · simp [hk, List.lookup_cons, ho]
      · simp [hk, List.lookup_cons, ih]

theorem lookup_put_of_ne {name other : κ} (h : other ≠ name) (value : α)
    (entries : List (κ × α)) : (put name value entries).lookup other = entries.lookup other := by
  simp [lookup_put, h]

theorem mem_keys_put {name other : κ} {value : α} {entries : List (κ × α)} :
    other ∈ keys (put name value entries) ↔ other = name ∨ other ∈ keys entries := by
  induction entries with
  | nil => simp [put, keys]
  | cons e rest ih =>
    obtain ⟨k, v⟩ := e
    simp only [put]
    by_cases hk : k = name
    · subst hk; simp [keys]
    · have hk' : (k == name) = false := by simpa using hk
      simp only [keys, List.map_cons, List.mem_cons, hk'] at ih ⊢
      simp only [Bool.false_eq_true, if_false, List.map_cons, List.mem_cons, ih]
      exact or_left_comm

theorem mem_of_lookup {name : κ} {value : α} {entries : List (κ × α)}
    (h : entries.lookup name = some value) : (name, value) ∈ entries := by
  obtain ⟨l, r, rfl, -⟩ := List.lookup_eq_some_iff.mp h
  exact List.mem_append_right l (.head r)

omit [LawfulBEq κ] in
theorem mem_put {name : κ} {value : α} {e : κ × α} {entries : List (κ × α)}
    (h : e ∈ put name value entries) : e = (name, value) ∨ e ∈ entries := by
  induction entries with
  | nil => exact .inl (List.mem_singleton.mp h)
  | cons f rest ih =>
    rw [put] at h
    split at h
    · exact (List.mem_cons.mp h).imp id (.tail _)
    · obtain rfl | h := List.mem_cons.mp h
      · exact .inr (.head _)
      · exact (ih h).imp id (.tail _)

/-- No name occurs twice in a list built by `put`. -/
theorem nodup_put {name : κ} {value : α} {entries : List (κ × α)} (h : (keys entries).Nodup) :
    (keys (put name value entries)).Nodup := by
  induction entries with
  | nil => simp [put, keys]
  | cons e rest ih =>
    obtain ⟨k, v⟩ := e
    simp only [put]
    simp only [keys, List.map_cons, List.nodup_cons] at h
    by_cases hk : k = name
    · subst hk; simpa [keys] using h
    · have hk' : (k == name) = false := by simpa using hk
      simp only [hk', Bool.false_eq_true, if_false, keys, List.map_cons, List.nodup_cons]
      refine ⟨?_, ih h.2⟩
      intro hm
      rcases mem_keys_put.mp hm with h1 | h1
      · exact hk h1
      · exact h.1 h1

theorem lookup_eq_none_iff {name : κ} {entries : List (κ × α)} :
    entries.lookup name = none ↔ name ∉ keys entries := by
  induction entries with
  | nil => simp [keys]
  | cons e rest ih =>
    obtain ⟨k, v⟩ := e
    show _ ↔ name ∉ k :: keys rest
    by_cases hk : name = k
    · simp [hk]
    · have hk' : (name == k) = false := by simpa using hk
      rw [List.lookup_cons, hk', List.mem_cons]
      simp [hk, ih]

/-- Where no name occurs twice, every entry is found. -/
theorem lookup_eq_some_iff {name : κ} {value : α} {entries : List (κ × α)}
    (h : (keys entries).Nodup) : entries.lookup name = some value ↔ (name, value) ∈ entries := by
  refine ⟨mem_of_lookup, fun hm => ?_⟩
  induction entries with
  | nil => nomatch hm
  | cons e rest ih =>
    obtain ⟨hk, hrest⟩ := List.nodup_cons.mp h
    obtain rfl | hm := List.mem_cons.mp hm
    · simp
    · have hk' : (name == e.1) = false := by
        rw [beq_eq_false_iff_ne]
        rintro rfl
        exact hk (List.mem_map.mpr ⟨_, hm, rfl⟩)
      rw [List.lookup_cons, hk']
      exact ih hrest hm

omit [LawfulBEq κ] in
theorem lookup_map {β : Type} (f : α → β) (entries : List (κ × α)) (name : κ) :
    (entries.map fun (k, v) => (k, f v)).lookup name = (entries.lookup name).map f := by
  induction entries with
  | nil => rfl
  | cons e rest ih =>
    obtain ⟨k, v⟩ := e
    simp only [List.map_cons, List.lookup_cons]
    cases name == k with
    | true => rfl
    | false => exact ih

/-- **Of several entries of a name the last one is found.** -/
theorem lookup_putAll (added entries : List (κ × α)) (name : κ) :
    (putAll added entries).lookup name =
      (added.reverse.lookup name).or (entries.lookup name) := by
  induction added generalizing entries with
  | nil => rfl
  | cons e added ih =>
    obtain ⟨k, v⟩ := e
    show (putAll added (put k v entries)).lookup name = _
    rw [ih, lookup_put, List.reverse_cons, List.lookup_append, Option.or_assoc]
    cases hk : name == k <;> simp [List.lookup_cons, hk]

/-- **Entries that are there win over those that fill in.** -/
theorem lookup_fill (entries more : List (κ × α)) (name : κ) :
    (fill entries more).lookup name = (entries.lookup name).or (more.lookup name) := by
  have hfilter : entries.lookup name = none →
      (more.filter fun e => (entries.lookup e.1).isNone).lookup name = more.lookup name := by
    intro hn
    induction more with
    | nil => rfl
    | cons e rest ih =>
      obtain ⟨k, v⟩ := e
      cases hk : name == k with
      | true =>
        rw [beq_iff_eq] at hk
        subst hk
        simp [hn]
      | false =>
        rw [List.lookup_cons, hk, List.filter_cons]
        split
        · rw [List.lookup_cons, hk, ih]
        · exact ih
  rw [fill, List.lookup_append]
  cases h : entries.lookup name with
  | some v => simp
  | none => simp [hfilter h]

end Laws

end Mustache.Entries
