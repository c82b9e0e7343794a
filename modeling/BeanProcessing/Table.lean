/-!
# Tables: maps that remember the order of insertion

A `Table κ α` is a list of entries with distinct keys. Inserting under a key that is present
replaces its value and keeps its place; any other insertion goes to the end. Tables hold the
declarations of a graph, the answers a resolver has given, and every count whose order is shown.
-/

namespace BeanProcessing

/-- Entries with distinct keys, in the order in which the keys were first inserted. -/
structure Table (κ α : Type) where
  entries : List (κ × α)
  nodup_keys : (entries.map Prod.fst).Nodup

namespace Table

variable {κ α : Type}

instance [DecidableEq κ] [DecidableEq α] : DecidableEq (Table κ α) := fun s t =>
  decidable_of_iff (s.entries = t.entries)
    ⟨fun h => by cases s; cases t; cases h; rfl, fun h => h ▸ rfl⟩

/-- The table without entries. -/
def empty : Table κ α := ⟨[], List.nodup_nil⟩

instance : EmptyCollection (Table κ α) := ⟨empty⟩

instance : Inhabited (Table κ α) := ⟨empty⟩

/-- The keys, in order. -/
def keys (t : Table κ α) : List κ := t.entries.map Prod.fst

/-- The values, in the order of their keys. -/
def values (t : Table κ α) : List α := t.entries.map Prod.snd

/-- The number of entries. -/
def size (t : Table κ α) : Nat := t.entries.length

variable [DecidableEq κ]

/-! ## Lookup -/

/-- The value of the first entry under `k` in a list of entries. -/
def lookup (k : κ) : List (κ × α) → Option α
  | [] => none
  | (key, value) :: rest => if key = k then some value else lookup k rest

/-- The value under a key. -/
def get? (t : Table κ α) (k : κ) : Option α := lookup k t.entries

/-- Whether there is a value under a key. -/
def contains (t : Table κ α) (k : κ) : Bool := (t.get? k).isSome

/-! ## Insertion -/

/-- Puts `v` under `k`: in the place of the entry under `k`, or else at the end. -/
def insertEntry (k : κ) (v : α) : List (κ × α) → List (κ × α)
  | [] => [(k, v)]
  | (key, value) :: rest =>
    if key = k then (key, v) :: rest else (key, value) :: insertEntry k v rest

theorem mem_keys_insertEntry {k k' : κ} {v : α} {l : List (κ × α)} :
    k' ∈ (insertEntry k v l).map Prod.fst ↔ k' = k ∨ k' ∈ l.map Prod.fst := by
  induction l with
  | nil => simp [insertEntry]
  | cons e rest ih =>
    obtain ⟨key, value⟩ := e
    unfold insertEntry
    split
    · next h =>
      subst h
      simp
    · simp only [List.map_cons, List.mem_cons, ih]
      constructor
      · rintro (h | h | h)
        · exact .inr (.inl h)
        · exact .inl h
        · exact .inr (.inr h)
      · rintro (h | h | h)
        · exact .inr (.inl h)
        · exact .inl h
        · exact .inr (.inr h)

theorem nodup_keys_insertEntry {k : κ} {v : α} {l : List (κ × α)}
    (h : (l.map Prod.fst).Nodup) : ((insertEntry k v l).map Prod.fst).Nodup := by
  induction l with
  | nil => simp [insertEntry]
  | cons e rest ih =>
    obtain ⟨key, value⟩ := e
    simp only [List.map_cons, List.nodup_cons] at h
    unfold insertEntry
    split
    · simpa using h
    · next hne =>
      simp only [List.map_cons, List.nodup_cons]
      refine ⟨fun hmem => ?_, ih h.2⟩
      rcases mem_keys_insertEntry.1 hmem with heq | hrest
      · exact hne heq
      · exact h.1 hrest

/-- Puts a value under a key, in the place of the value that was there or else at the end. -/
def insert (t : Table κ α) (k : κ) (v : α) : Table κ α :=
  ⟨insertEntry k v t.entries, nodup_keys_insertEntry t.nodup_keys⟩

/-- Inserts entries one after the other, so that a later one under the same key wins. -/
def ofList (l : List (κ × α)) : Table κ α :=
  l.foldl (fun t e => t.insert e.1 e.2) empty

/-! ## Change in place -/

/-- Applies `f` to the value under `k` in a list of entries. -/
def modifyEntry (k : κ) (f : α → α) : List (κ × α) → List (κ × α)
  | [] => []
  | (key, value) :: rest =>
    if key = k then (key, f value) :: rest else (key, value) :: modifyEntry k f rest

theorem keys_modifyEntry (k : κ) (f : α → α) (l : List (κ × α)) :
    (modifyEntry k f l).map Prod.fst = l.map Prod.fst := by
  induction l with
  | nil => rfl
  | cons e rest ih =>
    obtain ⟨key, value⟩ := e
    unfold modifyEntry
    split
    · rfl
    · simp [ih]

/-- Applies `f` to the value under a key; without such a value the table stays as it is. -/
def modify (t : Table κ α) (k : κ) (f : α → α) : Table κ α :=
  ⟨modifyEntry k f t.entries, by rw [keys_modifyEntry]; exact t.nodup_keys⟩

/-- Puts a value under a key that has none; a value that is there stays. -/
def insertIfNew (t : Table κ α) (k : κ) (v : α) : Table κ α :=
  if t.contains k then t else t.insert k v

/-! ## What the operations do to a lookup -/

theorem lookup_insertEntry (k k' : κ) (v : α) (l : List (κ × α)) :
    lookup k' (insertEntry k v l) = if k = k' then some v else lookup k' l := by
  induction l with
  | nil => rfl
  | cons e rest ih =>
    obtain ⟨key, value⟩ := e
    by_cases hk : key = k
    · subst hk
      by_cases hk' : key = k' <;> simp [insertEntry, lookup, hk']
    · by_cases hk' : key = k'
      · subst hk'
        have hne : ¬ k = key := fun h => hk h.symm
        simp [insertEntry, lookup, hk, hne]
      · simp [insertEntry, lookup, hk, hk', ih]

/-- A value under a new key goes to the end. -/
theorem insertEntry_of_not_mem {k : κ} (v : α) {l : List (κ × α)} (h : k ∉ l.map Prod.fst) :
    insertEntry k v l = l ++ [(k, v)] := by
  induction l with
  | nil => rfl
  | cons entry rest ih =>
    rw [List.map_cons, List.mem_cons, not_or] at h
    rw [insertEntry, if_neg (Ne.symm h.1), ih h.2, List.cons_append]

@[simp] theorem get?_insert (t : Table κ α) (k k' : κ) (v : α) :
    (t.insert k v).get? k' = if k = k' then some v else t.get? k' :=
  lookup_insertEntry k k' v t.entries

@[simp] theorem get?_empty (k : κ) : (empty : Table κ α).get? k = none := rfl

theorem lookup_modifyEntry (k k' : κ) (f : α → α) (l : List (κ × α)) :
    lookup k' (modifyEntry k f l) = if k = k' then (lookup k' l).map f else lookup k' l := by
  induction l with
  | nil => simp [modifyEntry, lookup]
  | cons e rest ih =>
    obtain ⟨key, value⟩ := e
    by_cases hk : key = k
    · subst hk
      by_cases hk' : key = k' <;> simp [modifyEntry, lookup, hk']
    · by_cases hk' : key = k'
      · subst hk'
        have hne : ¬ k = key := fun h => hk h.symm
        simp [modifyEntry, lookup, hk, hne]
      · simp [modifyEntry, lookup, hk, hk', ih]

@[simp] theorem get?_modify (t : Table κ α) (k k' : κ) (f : α → α) :
    (t.modify k f).get? k' = if k = k' then (t.get? k').map f else t.get? k' :=
  lookup_modifyEntry k k' f t.entries

end Table

end BeanProcessing
