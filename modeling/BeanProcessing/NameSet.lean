/-!
# Sets of names

A `NameSet` lists its names in strictly increasing order by code point, so a set has one form and
two sets with the same members are equal.
-/

namespace BeanProcessing

/-- A finite set of names, listed in increasing order. -/
structure NameSet where
  toList : List String
  sorted : toList.Pairwise (· < ·)

namespace NameSet

instance : DecidableEq NameSet := fun s t =>
  decidable_of_iff (s.toList = t.toList)
    ⟨fun h => by cases s; cases t; cases h; rfl, fun h => h ▸ rfl⟩

/-- The set without names. -/
def empty : NameSet := ⟨[], List.Pairwise.nil⟩

instance : EmptyCollection NameSet := ⟨empty⟩

instance : Inhabited NameSet := ⟨empty⟩

instance : Membership String NameSet := ⟨fun s name => name ∈ s.toList⟩

instance (name : String) (s : NameSet) : Decidable (name ∈ s) :=
  inferInstanceAs (Decidable (name ∈ s.toList))

/-- Whether the set has no names. -/
def isEmpty (s : NameSet) : Bool := s.toList.isEmpty

/-- Puts a name in front of the first greater one, unless it is there already. -/
def insertSorted (name : String) : List String → List String
  | [] => [name]
  | first :: rest =>
    if name < first then name :: first :: rest
    else if first < name then first :: insertSorted name rest
    else first :: rest

theorem mem_insertSorted {name x : String} {l : List String} :
    x ∈ insertSorted name l ↔ x = name ∨ x ∈ l := by
  induction l with
  | nil => simp [insertSorted]
  | cons first rest ih =>
    unfold insertSorted
    split
    · simp
    · split
      · simp only [List.mem_cons, ih]
        exact or_left_comm
      · next hlt hgt =>
        have heq : name = first := String.le_antisymm (String.not_lt.1 hgt) (String.not_lt.1 hlt)
        subst heq
        simp

theorem sorted_insertSorted {name : String} {l : List String} (h : l.Pairwise (· < ·)) :
    (insertSorted name l).Pairwise (· < ·) := by
  induction l with
  | nil => simp [insertSorted]
  | cons first rest ih =>
    obtain ⟨hfirst, hrest⟩ := List.pairwise_cons.1 h
    unfold insertSorted
    split
    · next hlt =>
      refine List.pairwise_cons.2 ⟨fun x hx => ?_, h⟩
      rcases List.mem_cons.1 hx with hx | hx
      · exact hx ▸ hlt
      · exact String.lt_trans hlt (hfirst x hx)
    · split
      · next hgt =>
        refine List.pairwise_cons.2 ⟨fun x hx => ?_, ih hrest⟩
        rcases mem_insertSorted.1 hx with hx | hx
        · exact hx ▸ hgt
        · exact hfirst x hx
      · exact h

/-- Adds a name. -/
def insert (s : NameSet) (name : String) : NameSet :=
  ⟨insertSorted name s.toList, sorted_insertSorted s.sorted⟩

@[simp] theorem mem_insert {s : NameSet} {name x : String} :
    x ∈ s.insert name ↔ x = name ∨ x ∈ s :=
  mem_insertSorted

/-- The set of the names in a list. -/
def ofList (names : List String) : NameSet :=
  names.foldl insert empty

end NameSet

end BeanProcessing
