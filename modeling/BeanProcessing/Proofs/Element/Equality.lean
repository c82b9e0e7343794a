import BeanProcessing.Element.Equality
import Mathlib.Data.List.Nodup

/-!
# Equality of elements whose names are unique

Arguments are compared as maps: as many names on both sides, and every name of the one bound in the
other to the same type. Two lists of bindings with the same names in the same order are maps of that
sort when no name is repeated, and comparing them place by place is easier. That is `Matches`.
-/

namespace BeanProcessing

mutual

/-- Whether no name is repeated in the arguments of an element, nor in those of its arguments. -/
def ClassElement.UniqueNames : ClassElement → Prop
  | .declared _ arguments => arguments.UniqueNames
  | .placeholder _ arguments _ _ => arguments.UniqueNames

/-- Whether no name is repeated, here or in the arguments of the elements. -/
def TypeArguments.UniqueNames : TypeArguments → Prop
  | .nil => True
  | .cons name e rest => name ∉ rest.names ∧ e.UniqueNames ∧ rest.UniqueNames

end

/-- Whether two substitutions bind the same names in the same order to elements of the same type. -/
def TypeArguments.Matches : TypeArguments → TypeArguments → Prop
  | .nil, .nil => True
  | .cons name e as, .cons name' f bs => name = name' ∧ e.sameType f = true ∧ as.Matches bs
  | .nil, .cons _ _ _ => False
  | .cons _ _ _, .nil => False

/-! ## Matching bindings -/

theorem TypeArguments.mem_names_of_mem_toList {bindings : TypeArguments}
    {entry : String × ClassElement} (h : entry ∈ bindings.toList) : entry.1 ∈ bindings.names := by
  induction bindings with
  | nil => cases h
  | cons name e rest ih =>
    rcases List.mem_cons.1 h with rfl | h
    · exact List.mem_cons_self
    · exact List.mem_cons_of_mem _ (ih h)

theorem TypeArguments.exists_get?_of_mem_names {bindings : TypeArguments} {name : String}
    (h : name ∈ bindings.names) : ∃ e, bindings.get? name = some e := by
  induction bindings with
  | nil => cases h
  | cons name' e rest ih =>
    unfold TypeArguments.get?
    split
    · exact ⟨e, rfl⟩
    · next hne => exact ih ((List.mem_cons.1 h).resolve_left fun heq => hne heq.symm)

theorem TypeArguments.mem_toList_of_get? {bindings : TypeArguments} {name : String}
    {e : ClassElement} (h : bindings.get? name = some e) : (name, e) ∈ bindings.toList := by
  induction bindings with
  | nil => cases h
  | cons name' e' rest ih =>
    unfold TypeArguments.get? at h
    split at h
    · next hname =>
      cases h
      rw [hname]
      exact List.mem_cons_self
    · exact List.mem_cons_of_mem _ (ih h)

theorem TypeArguments.mem_names_of_get? {bindings : TypeArguments} {name : String}
    {e : ClassElement} (h : bindings.get? name = some e) : name ∈ bindings.names :=
  TypeArguments.mem_names_of_mem_toList (TypeArguments.mem_toList_of_get? h)

/-- Where no name is repeated, every binding is found under its name. -/
theorem TypeArguments.get?_of_mem_toList {bindings : TypeArguments} (h : bindings.names.Nodup)
    {entry : String × ClassElement} (hentry : entry ∈ bindings.toList) :
    bindings.get? entry.1 = some entry.2 := by
  induction bindings with
  | nil => cases hentry
  | cons name e rest ih =>
    obtain ⟨hname, hrest⟩ := List.nodup_cons.1 h
    unfold TypeArguments.get?
    rcases List.mem_cons.1 hentry with rfl | hentry
    · exact if_pos rfl
    · have hne : name ≠ entry.1 := fun heq =>
        hname (heq ▸ TypeArguments.mem_names_of_mem_toList hentry)
      rw [if_neg hne]
      exact ih hrest hentry

theorem TypeArguments.UniqueNames.nodup {bindings : TypeArguments} (h : bindings.UniqueNames) :
    bindings.names.Nodup := by
  induction bindings with
  | nil => exact List.nodup_nil
  | cons name e rest ih => exact List.nodup_cons.2 ⟨h.1, ih h.2.2⟩

theorem TypeArguments.Matches.size_eq {as bs : TypeArguments} (h : as.Matches bs) :
    as.size = bs.size := by
  induction as generalizing bs with
  | nil =>
    cases bs with
    | nil => rfl
    | cons => exact h.elim
  | cons name e as ih =>
    cases bs with
    | nil => exact h.elim
    | cons name' f bs => rw [TypeArguments.size, TypeArguments.size, ih h.2.2]

/-- Bindings that match those of a list are bound alike in any map where that list is found. -/
theorem TypeArguments.Matches.boundAlikeIn_of_found {as bs cs : TypeArguments}
    (h : as.Matches bs) (hfound : ∀ entry ∈ bs.toList, cs.get? entry.1 = some entry.2) :
    as.boundAlikeIn cs = true := by
  induction as generalizing bs with
  | nil => rfl
  | cons name e as ih =>
    cases bs with
    | nil => exact h.elim
    | cons name' f bs =>
      obtain ⟨rfl, hsame, hrest⟩ := h
      have hget : cs.get? name = some f := hfound (name, f) List.mem_cons_self
      have htail : as.boundAlikeIn cs = true :=
        ih hrest fun entry hentry => hfound entry (List.mem_cons_of_mem _ hentry)
      rw [TypeArguments.boundAlikeIn, hget, htail, Bool.and_true]
      exact hsame

theorem TypeArguments.Matches.boundAlikeIn {as bs : TypeArguments} (h : as.Matches bs)
    (hnames : bs.names.Nodup) : as.boundAlikeIn bs = true :=
  h.boundAlikeIn_of_found fun _ hentry => TypeArguments.get?_of_mem_toList hnames hentry

theorem TypeArguments.Matches.insert {as bs : TypeArguments} (h : as.Matches bs) (name : String)
    {e f : ClassElement} (hsame : e.sameType f = true) :
    (as.insert name e).Matches (bs.insert name f) := by
  induction as generalizing bs with
  | nil =>
    cases bs with
    | nil => exact ⟨rfl, hsame, trivial⟩
    | cons => exact h.elim
  | cons name' e' as ih =>
    cases bs with
    | nil => exact h.elim
    | cons name'' f' bs =>
      obtain ⟨rfl, hsame', hrest⟩ := h
      unfold TypeArguments.insert
      by_cases hname : name' = name
      · rw [if_pos hname, if_pos hname]
        exact ⟨rfl, hsame, hrest⟩
      · rw [if_neg hname, if_neg hname]
        exact ⟨rfl, hsame', ih hrest⟩

/-! ## Elements -/

theorem ClassShape.sameType_refl (s : ClassShape) : s.sameType s = true :=
  decide_eq_true rfl

theorem ClassElement.sameType_declared {s t : ClassShape} {as bs : TypeArguments}
    (hshape : s.sameType t = true) (h : as.Matches bs) (hnames : bs.names.Nodup) :
    (ClassElement.declared s as).sameType (.declared t bs) = true := by
  rw [ClassElement.sameType, hshape, h.boundAlikeIn hnames, h.size_eq]
  simp

theorem ClassElement.sameType_placeholder {s t : ClassShape} {as bs : TypeArguments}
    (hshape : s.sameType t = true) (h : as.Matches bs) (hnames : bs.names.Nodup)
    (v : TypeVariable) (captured captured' : TypeArguments) :
    (ClassElement.placeholder s as v captured).sameType (.placeholder t bs v captured') = true := by
  rw [ClassElement.sameType, hshape, h.boundAlikeIn hnames, h.size_eq]
  simp

mutual

theorem ClassElement.sameType_refl : ∀ e : ClassElement, e.UniqueNames → e.sameType e = true
  | .declared s as => fun h =>
    ClassElement.sameType_declared s.sameType_refl (TypeArguments.matches_refl as h) h.nodup
  | .placeholder s as v captured => fun h =>
    ClassElement.sameType_placeholder s.sameType_refl (TypeArguments.matches_refl as h) h.nodup v
      captured captured

theorem TypeArguments.matches_refl : ∀ as : TypeArguments, as.UniqueNames → as.Matches as
  | .nil => fun _ => trivial
  | .cons _ e rest => fun h =>
    ⟨rfl, ClassElement.sameType_refl e h.2.1, TypeArguments.matches_refl rest h.2.2⟩

end

theorem ClassShape.dimensions_eq_of_sameType {s t : ClassShape} (h : s.sameType t = true) :
    s.dimensions = t.dimensions := by
  have heq := of_decide_eq_true h
  rw [ClassShape.mk.injEq] at heq
  exact heq.2.2.2.2.2.1

theorem ClassShape.sameType_withDimensions {s t : ClassShape} (h : s.sameType t = true)
    (dimensions : Nat) :
    ClassShape.sameType { s with dimensions } { t with dimensions } = true := by
  have heq := of_decide_eq_true h
  exact decide_eq_true (congrArg (fun shape : ClassShape => { shape with dimensions }) heq)

theorem ClassElement.dimensions_eq_of_sameType {e f : ClassElement} (h : e.sameType f = true) :
    e.dimensions = f.dimensions := by
  cases e with
  | declared s as =>
    cases f with
    | declared t bs =>
      rw [ClassElement.sameType, Bool.and_eq_true, Bool.and_eq_true] at h
      exact ClassShape.dimensions_eq_of_sameType h.1.1
    | placeholder t bs w ds => cases h
  | placeholder s as v cs =>
    cases f with
    | declared t bs => cases h
    | placeholder t bs w ds =>
      rw [ClassElement.sameType, Bool.and_eq_true, Bool.and_eq_true, Bool.and_eq_true] at h
      exact ClassShape.dimensions_eq_of_sameType h.1.1.1

/-- Elements of one type are of one type in any number of dimensions. -/
theorem ClassElement.sameType_withDimensions {e f : ClassElement} (h : e.sameType f = true)
    (dimensions : Nat) :
    (e.withDimensions dimensions).sameType (f.withDimensions dimensions) = true := by
  cases e with
  | declared s as =>
    cases f with
    | declared t bs =>
      rw [ClassElement.sameType, Bool.and_eq_true, Bool.and_eq_true] at h
      show (ClassElement.declared { s with dimensions } as).sameType
        (.declared { t with dimensions } bs) = true
      rw [ClassElement.sameType, ClassShape.sameType_withDimensions h.1.1, h.1.2, h.2]
      rfl
    | placeholder t bs w ds => cases h
  | placeholder s as v cs =>
    cases f with
    | declared t bs => cases h
    | placeholder t bs w ds =>
      rw [ClassElement.sameType, Bool.and_eq_true, Bool.and_eq_true, Bool.and_eq_true] at h
      show (ClassElement.placeholder { s with dimensions } as v cs).sameType
        (.placeholder { t with dimensions } bs w ds) = true
      rw [ClassElement.sameType, ClassShape.sameType_withDimensions h.1.1.1, h.1.1.2, h.1.2, h.2]
      rfl

end BeanProcessing
