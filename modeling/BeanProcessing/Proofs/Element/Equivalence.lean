import BeanProcessing.Element.Member
import BeanProcessing.Proofs.Element.Equality
import Mathlib.Data.List.Forall2
import Mathlib.Data.List.Perm.Subperm

/-!
# Equality of elements as an equivalence

Arguments are compared as maps: as many names on both sides, and every name of the one bound in the
other to the same type. That is said from one side only. Where no name is repeated it holds from
both sides, since the names of the one are then all the names of the other, and the two are the
`SameMap`. So `==` is an equivalence relation on class elements, on placeholders by themselves, and
on the members that are built of class elements.

`Rearranged` elements differ in the order of bindings and in annotations, anywhere in them. They are
equal, so `==` does not tell the one from the other.

* `TypeArguments.sameMap_iff` counts names, and `ClassElement.sameType_iff` reads `==` with it.
* `Comparison` has what is proved of `==` by induction, for class elements first. Placeholders are
  compared as class elements and members part by part; each way to combine comparisons is a lemma.
* `SoundEquality` is what comes of it for every sort of element.
-/

namespace BeanProcessing

/-! ## Arguments as maps -/

namespace TypeArguments

variable {as bs cs : TypeArguments} {name : String} {e : ClassElement}

theorem length_names (bindings : TypeArguments) : bindings.names.length = bindings.size := by
  induction bindings with
  | nil => rfl
  | cons name e rest ih => rw [names, size, List.length_cons, ih]

theorem uniqueNames_iff : as.UniqueNames ↔
    as.names.Nodup ∧ ∀ entry ∈ as.toList, entry.2.UniqueNames := by
  induction as with
  | nil => exact iff_of_true trivial ⟨List.nodup_nil, fun _ h => absurd h List.not_mem_nil⟩
  | cons name e rest ih =>
    rw [UniqueNames, ih, names, List.nodup_cons, toList, List.forall_mem_cons]
    exact ⟨fun ⟨hname, he, hrest, hparts⟩ => ⟨⟨hname, hrest⟩, he, hparts⟩,
      fun ⟨⟨hname, hrest⟩, he, hparts⟩ => ⟨hname, he, hrest, hparts⟩⟩

theorem UniqueNames.of_get? (h : as.UniqueNames) (he : as.get? name = some e) : e.UniqueNames :=
  (uniqueNames_iff.1 h).2 _ (mem_toList_of_get? he)

theorem boundAlikeIn_iff : as.boundAlikeIn bs = true ↔
    ∀ entry ∈ as.toList, ∃ f, bs.get? entry.1 = some f ∧ entry.2.sameType f = true := by
  induction as with
  | nil => exact iff_of_true rfl fun _ hentry => absurd hentry List.not_mem_nil
  | cons name e rest ih =>
    rw [boundAlikeIn, Bool.and_eq_true, ih, toList, List.forall_mem_cons]
    refine and_congr_left fun _ => ?_
    cases bs.get? name with
    | none => simp
    | some f => simp

/-- Whether two substitutions bind the same names, and each name to one type. -/
structure SameMap (as bs : TypeArguments) : Prop where
  mem_names_iff : ∀ name, name ∈ as.names ↔ name ∈ bs.names
  same : ∀ name e f, as.get? name = some e → bs.get? name = some f → e.sameType f = true

/-- As many names on both sides, and those of the one bound in the other: since no name is repeated,
there is no other name then. -/
theorem sameMap_iff (has : as.names.Nodup) (hbs : bs.names.Nodup) :
    as.SameMap bs ↔ as.size = bs.size ∧ as.boundAlikeIn bs = true := by
  constructor
  · intro h
    have hperm : as.names.Perm bs.names := (List.perm_ext_iff_of_nodup has hbs).2 h.mem_names_iff
    refine ⟨?_, boundAlikeIn_iff.2 fun entry hentry => ?_⟩
    · rw [← length_names, ← length_names]
      exact hperm.length_eq
    · have hname : entry.1 ∈ bs.names :=
        (h.mem_names_iff entry.1).1 (mem_names_of_mem_toList hentry)
      obtain ⟨f, hf⟩ := exists_get?_of_mem_names hname
      exact ⟨f, hf, h.same entry.1 entry.2 f (get?_of_mem_toList has hentry) hf⟩
  · rintro ⟨hsize, hbound⟩
    rw [boundAlikeIn_iff] at hbound
    have hsubset : as.names ⊆ bs.names := by
      intro name hname
      obtain ⟨e, he⟩ := exists_get?_of_mem_names hname
      obtain ⟨f, hf, -⟩ := hbound (name, e) (mem_toList_of_get? he)
      exact mem_names_of_get? hf
    have hlength : bs.names.length ≤ as.names.length := by
      rw [length_names, length_names]
      exact Nat.le_of_eq hsize.symm
    have hperm : as.names.Perm bs.names := (has.subperm hsubset).perm_of_length_le hlength
    refine ⟨fun _ => hperm.mem_iff, fun name e f he hf => ?_⟩
    obtain ⟨f', hf', hsame⟩ := hbound (name, e) (mem_toList_of_get? he)
    obtain rfl := Option.some.inj (hf.symm.trans hf')
    exact hsame

/-- Whatever is bound in the first and the third is bound in the second, between them. -/
theorem SameMap.trans (h : as.SameMap bs) (h' : bs.SameMap cs)
    (htrans : ∀ name x y z, as.get? name = some x → bs.get? name = some y → cs.get? name = some z →
      x.sameType y = true → y.sameType z = true → x.sameType z = true) : as.SameMap cs where
  mem_names_iff name := (h.mem_names_iff name).trans (h'.mem_names_iff name)
  same name x z hx hz := by
    have hname : name ∈ bs.names := (h.mem_names_iff name).1 (mem_names_of_get? hx)
    obtain ⟨y, hy⟩ := exists_get?_of_mem_names hname
    exact htrans name x y z hx hy hz (h.same name x y hx hy) (h'.same name y z hy hz)

end TypeArguments

/-! ## Class elements -/

theorem ClassElement.UniqueNames.arguments {e : ClassElement} (h : e.UniqueNames) :
    e.arguments.UniqueNames := by
  cases e <;> exact h

mutual

/-- Induction over elements from their arguments. -/
@[elab_as_elim]
theorem ClassElement.inductionOnArguments {motive : ClassElement → Prop}
    (step : ∀ e, (∀ name f, e.arguments.get? name = some f → motive f) → motive e) :
    ∀ e, motive e
  | .declared _ as => step _ fun _ _ hf =>
    TypeArguments.of_step step as _ (TypeArguments.mem_toList_of_get? hf)
  | .placeholder _ as _ _ => step _ fun _ _ hf =>
    TypeArguments.of_step step as _ (TypeArguments.mem_toList_of_get? hf)

theorem TypeArguments.of_step {motive : ClassElement → Prop}
    (step : ∀ e, (∀ name f, e.arguments.get? name = some f → motive f) → motive e) :
    ∀ (as : TypeArguments), ∀ entry ∈ as.toList, motive entry.2
  | .nil => fun _ hentry => absurd hentry List.not_mem_nil
  | .cons _ e rest => List.forall_mem_cons.2
    ⟨ClassElement.inductionOnArguments step e, TypeArguments.of_step step rest⟩

end

/-- Two class elements are of one type exactly if their shapes agree but for annotations, both or
neither are placeholders, of variables with one name, and their arguments are the same map. -/
theorem ClassElement.sameType_iff {e f : ClassElement} (he : e.UniqueNames) (hf : f.UniqueNames) :
    e.sameType f = true ↔ e.shape.sameType f.shape = true ∧
      e.typeVariable?.map (·.name) = f.typeVariable?.map (·.name) ∧
      e.arguments.SameMap f.arguments := by
  rw [TypeArguments.sameMap_iff he.arguments.nodup hf.arguments.nodup]
  cases e with
  | declared s as =>
    cases f with
    | declared t bs => simp [sameType, shape, arguments, typeVariable?, and_assoc]
    | placeholder t bs w ds => simp [sameType, typeVariable?]
  | placeholder s as v cs =>
    cases f with
    | declared t bs => simp [sameType, typeVariable?]
    | placeholder t bs w ds =>
      simp only [sameType, shape, arguments, typeVariable?, Bool.and_eq_true, beq_iff_eq,
        Option.map_some, Option.some.injEq]
      constructor
      · rintro ⟨⟨⟨hshape, hsize⟩, hbound⟩, hname⟩
        exact ⟨hshape, hname, hsize, hbound⟩
      · rintro ⟨hshape, hname, hsize, hbound⟩
        exact ⟨⟨⟨hshape, hsize⟩, hbound⟩, hname⟩

theorem ClassShape.sameType_symm {s t : ClassShape} (h : s.sameType t = true) :
    t.sameType s = true :=
  decide_eq_true (of_decide_eq_true h).symm

theorem ClassShape.sameType_trans {s t u : ClassShape} (h : s.sameType t = true)
    (h' : t.sameType u = true) : s.sameType u = true :=
  decide_eq_true ((of_decide_eq_true h).trans (of_decide_eq_true h'))

theorem ClassElement.sameType_symm {e f : ClassElement} (he : e.UniqueNames) (hf : f.UniqueNames)
    (h : e.sameType f = true) : f.sameType e = true := by
  induction e using ClassElement.inductionOnArguments generalizing f with
  | step e ih =>
    obtain ⟨hshape, hvariable, hmap⟩ := (ClassElement.sameType_iff he hf).1 h
    refine (ClassElement.sameType_iff hf he).2
      ⟨ClassShape.sameType_symm hshape, hvariable.symm, ?_, ?_⟩
    · exact fun name => (hmap.mem_names_iff name).symm
    · intro name y x hy hx
      exact ih name x hx (he.arguments.of_get? hx) (hf.arguments.of_get? hy)
        (hmap.same name x y hx hy)

theorem ClassElement.sameType_trans {e f g : ClassElement} (he : e.UniqueNames)
    (hf : f.UniqueNames) (hg : g.UniqueNames) (hef : e.sameType f = true)
    (hfg : f.sameType g = true) : e.sameType g = true := by
  induction e using ClassElement.inductionOnArguments generalizing f g with
  | step e ih =>
    obtain ⟨hshape, hvariable, hmap⟩ := (ClassElement.sameType_iff he hf).1 hef
    obtain ⟨hshape', hvariable', hmap'⟩ := (ClassElement.sameType_iff hf hg).1 hfg
    have hmaps : e.arguments.SameMap g.arguments := hmap.trans hmap' fun name x y z hx hy hz =>
      ih name x hx (he.arguments.of_get? hx) (hf.arguments.of_get? hy) (hg.arguments.of_get? hz)
    exact (ClassElement.sameType_iff he hg).2
      ⟨ClassShape.sameType_trans hshape hshape', hvariable.trans hvariable', hmaps⟩

/-! ## Other orders and other annotations -/

mutual

/-- Whether a class element comes from another by other annotations and other orders of bindings, of
itself and of the elements in it. -/
inductive ClassElement.Rearranged : ClassElement → ClassElement → Prop
  | declared (shape : ClassShape) (annotations : AnnotationSet) {as bs : TypeArguments}
    (h : as.Rearranged bs) :
    ClassElement.Rearranged (.declared shape as) (.declared { shape with annotations } bs)
  | placeholder (shape : ClassShape) (annotations : AnnotationSet) (v : TypeVariable)
    {as bs captured captured' : TypeArguments} (h : as.Rearranged bs)
    (hcaptured : captured.Rearranged captured') :
    ClassElement.Rearranged (.placeholder shape as v captured)
      (.placeholder { shape with annotations } bs v captured')

/-- Whether bindings come from others by another order, and by rearranging the elements. -/
inductive TypeArguments.Rearranged : TypeArguments → TypeArguments → Prop
  | cons (name : String) {e f : ClassElement} {as bs : TypeArguments} (he : e.Rearranged f)
    (h : as.Rearranged bs) : TypeArguments.Rearranged (.cons name e as) (.cons name f bs)
  | perm {as bs : TypeArguments} (h : as.toList.Perm bs.toList) : TypeArguments.Rearranged as bs
  | trans {as bs cs : TypeArguments} (h : as.Rearranged bs) (h' : bs.Rearranged cs) :
    TypeArguments.Rearranged as cs

end

theorem ClassElement.Rearranged.refl (e : ClassElement) : e.Rearranged e := by
  cases e with
  | declared shape as => exact .declared shape shape.annotations (.perm (List.Perm.refl _))
  | placeholder shape as v captured =>
    exact .placeholder shape shape.annotations v (.perm (List.Perm.refl _))
      (.perm (List.Perm.refl _))

theorem ClassElement.Rearranged.withAnnotations (e : ClassElement) (annotations : AnnotationSet) :
    e.Rearranged (e.withAnnotations annotations) := by
  cases e with
  | declared shape as => exact .declared shape annotations (.perm (List.Perm.refl _))
  | placeholder shape as v captured =>
    exact .placeholder shape annotations v (.perm (List.Perm.refl _)) (.perm (List.Perm.refl _))

namespace TypeArguments

variable {as bs cs : TypeArguments}

/-- Where every name is bound to one and the same element, that element is of its own type. -/
theorem sameMap_of_get?_eq (has : as.UniqueNames) (h : ∀ name, as.get? name = bs.get? name) :
    as.SameMap bs where
  mem_names_iff name := by
    constructor
    · intro hname
      obtain ⟨e, he⟩ := exists_get?_of_mem_names hname
      exact mem_names_of_get? ((h name).symm.trans he)
    · intro hname
      obtain ⟨f, hf⟩ := exists_get?_of_mem_names hname
      exact mem_names_of_get? ((h name).trans hf)
  same name e f he hf := by
    obtain rfl : e = f := Option.some.inj (he.symm.trans ((h name).trans hf))
    exact e.sameType_refl (has.of_get? he)

theorem SameMap.cons {name : String} {e f : ClassElement} (h : as.SameMap bs)
    (hsame : e.sameType f = true) : (TypeArguments.cons name e as).SameMap (.cons name f bs) where
  mem_names_iff name' := by
    simp only [names, List.mem_cons, h.mem_names_iff name']
  same name' x y hx hy := by
    unfold get? at hx hy
    by_cases hname : name = name'
    · rw [if_pos hname, Option.some.injEq] at hx hy
      rw [← hx, ← hy]
      exact hsame
    · rw [if_neg hname] at hx hy
      exact h.same name' x y hx hy

theorem names_eq_map_toList (bindings : TypeArguments) :
    bindings.names = bindings.toList.map Prod.fst := by
  induction bindings with
  | nil => rfl
  | cons name e rest ih => rw [names, toList, List.map_cons, ih]

theorem UniqueNames.of_perm (h : as.UniqueNames) (hperm : as.toList.Perm bs.toList) :
    bs.UniqueNames := by
  obtain ⟨hnames, hparts⟩ := uniqueNames_iff.1 h
  refine uniqueNames_iff.2 ⟨?_, fun entry hentry => hparts entry (hperm.mem_iff.2 hentry)⟩
  rw [names_eq_map_toList] at hnames ⊢
  exact (hperm.map Prod.fst).nodup_iff.1 hnames

/-- In another order every name is bound to what it was. -/
theorem get?_eq_of_perm (h : as.UniqueNames) (hperm : as.toList.Perm bs.toList) (name : String) :
    as.get? name = bs.get? name := by
  have hbs : bs.UniqueNames := h.of_perm hperm
  apply Option.ext
  intro e
  constructor
  · intro he
    exact get?_of_mem_toList hbs.nodup (hperm.mem_iff.1 (mem_toList_of_get? he))
  · intro he
    exact get?_of_mem_toList h.nodup (hperm.mem_iff.2 (mem_toList_of_get? he))

end TypeArguments

mutual

/-- By induction on how the one was rearranged into the other. -/
theorem ClassElement.Rearranged.sameType : ∀ {e f : ClassElement}, e.Rearranged f →
    e.UniqueNames → f.UniqueNames ∧ e.sameType f = true
  | _, _, @ClassElement.Rearranged.declared shape annotations _ bs h => fun he => by
    obtain ⟨hunique, hmap⟩ := TypeArguments.Rearranged.sameMap h he
    have hf : (ClassElement.declared { shape with annotations } bs).UniqueNames := hunique
    refine ⟨hf, (ClassElement.sameType_iff he hf).2 ⟨?_, rfl, hmap⟩⟩
    exact shape.sameType_refl
  | _, _, @ClassElement.Rearranged.placeholder shape annotations v _ bs _ captured h _ =>
    fun he => by
    obtain ⟨hunique, hmap⟩ := TypeArguments.Rearranged.sameMap h he
    have hf : (ClassElement.placeholder { shape with annotations } bs v captured).UniqueNames :=
      hunique
    refine ⟨hf, (ClassElement.sameType_iff he hf).2 ⟨?_, rfl, hmap⟩⟩
    exact shape.sameType_refl

theorem TypeArguments.Rearranged.sameMap : ∀ {as bs : TypeArguments}, as.Rearranged bs →
    as.UniqueNames → bs.UniqueNames ∧ as.SameMap bs
  | _, _, .cons name he h => fun ⟨hname, hunique, hrest⟩ => by
    obtain ⟨hunique', hsame⟩ := ClassElement.Rearranged.sameType he hunique
    obtain ⟨hrest', hmap⟩ := TypeArguments.Rearranged.sameMap h hrest
    have hname' : name ∉ _ := fun hmem => hname ((hmap.mem_names_iff name).2 hmem)
    exact ⟨⟨hname', hunique', hrest'⟩, hmap.cons hsame⟩
  | _, _, .perm h => fun has =>
    ⟨has.of_perm h, TypeArguments.sameMap_of_get?_eq has (TypeArguments.get?_eq_of_perm has h)⟩
  | _, _, .trans h h' => fun has => by
    obtain ⟨hbs, hmap⟩ := TypeArguments.Rearranged.sameMap h has
    obtain ⟨hcs, hmap'⟩ := TypeArguments.Rearranged.sameMap h' hbs
    refine ⟨hcs, hmap.trans hmap' fun name x y z hx hy hz => ?_⟩
    exact ClassElement.sameType_trans (has.of_get? hx) (hbs.of_get? hy) (hcs.of_get? hz)

end

/-! ## Comparisons -/

/-- A relation that is an equivalence among the valid ones of a type, where what is rearranged stays
valid and stays the same. -/
structure Comparison {α : Type} (S : α → α → Prop) (V : α → Prop) (R : α → α → Prop) : Prop where
  refl : ∀ a, V a → S a a
  symm : ∀ a b, V a → V b → S a b → S b a
  trans : ∀ a b c, V a → V b → V c → S a b → S b c → S a c
  valid : ∀ a b, V a → R a b → V b
  same : ∀ a b, V a → R a b → S a b

namespace Comparison

variable {α β : Type} {S S' R R' : α → α → Prop} {V V' : α → Prop}

/-- Rearranging either side does not change what is the same. -/
theorem same_iff (h : Comparison S V R) {a a' b b' : α} (ha : V a) (hb : V b) (haa' : R a a')
    (hbb' : R b b') : S a' b' ↔ S a b := by
  have ha' : V a' := h.valid a a' ha haa'
  have hb' : V b' := h.valid b b' hb hbb'
  have hsa : S a a' := h.same a a' ha haa'
  have hsb : S b b' := h.same b b' hb hbb'
  constructor
  · intro hab
    have hsame : S a b' := h.trans a a' b' ha ha' hb' hsa hab
    exact h.trans a b' b ha hb' hb hsame (h.symm b b' hb hb' hsb)
  · intro hab
    have hsame : S a' b := h.trans a' a b ha' ha hb (h.symm a a' ha ha' hsa) hab
    exact h.trans a' b b' ha' hb hb' hsame hsb

theorem congr (h : Comparison S V R) (hS : ∀ a b, S' a b ↔ S a b) : Comparison S' V R where
  refl a ha := (hS a a).2 (h.refl a ha)
  symm a b ha hb hab := (hS b a).2 (h.symm a b ha hb ((hS a b).1 hab))
  trans a b c ha hb hc hab hbc :=
    (hS a c).2 (h.trans a b c ha hb hc ((hS a b).1 hab) ((hS b c).1 hbc))
  valid := h.valid
  same a b ha hab := (hS a b).2 (h.same a b ha hab)

/-- Comparing a part. -/
theorem on (h : Comparison S V R) (part : β → α) :
    Comparison (fun a b => S (part a) (part b)) (fun a => V (part a))
      (fun a b => R (part a) (part b)) where
  refl a := h.refl (part a)
  symm a b := h.symm (part a) (part b)
  trans a b c := h.trans (part a) (part b) (part c)
  valid a b := h.valid (part a) (part b)
  same a b := h.same (part a) (part b)

/-- Comparing in two ways at once. -/
theorem and (h : Comparison S V R) (h' : Comparison S' V' R') :
    Comparison (fun a b => S a b ∧ S' a b) (fun a => V a ∧ V' a) (fun a b => R a b ∧ R' a b) where
  refl a ha := ⟨h.refl a ha.1, h'.refl a ha.2⟩
  symm a b ha hb hab := ⟨h.symm a b ha.1 hb.1 hab.1, h'.symm a b ha.2 hb.2 hab.2⟩
  trans a b c ha hb hc hab hbc :=
    ⟨h.trans a b c ha.1 hb.1 hc.1 hab.1 hbc.1, h'.trans a b c ha.2 hb.2 hc.2 hab.2 hbc.2⟩
  valid a b ha hab := ⟨h.valid a b ha.1 hab.1, h'.valid a b ha.2 hab.2⟩
  same a b ha hab := ⟨h.same a b ha.1 hab.1, h'.same a b ha.2 hab.2⟩

/-- Comparing a part that must be equal besides. -/
theorem keyed (h : Comparison S V R) (key : α → β) :
    Comparison (fun a b => key a = key b ∧ S a b) V (fun a b => key a = key b ∧ R a b) where
  refl a ha := ⟨rfl, h.refl a ha⟩
  symm a b ha hb hab := ⟨hab.1.symm, h.symm a b ha hb hab.2⟩
  trans a b c ha hb hc hab hbc := ⟨hab.1.trans hbc.1, h.trans a b c ha hb hc hab.2 hbc.2⟩
  valid a b ha hab := h.valid a b ha hab.2
  same a b ha hab := ⟨hab.1, h.same a b ha hab.2⟩

/-- Comparing lists place by place. -/
theorem forall₂ (h : Comparison S V R) :
    Comparison (List.Forall₂ S) (fun l => ∀ a ∈ l, V a) (List.Forall₂ R) where
  refl l hl := List.forall₂_same.2 fun a ha => h.refl a (hl a ha)
  symm l m hl hm hlm := by
    induction hlm with
    | nil => exact .nil
    | cons hab _ ih =>
      rw [List.forall_mem_cons] at hl hm
      exact .cons (h.symm _ _ hl.1 hm.1 hab) (ih hl.2 hm.2)
  trans l m k hl hm hk hlm hmk := by
    induction hlm generalizing k with
    | nil => exact hmk
    | cons hab _ ih =>
      cases hmk with
      | cons hbc hmk =>
        rw [List.forall_mem_cons] at hl hm hk
        exact .cons (h.trans _ _ _ hl.1 hm.1 hk.1 hab hbc) (ih _ hl.2 hm.2 hk.2 hmk)
  valid l m hl hlm := by
    induction hlm with
    | nil => exact hl
    | cons hab _ ih =>
      rw [List.forall_mem_cons] at hl ⊢
      exact ⟨h.valid _ _ hl.1 hab, ih hl.2⟩
  same l m hl hlm := by
    induction hlm with
    | nil => exact .nil
    | cons hab _ ih =>
      rw [List.forall_mem_cons] at hl
      exact .cons (h.same _ _ hl.1 hab) (ih hl.2)

end Comparison

/-! ## Class elements and placeholders, compared -/

theorem ClassElement.comparison :
    Comparison (fun e f : ClassElement => (e == f) = true) ClassElement.UniqueNames
      ClassElement.Rearranged where
  refl e he := e.sameType_refl he
  symm _ _ he hf h := ClassElement.sameType_symm he hf h
  trans _ _ _ he hf hg hef hfg := ClassElement.sameType_trans he hf hg hef hfg
  valid _ _ he h := (h.sameType he).1
  same _ _ he h := (h.sameType he).2

namespace PlaceholderElement

/-- Whether no name is repeated in the arguments of a placeholder. -/
def UniqueNames (p : PlaceholderElement) : Prop := p.asClass.UniqueNames

/-- Whether a placeholder comes from another by other annotations and other orders of bindings, in
its arguments and in what it has captured. -/
def Rearranged (p q : PlaceholderElement) : Prop := p.asClass.Rearranged q.asClass

theorem comparison :
    Comparison (fun p q : PlaceholderElement => (p == q) = true) UniqueNames Rearranged :=
  ClassElement.comparison.on asClass

end PlaceholderElement

/-! ## Members -/

namespace ParameterElement

/-- Whether no name is repeated in the types of a parameter. -/
def UniqueNames (p : ParameterElement) : Prop := p.type.UniqueNames ∧ p.genericType.UniqueNames

/-- Whether a parameter comes from another by rearranging its types, and by other annotations. -/
def Rearranged (p q : ParameterElement) : Prop :=
  p.symbol = q.symbol ∧ p.name = q.name ∧
    p.type.Rearranged q.type ∧ p.genericType.Rearranged q.genericType

theorem beq_iff (p q : ParameterElement) : (p == q) = true ↔
    p.symbol = q.symbol ∧ p.name = q.name ∧
      (p.type == q.type) = true ∧ (p.genericType == q.genericType) = true := by
  show p.same q = true ↔ _
  simp only [same, Bool.and_eq_true, beq_iff_eq, and_assoc]

theorem comparison :
    Comparison (fun p q : ParameterElement => (p == q) = true) UniqueNames Rearranged := by
  have htypes := (ClassElement.comparison.on type).and (ClassElement.comparison.on genericType)
  exact ((htypes.keyed name).keyed symbol).congr beq_iff

end ParameterElement

namespace MethodElement

/-- Whether no name is repeated in the types of a method and of its parameters. -/
def UniqueNames (m : MethodElement) : Prop :=
  m.declaringType.UniqueNames ∧ m.returnType.UniqueNames ∧ m.genericReturnType.UniqueNames ∧
    ∀ p ∈ m.parameters, p.UniqueNames

/-- Whether a method comes from another by rearranging its types and its parameters' types, and by
other annotations and modifiers. -/
def Rearranged (m n : MethodElement) : Prop :=
  m.symbol = n.symbol ∧ m.name = n.name ∧ m.declaringType.Rearranged n.declaringType ∧
    m.returnType.Rearranged n.returnType ∧ m.genericReturnType.Rearranged n.genericReturnType ∧
    List.Forall₂ ParameterElement.Rearranged m.parameters n.parameters

theorem beq_parameters_iff (ps qs : List ParameterElement) :
    (ps == qs) = true ↔ List.Forall₂ (fun p q => (p == q) = true) ps qs := by
  induction ps generalizing qs with
  | nil => cases qs <;> simp
  | cons p ps ih => cases qs <;> simp [ih]

theorem beq_iff (m n : MethodElement) : (m == n) = true ↔
    m.symbol = n.symbol ∧ m.name = n.name ∧ (m.declaringType == n.declaringType) = true ∧
      (m.returnType == n.returnType) = true ∧
      (m.genericReturnType == n.genericReturnType) = true ∧
      List.Forall₂ (fun p q => (p == q) = true) m.parameters n.parameters := by
  show m.same n = true ↔ _
  simp only [same, Bool.and_eq_true, beq_iff_eq, beq_parameters_iff, and_assoc]

theorem comparison :
    Comparison (fun m n : MethodElement => (m == n) = true) UniqueNames Rearranged := by
  have hgeneric := ClassElement.comparison.on genericReturnType
  have hparts := hgeneric.and (ParameterElement.comparison.forall₂.on parameters)
  have htypes := (ClassElement.comparison.on returnType).and hparts
  exact ((((ClassElement.comparison.on declaringType).and htypes).keyed name).keyed symbol).congr
    beq_iff

end MethodElement

namespace ConstructorElement

/-- Whether no name is repeated in the types of a constructor. -/
def UniqueNames (c : ConstructorElement) : Prop := c.asMethod.UniqueNames

/-- Whether a constructor comes from another by rearranging its types. -/
def Rearranged (c d : ConstructorElement) : Prop := c.asMethod.Rearranged d.asMethod

theorem comparison :
    Comparison (fun c d : ConstructorElement => (c == d) = true) UniqueNames Rearranged :=
  MethodElement.comparison.on asMethod

end ConstructorElement

/-! ## Elements of any sort -/

namespace Element

/-- Whether no name is repeated in the types of an element. -/
def UniqueNames : Element → Prop
  | ofClass e => e.UniqueNames
  | ofMethod m => m.UniqueNames
  | ofConstructor c => c.UniqueNames
  | ofParameter p => p.UniqueNames
  | ofPlaceholder p => p.UniqueNames

/-- Whether two elements are of one sort and in the relation for it. -/
inductive Sortwise (C : ClassElement → ClassElement → Prop)
    (M : MethodElement → MethodElement → Prop)
    (K : ConstructorElement → ConstructorElement → Prop)
    (P : ParameterElement → ParameterElement → Prop)
    (V : PlaceholderElement → PlaceholderElement → Prop) : Element → Element → Prop
  | ofClass {e f : ClassElement} (h : C e f) : Sortwise C M K P V (.ofClass e) (.ofClass f)
  | ofMethod {m n : MethodElement} (h : M m n) : Sortwise C M K P V (.ofMethod m) (.ofMethod n)
  | ofConstructor {c d : ConstructorElement} (h : K c d) :
    Sortwise C M K P V (.ofConstructor c) (.ofConstructor d)
  | ofParameter {p q : ParameterElement} (h : P p q) :
    Sortwise C M K P V (.ofParameter p) (.ofParameter q)
  | ofPlaceholder {p q : PlaceholderElement} (h : V p q) :
    Sortwise C M K P V (.ofPlaceholder p) (.ofPlaceholder q)

/-- Whether an element comes from another of its sort by rearranging its types. -/
def Rearranged : Element → Element → Prop :=
  Sortwise ClassElement.Rearranged MethodElement.Rearranged ConstructorElement.Rearranged
    ParameterElement.Rearranged PlaceholderElement.Rearranged

theorem beq_iff (a b : Element) : (a == b) = true ↔
    Sortwise (fun e f => (e == f) = true) (fun m n => (m == n) = true)
      (fun c d => (c == d) = true) (fun p q => (p == q) = true) (fun p q => (p == q) = true)
      a b := by
  constructor
  · intro h
    cases a <;> cases b <;> first | exact absurd h Bool.false_ne_true | constructor
    all_goals exact h
  · intro h
    cases h <;> assumption

theorem comparison :
    Comparison (fun a b : Element => (a == b) = true) UniqueNames Rearranged := by
  have hC := ClassElement.comparison
  have hM := MethodElement.comparison
  have hK := ConstructorElement.comparison
  have hP := ParameterElement.comparison
  have hV := PlaceholderElement.comparison
  refine Comparison.congr ?_ beq_iff
  constructor
  case refl =>
    intro a ha
    cases a with
    | ofClass e => exact .ofClass (hC.refl e ha)
    | ofMethod m => exact .ofMethod (hM.refl m ha)
    | ofConstructor c => exact .ofConstructor (hK.refl c ha)
    | ofParameter p => exact .ofParameter (hP.refl p ha)
    | ofPlaceholder p => exact .ofPlaceholder (hV.refl p ha)
  case symm =>
    intro a b ha hb hab
    cases hab with
    | ofClass h => exact .ofClass (hC.symm _ _ ha hb h)
    | ofMethod h => exact .ofMethod (hM.symm _ _ ha hb h)
    | ofConstructor h => exact .ofConstructor (hK.symm _ _ ha hb h)
    | ofParameter h => exact .ofParameter (hP.symm _ _ ha hb h)
    | ofPlaceholder h => exact .ofPlaceholder (hV.symm _ _ ha hb h)
  case trans =>
    -- the element between the two has the sort of both
    intro a b c ha hb hc hab hbc
    cases hab with
    | ofClass h => cases hbc with | ofClass h' => exact .ofClass (hC.trans _ _ _ ha hb hc h h')
    | ofMethod h => cases hbc with | ofMethod h' => exact .ofMethod (hM.trans _ _ _ ha hb hc h h')
    | ofConstructor h =>
      cases hbc with
      | ofConstructor h' => exact .ofConstructor (hK.trans _ _ _ ha hb hc h h')
    | ofParameter h =>
      cases hbc with
      | ofParameter h' => exact .ofParameter (hP.trans _ _ _ ha hb hc h h')
    | ofPlaceholder h =>
      cases hbc with
      | ofPlaceholder h' => exact .ofPlaceholder (hV.trans _ _ _ ha hb hc h h')
  case valid =>
    intro a b ha hab
    cases hab with
    | ofClass h => exact hC.valid _ _ ha h
    | ofMethod h => exact hM.valid _ _ ha h
    | ofConstructor h => exact hK.valid _ _ ha h
    | ofParameter h => exact hP.valid _ _ ha h
    | ofPlaceholder h => exact hV.valid _ _ ha h
  case same =>
    intro a b ha hab
    cases hab with
    | ofClass h => exact .ofClass (hC.same _ _ ha h)
    | ofMethod h => exact .ofMethod (hM.same _ _ ha h)
    | ofConstructor h => exact .ofConstructor (hK.same _ _ ha h)
    | ofParameter h => exact .ofParameter (hP.same _ _ ha h)
    | ofPlaceholder h => exact .ofPlaceholder (hV.same _ _ ha h)

end Element

/-- A declared class is never the type of a placeholder, so that giving placeholders their own sort
does not change which class elements are the same. -/
theorem ClassElement.beq_toElement (e f : ClassElement) :
    (e.toElement == f.toElement) = (e == f) := by
  cases e with
  | declared s as =>
    cases f with
    | declared t bs => rfl
    | placeholder t bs w ds => rfl
  | placeholder s as v cs =>
    cases f with
    | declared t bs => rfl
    | placeholder t bs w ds => rfl

/-! ## Sound equality -/

/-- What `==` should be on elements of a sort: an equivalence relation among those in which no name
is repeated, and the same whichever way they are arranged. -/
structure SoundEquality {α : Type} [BEq α] (V : α → Prop) (R : α → α → Prop) : Prop where
  equivalence : Equivalence fun a b : { a : α // V a } => (a.1 == b.1) = true
  valid : ∀ a b, V a → R a b → V b
  beq_of_rearranged : ∀ a b, V a → R a b → (a == b) = true
  beq_congr : ∀ a a' b b', V a → V b → R a a' → R b b' → (a' == b') = (a == b)

theorem Comparison.soundEquality {α : Type} [BEq α] {V : α → Prop} {R : α → α → Prop}
    (h : Comparison (fun a b : α => (a == b) = true) V R) : SoundEquality V R where
  equivalence := by
    constructor
    · intro a
      exact h.refl a.1 a.2
    · intro a b hab
      exact h.symm a.1 b.1 a.2 b.2 hab
    · intro a b c hab hbc
      exact h.trans a.1 b.1 c.1 a.2 b.2 c.2 hab hbc
  valid := h.valid
  beq_of_rearranged := h.same
  beq_congr _ _ _ _ ha hb haa' hbb' := Bool.eq_iff_iff.2 (h.same_iff ha hb haa' hbb')

/-- Equality of elements, of every sort, is an equivalence relation that neither the order of
bindings nor annotations matter to. Class elements are equal exactly if they are equal as elements
of any sort, and what is equal is equal in any number of dimensions. -/
theorem soundEquality_elements :
    SoundEquality ClassElement.UniqueNames ClassElement.Rearranged ∧
      SoundEquality PlaceholderElement.UniqueNames PlaceholderElement.Rearranged ∧
      SoundEquality ParameterElement.UniqueNames ParameterElement.Rearranged ∧
      SoundEquality MethodElement.UniqueNames MethodElement.Rearranged ∧
      SoundEquality ConstructorElement.UniqueNames ConstructorElement.Rearranged ∧
      SoundEquality Element.UniqueNames Element.Rearranged ∧
      (∀ e f : ClassElement, (e.toElement == f.toElement) = (e == f)) ∧
      (∀ (e f : ClassElement) (n : Nat), (e == f) = true →
        (e.withDimensions n == f.withDimensions n) = true) ∧
      ∀ (p q : PlaceholderElement) (n : Nat), (p == q) = true →
        (p.withDimensions n == q.withDimensions n) = true := by
  have hdimensions : ∀ (e f : ClassElement) (n : Nat), (e == f) = true →
      (e.withDimensions n == f.withDimensions n) = true := by
    intro e f n h
    exact ClassElement.sameType_withDimensions h n
  refine ⟨ClassElement.comparison.soundEquality, PlaceholderElement.comparison.soundEquality,
    ParameterElement.comparison.soundEquality, MethodElement.comparison.soundEquality,
    ConstructorElement.comparison.soundEquality, Element.comparison.soundEquality,
    ClassElement.beq_toElement, hdimensions, ?_⟩
  intro p q n h
  show ((p.withDimensions n).asClass == (q.withDimensions n).asClass) = true
  rw [PlaceholderElement.asClass_withDimensions, PlaceholderElement.asClass_withDimensions]
  exact hdimensions p.asClass q.asClass n h

/-- A class without type parameters. -/
def plainClass (name : String) (annotations : AnnotationSet) : ClassElement :=
  .declared { symbol := .ofClass name, name, annotations } .nil

/-- The type of pairs of two types. -/
def pairOf (x y : ClassElement) : ClassElement :=
  .declared { symbol := .ofClass "Pair", name := "Pair" } (.cons "A" x (.cons "B" y .nil))

/-- The type of pairs of two types, with the second bound first. -/
def swappedPairOf (x y : ClassElement) : ClassElement :=
  .declared { symbol := .ofClass "Pair", name := "Pair" } (.cons "B" y (.cons "A" x .nil))

/-- The placeholder of a type variable that was met under the arguments of a class, with these put
in as its own. -/
def placeholderIn (e : ClassElement) (annotations : AnnotationSet) : PlaceholderElement where
  shape := { symbol := .ofTypeParameter "Box<T>", name := "Text", annotations }
  arguments := e.arguments
  typeVariable := { name := "T", bounds := [] }
  captured := e.arguments

theorem uniqueNames_pairOf {x y : ClassElement} (hx : x.UniqueNames) (hy : y.UniqueNames) :
    (pairOf x y).UniqueNames :=
  ⟨by simp [TypeArguments.names], hx, List.not_mem_nil, hy, trivial⟩

theorem rearranged_arguments_swappedPairOf {x x' y y' : ClassElement} (hx : x.Rearranged x')
    (hy : y.Rearranged y') : (pairOf x y).arguments.Rearranged (swappedPairOf x' y').arguments := by
  have hparts : TypeArguments.Rearranged (.cons "A" x (.cons "B" y .nil))
      (.cons "A" x' (.cons "B" y' .nil)) :=
    .cons "A" hx (.cons "B" hy (.perm (List.Perm.refl [])))
  have hswap : TypeArguments.Rearranged (.cons "A" x' (.cons "B" y' .nil))
      (.cons "B" y' (.cons "A" x' .nil)) := .perm (List.Perm.swap ("B", y') ("A", x') [])
  exact .trans hparts hswap

/-- A pair of pairs, with the pairs written the other way round and one class annotated, is still
the same type and no other, in any number of dimensions. So is a placeholder with these pairs for
arguments, among elements of any sort, and it is not the class element that it is a view of. -/
theorem soundEquality_elements_pairOf :
    let text := plainClass "Text" ∅
    let number := plainClass "Number" ∅
    let named := AnnotationSet.empty.declare "Named"
    let marked := plainClass "Text" named
    let pairs := pairOf (pairOf text number) number
    let swapped := swappedPairOf (swappedPairOf marked number) number
    let p := placeholderIn pairs ∅
    let q := placeholderIn swapped named
    (pairs == swapped) = true ∧ (pairs.withDimensions 2 == swapped.withDimensions 2) = true ∧
      (swapped == pairOf number number) = false ∧
      (Element.ofPlaceholder p == .ofPlaceholder q) = true ∧
      (Element.ofPlaceholder q == .ofClass swapped) = false ∧
      (Element.ofPlaceholder q == .ofClass p.asClass) = false ∧
      p.asClass.toElement = .ofPlaceholder p ∧
      (p.withDimensions 2 == q.withDimensions 2) = true := by
  intro text number named marked pairs swapped p q
  obtain ⟨hclasses, hplaceholders, -, -, -, helements, -, hdimensions, hdimensions'⟩ :=
    soundEquality_elements
  have hmarked : text.Rearranged marked := .withAnnotations text named
  have hinner : (pairOf text number).Rearranged (swappedPairOf marked number) :=
    .declared _ ∅ (rearranged_arguments_swappedPairOf hmarked (.refl number))
  have harguments : pairs.arguments.Rearranged swapped.arguments :=
    rearranged_arguments_swappedPairOf hinner (.refl number)
  have hpairs : pairs.Rearranged swapped := .declared _ ∅ harguments
  have hunique : pairs.UniqueNames :=
    uniqueNames_pairOf (uniqueNames_pairOf trivial trivial) trivial
  have hother : (pairOf number number).UniqueNames := uniqueNames_pairOf trivial trivial
  have hsame : (pairs == swapped) = true := hclasses.beq_of_rearranged _ _ hunique hpairs
  have hpq : p.Rearranged q := .placeholder _ named _ harguments harguments
  have hp : Element.UniqueNames (.ofPlaceholder p) := hunique.arguments
  have hplaceholder : Element.Rearranged (.ofPlaceholder p) (.ofPlaceholder q) :=
    .ofPlaceholder hpq
  refine ⟨hsame, hdimensions pairs swapped 2 hsame, ?_,
    helements.beq_of_rearranged _ _ hp hplaceholder, ?_, ?_, rfl, ?_⟩
  · rw [hclasses.beq_congr _ _ _ _ hunique hother hpairs (.refl _)]
    decide
  · rw [helements.beq_congr _ (.ofPlaceholder q) (.ofClass pairs) _ hp hunique hplaceholder
      (.ofClass hpairs)]
    rfl
  · rw [helements.beq_congr _ (.ofPlaceholder q) (.ofClass p.asClass) _ hp hp hplaceholder
      (.ofClass (.refl _))]
    rfl
  · exact hdimensions' p q 2 (hplaceholders.beq_of_rearranged _ _ hp hpq)

end BeanProcessing
