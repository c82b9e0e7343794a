import BeanProcessing.Proofs.Element.Equivalence
import BeanProcessing.Proofs.Resolver.PlaceholderNames

/-!
# Signatures of equal elements

Equality compares type arguments as maps, and a signature shows them in order. Elements that a
resolver makes are `Ordered`: the names that a class is bound under, and their order, depend on
nothing but the symbol of the class. So ordered elements that are equal have one signature.

Elements are only ordered as long as nobody puts other arguments in them. In a `Consultation` what is
passed on was returned before, or it is a part of that, in any number of dimensions.
-/

namespace BeanProcessing

open Resolver

variable {g : SymbolGraph}

/-! ## Ordered elements -/

mutual

/-- Whether every class in an element has no arguments or binds its type parameters, in order, and
every placeholder has no arguments. -/
def ClassElement.Ordered (g : SymbolGraph) : ClassElement → Prop
  | .declared shape arguments =>
    (arguments.names = [] ∨ ∃ d, g.classDeclaration? shape.symbol = some d ∧
      arguments.names = parameterNames g d.typeParameters) ∧ arguments.Ordered g
  | .placeholder _ arguments _ captured => arguments = ∅ ∧ captured.Ordered g

/-- Whether every element in a substitution is ordered. -/
def TypeArguments.Ordered (g : SymbolGraph) : TypeArguments → Prop
  | .nil => True
  | .cons _ element rest => element.Ordered g ∧ rest.Ordered g

end

theorem TypeArguments.ordered_iff {bindings : TypeArguments} :
    bindings.Ordered g ↔ bindings.Each (fun _ => True) (ClassElement.Ordered g) := by
  induction bindings with
  | nil => exact iff_of_true trivial TypeArguments.each_empty
  | cons name e rest ih => rw [TypeArguments.Ordered, TypeArguments.each_cons, ih, true_and]

namespace ClassElement.Ordered

variable {s t : ClassShape} {as bs : TypeArguments}

theorem nodup_names (h : (declared s as).Ordered g) : as.names.Nodup := by
  obtain hnone | ⟨d, -, hnames⟩ := h.1
  · rw [hnone]
    exact List.nodup_nil
  · rw [hnames]
    exact nodup_parameterNames g d.typeParameters

/-- Elements of one class with as many arguments have them under the same names in the same
order. -/
theorem names_eq (h : (declared s as).Ordered g) (h' : (declared t bs).Ordered g)
    (hsymbol : s.symbol = t.symbol) (hsize : as.size = bs.size) : as.names = bs.names := by
  have hlength : as.names.length = bs.names.length := by
    rw [TypeArguments.length_names, TypeArguments.length_names, hsize]
  obtain hnone | ⟨d, hd, hnames⟩ := h.1
  · rw [hnone, List.length_nil] at hlength
    rw [hnone, List.eq_nil_of_length_eq_zero hlength.symm]
  · obtain hnone' | ⟨d', hd', hnames'⟩ := h'.1
    · rw [hnone', List.length_nil] at hlength
      rw [hnone', List.eq_nil_of_length_eq_zero hlength]
    · rw [hsymbol, hd', Option.some.injEq] at hd
      rw [hnames, hnames', hd]

end ClassElement.Ordered

/-! ## Signatures -/

/-- What is bound alike in a map matches a part of it that has the same names in the same order. -/
theorem TypeArguments.matches_of_boundAlikeIn {as bs cs : TypeArguments}
    (hnames : as.names = bs.names) (h : as.boundAlikeIn cs = true)
    (hfound : ∀ entry ∈ bs.toList, cs.get? entry.1 = some entry.2) : as.Matches bs := by
  rw [boundAlikeIn_iff] at h
  induction as generalizing bs with
  | nil =>
    cases bs with
    | nil => trivial
    | cons => cases hnames
  | cons name e as ih =>
    cases bs with
    | nil => cases hnames
    | cons name' f bs =>
      obtain ⟨rfl, hrest⟩ := List.cons.inj hnames
      obtain ⟨hfirst, hothers⟩ := List.forall_mem_cons.1 h
      obtain ⟨f', hf', hsame⟩ := hfirst
      have hf : cs.get? name = some f := hfound (name, f) List.mem_cons_self
      obtain rfl := Option.some.inj (hf.symm.trans hf')
      refine ⟨rfl, hsame, ih hrest hothers fun entry hentry => ?_⟩
      exact hfound entry (List.mem_cons_of_mem _ hentry)

/-- Shapes of one type have what a signature shows of them in common. -/
theorem ClassShape.shown_of_sameType {s t : ClassShape} (h : s.sameType t = true) :
    s.symbol = t.symbol ∧ s.name = t.name ∧ s.dimensions = t.dimensions := by
  have heq := of_decide_eq_true h
  rw [ClassShape.mk.injEq] at heq
  obtain ⟨hsymbol, hname, -, -, -, hdimensions, -⟩ := heq
  exact ⟨hsymbol, hname, hdimensions⟩

mutual

/-- By induction over the elements that are bound. Their names come in the same order, so the
signatures of the arguments match one by one. -/
theorem ClassElement.Ordered.signature_eq : ∀ e f : ClassElement, e.Ordered g → f.Ordered g →
    e.sameType f = true → e.signature = f.signature
  | .declared s as, .declared t bs => by
    intro he hf h
    rw [ClassElement.sameType, Bool.and_eq_true, Bool.and_eq_true, beq_iff_eq] at h
    obtain ⟨⟨hshape, hsize⟩, hbound⟩ := h
    obtain ⟨hsymbol, hname, hdimensions⟩ := ClassShape.shown_of_sameType hshape
    have hmatches : as.Matches bs :=
      TypeArguments.matches_of_boundAlikeIn (he.names_eq hf hsymbol hsize) hbound
        fun _ hentry => TypeArguments.get?_of_mem_toList hf.nodup_names hentry
    have harguments : as.signatures = bs.signatures :=
      TypeArguments.Ordered.signatures_eq as bs he.2 hf.2 hmatches
    rw [ClassElement.signature, ClassElement.signature, hname, hdimensions, harguments]
  | .placeholder s as v captured, .placeholder t bs w captured' => by
    intro he hf h
    rw [ClassElement.sameType, Bool.and_eq_true, Bool.and_eq_true, Bool.and_eq_true] at h
    obtain ⟨⟨⟨hshape, -⟩, -⟩, hvariable⟩ := h
    have hname : v.name = w.name := beq_iff_eq.1 hvariable
    obtain ⟨-, -, hdimensions⟩ := ClassShape.shown_of_sameType hshape
    rw [ClassElement.signature, ClassElement.signature, hname, hdimensions, he.1, hf.1]
  | .declared _ _, .placeholder _ _ _ _ => fun _ _ h => nomatch h
  | .placeholder _ _ _ _, .declared _ _ => fun _ _ h => nomatch h

theorem TypeArguments.Ordered.signatures_eq : ∀ as bs : TypeArguments, as.Ordered g →
    bs.Ordered g → as.Matches bs → as.signatures = bs.signatures
  | .nil, .nil => fun _ _ _ => rfl
  | .cons name e as, .cons name' f bs => by
    intro has hbs h
    obtain ⟨hname, hsame, hrest⟩ := h
    have hfirst : e.signature = f.signature :=
      ClassElement.Ordered.signature_eq e f has.1 hbs.1 hsame
    have hothers : as.signatures = bs.signatures :=
      TypeArguments.Ordered.signatures_eq as bs has.2 hbs.2 hrest
    rw [TypeArguments.signatures, TypeArguments.signatures, hname, hfirst, hothers]
  | .nil, .cons _ _ _ => fun _ _ h => h.elim
  | .cons _ _ _, .nil => fun _ _ h => h.elim

end

namespace Resolver

variable {r : Resolver}

/-! ## Consultations -/

/-- The exchanges on one resolver, each of which passes on elements that were returned before, their
parts, and both in any number of dimensions, under any names. -/
inductive Consultation (r : Resolver) : List Exchange → Memory → Prop
  | start (log : Log) : Consultation r [] { log }
  | call {exchanges : List Exchange} {m : Memory} (h : Consultation r exchanges m) {c : Call}
    (hc : c.Passes (fun _ => True) (Supplied (returnedIn exchanges))) :
    Consultation r (exchanges ++ [(c, ((r.answer c).run.run m).1)]) ((r.answer c).run.run m).2

/-- A resolver orders what it makes. -/
theorem produced_ordered (r : Resolver) :
    Produced r (fun _ => True) (ClassElement.Ordered r.graph) where
  name _ := trivial
  declared hs h hnames := ⟨Or.inr ⟨_, hs, hnames⟩, TypeArguments.ordered_iff.2 h.each⟩
  placeholder _ h := ⟨rfl, TypeArguments.ordered_iff.2 h⟩
  bare _ := ⟨Or.inl rfl, trivial⟩
  withDimensions {e} h _ := by cases e <;> exact h
  arguments {e} h := by
    cases e with
    | declared shape arguments => exact TypeArguments.ordered_iff.1 h.2
    | placeholder shape arguments v captured =>
      rw [ClassElement.arguments, h.1]
      exact TypeArguments.each_empty
  captured {e} h := by
    cases e with
    | declared shape arguments => exact TypeArguments.each_empty
    | placeholder shape arguments v captured => exact TypeArguments.ordered_iff.1 h.2

theorem Supplied.of_returned {N : String → Prop} {Q : ClassElement → Prop} (hQ : Produced r N Q)
    {returned : List ClassElement} (hreturned : ∀ e ∈ returned, Q e) {e : ClassElement}
    (h : Supplied returned e) : Q e := by
  induction h with
  | returned h => exact hreturned _ h
  | withDimensions _ dimensions ih => exact hQ.withDimensions ih dimensions
  | argument _ hf ih => exact (hQ.arguments ih _ hf).2
  | captured _ hf ih => exact (hQ.captured ih _ hf).2

/-- Whatever a resolver produces has a property, and so has whatever it keeps or returns in a
consultation. -/
theorem Consultation.invariant {Q : ClassElement → Prop} (hQ : Produced r (fun _ => True) Q)
    {exchanges : List Exchange} {m : Memory} (h : Consultation r exchanges m) :
    HoldsOnly Q m ∧ ∀ e ∈ returnedIn exchanges, Q e := by
  induction h with
  | start log => exact ⟨nofun, fun e he => absurd he List.not_mem_nil⟩
  | call _ hc ih =>
    obtain ⟨hm, hreturned⟩ := ih
    have hsupplied : ∀ e, Supplied _ e → Q e := fun e he => he.of_returned hQ hreturned
    exact hm.call hQ hreturned
      ⟨hc.1.mono (fun _ h => h) hsupplied, fun e he => hsupplied e (hc.2 e he)⟩

/-- Equal elements have one signature, whatever a resolver was asked before it returned the one and
the other. -/
theorem signature_eq_of_beq {exchanges exchanges' : List Exchange} {m m' : Memory}
    (h : Consultation r exchanges m) (h' : Consultation r exchanges' m') {a b : ClassElement}
    (ha : Supplied (returnedIn exchanges) a) (hb : Supplied (returnedIn exchanges') b)
    (heq : (a == b) = true) : a.signature = b.signature := by
  have hproduced := produced_ordered r
  have hordered : a.Ordered r.graph := ha.of_returned hproduced (h.invariant hproduced).2
  have hordered' : b.Ordered r.graph := hb.of_returned hproduced (h'.invariant hproduced).2
  exact ClassElement.Ordered.signature_eq a b hordered hordered' heq

/-- A use of a class without arguments, and a substitution for one of its type parameters. -/
def shelfUse : TypeUse := .declared (.ofClass "Shelf") []

def textUnderA : TypeArguments := .cons "A" textElement .nil

/-- The class without its arguments, once with placeholders that were met under the substitution and
once with others, is one type with one signature. -/
theorem signature_eq_of_beq_shelfResolver :
    ∃ exchanges m a b, Consultation shelfResolver exchanges m ∧
      Supplied (returnedIn exchanges) a ∧ Supplied (returnedIn exchanges) b ∧
      (a == b) = true ∧ a.signature = b.signature ∧ a.arguments.names = ["A", "B"] ∧
      (a.arguments.get? "B").map (·.captured.size) = some 1 ∧
      (b.arguments.get? "B").map (·.captured.size) = some 0 := by
  have hfirst : Consultation shelfResolver _ _ :=
    .call (.start []) (c := .elementOf (.ofClass "Text")) ⟨TypeArguments.each_empty, nofun⟩
  have hpassed : textUnderA.Each (fun _ => True) (Supplied [textElement]) := by
    intro entry hentry
    rw [List.mem_singleton.1 hentry]
    exact ⟨trivial, .returned List.mem_cons_self⟩
  have hsecond := hfirst.call (c := .resolve shelfUse textUnderA) ⟨hpassed, nofun⟩
  have hthird := hsecond.call (c := .resolve shelfUse ∅) ⟨TypeArguments.each_empty, nofun⟩
  refine ⟨_, _, _, _, hthird, .returned (List.mem_cons_of_mem _ List.mem_cons_self),
    .returned (List.mem_cons_of_mem _ (List.mem_cons_of_mem _ List.mem_cons_self)), rfl, ?_, rfl,
    rfl, rfl⟩
  exact signature_eq_of_beq hthird hthird
    (.returned (List.mem_cons_of_mem _ List.mem_cons_self))
    (.returned (List.mem_cons_of_mem _ (List.mem_cons_of_mem _ List.mem_cons_self))) rfl

end Resolver

end BeanProcessing
