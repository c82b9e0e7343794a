import BeanProcessing.Proofs.Resolver.Composition

/-!
# What every call preserves

A resolver changes its memory in three ways only: it tells an event, it keeps the element of a class
under a key that has no answer, and it keeps the placeholder of a type parameter under a key that
has no placeholder. What is preserved by these is a `Stable` property of memories. It is preserved
by all that is composed of requests, and so by every call.

One stable property is that what is kept fits its key: it is `Keyed`. An answer under a key is that
of the symbol in the key, made for bindings with the key text that is in the key.
-/

namespace BeanProcessing.Resolver

variable {r : Resolver} {I : Memory → Prop} {β : Type}

/-- Whether a property of memories is preserved by each of the ways to change one. -/
structure Stable (r : Resolver) (I : Memory → Prop) : Prop where
  tell {m : Memory} (event : Event) (hm : I m) : I { m with log := event :: m.log }
  keepDeclared {m : Memory} {s : Symbol} {d : ClassDeclaration} (bindings : TypeArguments)
    (hs : r.graph.classDeclaration? s = some d) (hnew : m.answers.get? (.of s bindings) = none)
    (hm : I m) :
    I { m with answers := m.answers.insert (.of s bindings) (r.declaredElement s d bindings) }
  keepPlaceholder {m : Memory} {s : Symbol} {d : TypeParameterDeclaration}
    (generics : TypeArguments) (hs : r.graph.typeParameter? s = some d)
    (hnew : (m.answers.get? (.of s generics)).filter (·.isPlaceholder) = none) (hm : I m) :
    I { m with answers := m.answers.insert (.of s generics) (r.placeholderElement s d generics) }

/-- Whether a computation preserves a property of memories. -/
def Preserves (I : Memory → Prop) (action : StateM Memory β) : Prop :=
  ∀ m, I m → I (action.run m).2

/-! ## Kept answers -/

theorem run_answer?_bind (key : CacheKey) (next : Option ClassElement → StateM Memory β)
    (m : Memory) : (Memory.answer? key >>= next).run m = (next (m.answers.get? key)).run m :=
  rfl

/-- A class element is found under its key, or it is made, told of and kept. -/
theorem run_classElement_cases (r : Resolver) (s : Symbol) (d : ClassDeclaration)
    (bindings : TypeArguments) (m : Memory) :
    (∃ e, m.answers.get? (.of s bindings) = some e ∧
      (r.classElement s d bindings).run m = (e, m)) ∨
    m.answers.get? (.of s bindings) = none ∧ ∃ event,
      (r.classElement s d bindings).run m
        = (r.declaredElement s d bindings,
          { answers := m.answers.insert (.of s bindings) (r.declaredElement s d bindings)
            log := event :: m.log }) := by
  unfold classElement
  rw [run_answer?_bind]
  cases m.answers.get? (.of s bindings) with
  | some e => exact Or.inl ⟨e, rfl, rfl⟩
  | none => exact Or.inr ⟨rfl, _, rfl⟩

/-- A placeholder is found under its key, or it is made and kept. If its bounds lead to no name,
that is told first. -/
theorem run_placeholder_cases (r : Resolver) (s : Symbol) (d : TypeParameterDeclaration)
    (generics : TypeArguments) (m : Memory) :
    (∃ e, (m.answers.get? (.of s generics)).filter (·.isPlaceholder) = some e ∧
      (r.placeholder s d generics).run m = (e, m)) ∨
    (m.answers.get? (.of s generics)).filter (·.isPlaceholder) = none ∧
      ((∃ event, (r.placeholder s d generics).run m
        = (r.placeholderElement s d generics,
          { answers := m.answers.insert (.of s generics) (r.placeholderElement s d generics)
            log := event :: m.log })) ∨
      (r.placeholder s d generics).run m
        = (r.placeholderElement s d generics,
          { m with
            answers :=
              m.answers.insert (.of s generics) (r.placeholderElement s d generics) })) := by
  unfold placeholder
  rw [run_answer?_bind]
  cases (m.answers.get? (.of s generics)).filter (·.isPlaceholder) with
  | some e => exact Or.inl ⟨e, rfl, rfl⟩
  | none =>
    refine Or.inr ⟨rfl, ?_⟩
    by_cases hname : (r.nameOfBounds? d.bounds).isNone
    · simp only [hname, if_true]
      exact Or.inl ⟨_, rfl⟩
    · simp only [hname]
      exact Or.inr rfl

/-! ## Operations -/

section

variable (hI : Stable r I)
include hI

theorem preserves_classElement {s : Symbol} {d : ClassDeclaration}
    (hs : r.graph.classDeclaration? s = some d) (bindings : TypeArguments) :
    Preserves I (r.classElement s d bindings) := by
  intro m hm
  obtain ⟨e, -, hrun⟩ | ⟨hnew, event, hrun⟩ := run_classElement_cases r s d bindings m
  · rw [hrun]
    exact hm
  · rw [hrun]
    exact hI.keepDeclared (m := { m with log := event :: m.log }) bindings hs hnew
      (hI.tell event hm)

theorem preserves_placeholder {s : Symbol} {d : TypeParameterDeclaration}
    (hs : r.graph.typeParameter? s = some d) (generics : TypeArguments) :
    Preserves I (r.placeholder s d generics) := by
  intro m hm
  obtain ⟨e, -, hrun⟩ | ⟨hnew, ⟨event, hrun⟩ | hrun⟩ := run_placeholder_cases r s d generics m
  · rw [hrun]
    exact hm
  · rw [hrun]
    exact hI.keepPlaceholder (m := { m with log := event :: m.log }) generics hs hnew
      (hI.tell event hm)
  · rw [hrun]
    exact hI.keepPlaceholder generics hs hnew hm

/-- What is preserved by requests is preserved by all that is put together of them. -/
theorem Composed.preserves {action : StateM Memory β} (h : Composed r action) :
    Preserves I action := by
  induction h with
  | pure b => exact fun _ hm => hm
  | bind _ _ ih ihnext => exact fun m hm => ihnext _ _ (ih m hm)
  | classElement hs bindings => exact preserves_classElement hI hs bindings
  | placeholder hs generics => exact preserves_placeholder hI hs generics

end

/-! ## Memories that calls leave behind -/

/-- Whether a memory is left behind by some calls, whatever they pass on. -/
inductive LeftByCalls (r : Resolver) : Memory → Prop
  | start (log : Log) : LeftByCalls r { log }
  | call {m : Memory} (h : LeftByCalls r m) (c : Call) : LeftByCalls r ((r.answer c).run.run m).2

theorem LeftByCalls.of_stable (hI : Stable r I) (hstart : ∀ log, I { log }) {m : Memory}
    (h : LeftByCalls r m) : I m := by
  induction h with
  | start log => exact hstart log
  | call _ c ih => exact (composed_answer c).preserves hI _ ih

theorem Transcript.leftByCalls {exchanges : List Exchange} {m : Memory}
    (h : Transcript r exchanges m) : LeftByCalls r m := by
  induction h with
  | start log => exact .start log
  | @call _ _ _ c _ ih => exact ih.call c

/-! ## Answers that fit their keys -/

/-- The answers that can be kept under a key: those made for its symbol under bindings with its key
text. -/
inductive Fits (r : Resolver) : CacheKey → ClassElement → Prop
  | declared {s : Symbol} {d : ClassDeclaration} (hs : r.graph.classDeclaration? s = some d)
    (bindings : TypeArguments) : Fits r (.of s bindings) (r.declaredElement s d bindings)
  | placeholder {s : Symbol} {d : TypeParameterDeclaration}
    (hs : r.graph.typeParameter? s = some d) (generics : TypeArguments) :
    Fits r (.of s generics) (r.placeholderElement s d generics)

/-- Whether every answer in a memory fits its key. -/
def Keyed (r : Resolver) (m : Memory) : Prop :=
  ∀ key e, m.answers.get? key = some e → Fits r key e

theorem Keyed.insert {m : Memory} (hm : Keyed r m) {key : CacheKey} {e : ClassElement}
    (he : Fits r key e) : Keyed r { m with answers := m.answers.insert key e } := by
  intro key' e' he'
  have hget : (m.answers.insert key e).get? key' = some e' := he'
  rw [Table.get?_insert] at hget
  split at hget
  · next hkey =>
    subst hkey
    cases hget
    exact he
  · exact hm key' e' hget

theorem stable_keyed : Stable r (Keyed r) where
  tell _ hm := hm
  keepDeclared bindings hs _ hm := hm.insert (.declared hs bindings)
  keepPlaceholder generics hs _ hm := hm.insert (.placeholder hs generics)

theorem LeftByCalls.keyed {m : Memory} (h : LeftByCalls r m) : Keyed r m :=
  h.of_stable stable_keyed fun log key e he => by cases he

/-- What is kept for a type parameter is its placeholder, perhaps with other captured bindings that
have the same key text. -/
theorem Fits.eq_placeholderElement {s : Symbol} {d : TypeParameterDeclaration}
    {generics : TypeArguments} {e : ClassElement} (h : Fits r (.of s generics) e)
    (hs : r.graph.typeParameter? s = some d) :
    ∃ captured, captured.keyText = generics.keyText ∧ e = r.placeholderElement s d captured := by
  generalize hkey : CacheKey.of s generics = key at h
  cases h with
  | @declared s' d' hs' bindings =>
    obtain ⟨rfl, -⟩ := CacheKey.mk.injEq .. ▸ hkey
    exact (not_typeParameter?_of_classDeclaration? hs' hs).elim
  | @placeholder s' d' hs' captured =>
    obtain ⟨rfl, htext⟩ := CacheKey.mk.injEq .. ▸ hkey
    obtain rfl := Option.some.inj (hs.symm.trans hs')
    exact ⟨captured, htext.symm, rfl⟩

/-- A placeholder that is asked for is that of its type parameter. -/
theorem run_placeholder {m : Memory} (hm : Keyed r m) {s : Symbol} {d : TypeParameterDeclaration}
    (hs : r.graph.typeParameter? s = some d) (generics : TypeArguments) :
    ∃ captured, captured.keyText = generics.keyText ∧
      ((r.placeholder s d generics).run m).1 = r.placeholderElement s d captured := by
  obtain ⟨e, hfound, hrun⟩ | ⟨-, ⟨event, hrun⟩ | hrun⟩ := run_placeholder_cases r s d generics m
  · obtain ⟨hkept, -⟩ := Option.filter_eq_some_iff.1 hfound
    rw [hrun]
    exact (hm _ e hkept).eq_placeholderElement hs
  · exact ⟨generics, rfl, by rw [hrun]⟩
  · exact ⟨generics, rfl, by rw [hrun]⟩

end BeanProcessing.Resolver
