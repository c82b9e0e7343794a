import BeanProcessing.Proofs.Resolver.Preservation

/-!
# Answers that are asked for again

A resolver takes nothing back: an answer that is kept under a key stays there, and nothing is put in
its place. So a computation that is run again finds all that it found or made the first time. It
comes to the same value, or to the same failure, and keeps nothing new, whatever was asked in
between. Nothing is said of names here, and keys of different requests may be the same.
-/

namespace BeanProcessing

theorem Table.entries_insert_of_get?_eq_none {κ α : Type} [DecidableEq κ] {t : Table κ α} {k : κ}
    (h : t.get? k = none) (v : α) : (t.insert k v).entries = t.entries ++ [(k, v)] := by
  refine insertEntry_of_not_mem v fun hmem => ?_
  obtain ⟨⟨key, value⟩, hentry, rfl⟩ := List.mem_map.1 hmem
  rw [get?_of_mem_entries hentry] at h
  cases h

/-! ## Memories that hold another -/

namespace Memory

/-- Whether another memory starts with the answers of this one. -/
def Within (m m' : Memory) : Prop := m.answers.entries <+: m'.answers.entries

theorem Within.refl (m : Memory) : m.Within m := List.prefix_rfl

theorem Within.trans {m m' m'' : Memory} (h : m.Within m') (h' : m'.Within m'') : m.Within m'' :=
  List.IsPrefix.trans h h'

/-- Every answer is found in a memory that holds it. -/
theorem Within.get? {m m' : Memory} (h : m.Within m') {key : CacheKey} {e : ClassElement}
    (he : m.answers.get? key = some e) : m'.answers.get? key = some e := by
  have hmem := Table.mem_entries_of_get? he
  exact Table.get?_of_mem_entries (h.subset hmem)

theorem Within.size_le {m m' : Memory} (h : m.Within m') : m.answers.size ≤ m'.answers.size :=
  h.length_le

/-- An answer under a new key leaves those that there are. -/
theorem within_insert {m : Memory} {key : CacheKey} (hnew : m.answers.get? key = none)
    (e : ClassElement) : m.Within { m with answers := m.answers.insert key e } := by
  show m.answers.entries <+: (m.answers.insert key e).entries
  rw [Table.entries_insert_of_get?_eq_none hnew]
  exact List.prefix_append _ _

end Memory

namespace Resolver

variable {r : Resolver} {β : Type}

/-! ## What is kept stays -/

/-- Under the key of a type parameter nothing but a placeholder is kept. -/
theorem Keyed.get?_eq_none {m : Memory} (hm : Keyed r m) {s : Symbol}
    {d : TypeParameterDeclaration} (hs : r.graph.typeParameter? s = some d)
    {generics : TypeArguments}
    (hnew : (m.answers.get? (.of s generics)).filter (·.isPlaceholder) = none) :
    m.answers.get? (.of s generics) = none := by
  cases hget : m.answers.get? (.of s generics) with
  | none => rfl
  | some e =>
    obtain ⟨captured, -, rfl⟩ := (hm _ e hget).eq_placeholderElement hs
    rw [hget] at hnew
    cases hnew

theorem stable_within (m₀ : Memory) : Stable r fun m => Keyed r m ∧ m₀.Within m where
  tell _ hm := hm
  keepDeclared bindings hs hnew hm :=
    ⟨hm.1.insert (.declared hs bindings), hm.2.trans (Memory.within_insert hnew _)⟩
  keepPlaceholder generics hs hnew hm :=
    ⟨hm.1.insert (.placeholder hs generics),
      hm.2.trans (Memory.within_insert (hm.1.get?_eq_none hs hnew) _)⟩

/-- What is composed of requests leaves every answer in its place. -/
theorem Composed.keyed_and_within {action : StateM Memory β} (h : Composed r action) {m : Memory}
    (hm : Keyed r m) : Keyed r (action.run m).2 ∧ m.Within (action.run m).2 :=
  h.preserves (stable_within m) m ⟨hm, .refl m⟩

/-! ## Runs that are repeated -/

/-- A class element is under its key once it was asked for. -/
theorem get?_run_classElement (r : Resolver) (s : Symbol) (d : ClassDeclaration)
    (bindings : TypeArguments) (m : Memory) :
    ((r.classElement s d bindings).run m).2.answers.get? (.of s bindings)
      = some ((r.classElement s d bindings).run m).1 := by
  obtain ⟨e, hget, hrun⟩ | ⟨-, event, hrun⟩ := run_classElement_cases r s d bindings m
  · rw [hrun]
    exact hget
  · simp [hrun]

theorem run_classElement_of_get? {s : Symbol} {bindings : TypeArguments} {m : Memory}
    {e : ClassElement} (h : m.answers.get? (.of s bindings) = some e) (d : ClassDeclaration) :
    (r.classElement s d bindings).run m = (e, m) := by
  unfold classElement
  rw [run_answer?_bind, h]
  rfl

/-- A placeholder is under its key once it was asked for. -/
theorem get?_run_placeholder (r : Resolver) (s : Symbol) (d : TypeParameterDeclaration)
    (generics : TypeArguments) (m : Memory) :
    ((r.placeholder s d generics).run m).2.answers.get? (.of s generics)
        = some ((r.placeholder s d generics).run m).1 ∧
      ((r.placeholder s d generics).run m).1.isPlaceholder = true := by
  obtain ⟨e, hfound, hrun⟩ | ⟨-, ⟨event, hrun⟩ | hrun⟩ := run_placeholder_cases r s d generics m
  · rw [hrun]
    exact Option.filter_eq_some_iff.1 hfound
  · simp [hrun, placeholderElement, ClassElement.isPlaceholder, ClassElement.typeVariable?]
  · simp [hrun, placeholderElement, ClassElement.isPlaceholder, ClassElement.typeVariable?]

theorem run_placeholder_of_get? {s : Symbol} {generics : TypeArguments} {m : Memory}
    {e : ClassElement} (h : m.answers.get? (.of s generics) = some e)
    (he : e.isPlaceholder = true) (d : TypeParameterDeclaration) :
    (r.placeholder s d generics).run m = (e, m) := by
  have hfilter : (some e).filter (·.isPlaceholder) = some e := by simp [he]
  unfold placeholder
  rw [run_answer?_bind, h, hfilter]
  rfl

/-- Run again from a memory that holds all that it left behind, a computation that is composed of
requests comes to the same value and changes nothing. -/
theorem Composed.run_again {action : StateM Memory β} (h : Composed r action) {m : Memory}
    (hm : Keyed r m) {later : Memory} (hlater : (action.run m).2.Within later) :
    action.run later = ((action.run m).1, later) := by
  induction h generalizing m with
  | pure b => rfl
  | @bind _ _ action next hfirst hnext ih ihnext =>
    obtain ⟨hkeyed, -⟩ := hfirst.keyed_and_within hm
    obtain ⟨-, hwithin⟩ := (hnext (action.run m).1).keyed_and_within hkeyed
    -- what the first part left behind is kept by the second
    have hrun := ih hm (hwithin.trans hlater)
    calc (action >>= next).run later
        = (next (action.run later).1).run (action.run later).2 := rfl
      _ = (next (action.run m).1).run later := by rw [hrun]
      _ = (((action >>= next).run m).1, later) := ihnext _ hkeyed hlater
  | @classElement s d _ bindings =>
    have hget := get?_run_classElement r s d bindings m
    exact run_classElement_of_get? (hlater.get? hget) d
  | @placeholder s d _ generics =>
    obtain ⟨hget, hplaceholder⟩ := get?_run_placeholder r s d generics m
    exact run_placeholder_of_get? (hlater.get? hget) hplaceholder d

/-! ## Calls -/

/-- The memory that calls leave behind, one after the other. -/
def memoryAfter (r : Resolver) (calls : List Call) (m : Memory) : Memory :=
  calls.foldl (fun m c => ((r.answer c).run.run m).2) m

theorem memoryAfter_append (r : Resolver) (calls calls' : List Call) (m : Memory) :
    r.memoryAfter (calls ++ calls') m = r.memoryAfter calls' (r.memoryAfter calls m) :=
  List.foldl_append

/-- Calls leave every answer in its place. -/
theorem keyed_and_within_memoryAfter (calls : List Call) {m : Memory} (hm : Keyed r m) :
    Keyed r (r.memoryAfter calls m) ∧ m.Within (r.memoryAfter calls m) := by
  induction calls generalizing m with
  | nil => exact ⟨hm, .refl m⟩
  | cons c rest ih =>
    obtain ⟨hkeyed, hwithin⟩ := (composed_answer c).keyed_and_within hm
    obtain ⟨hkeyed', hwithin'⟩ := ih hkeyed
    exact ⟨hkeyed', hwithin.trans hwithin'⟩

/-- A resolver that has not been asked anything keeps nothing, and calls keep what fits its key. -/
theorem keyed_memoryAfter (r : Resolver) (calls : List Call) (log : Log) :
    Keyed r (r.memoryAfter calls { log }) := by
  have hstart : Keyed r { log } := fun key e he => by cases he
  exact (keyed_and_within_memoryAfter calls hstart).1

/-- A call that is made again, after any further calls, gets the answer or the failure that it got,
and leaves the memory as it is. No call puts anything in the place of an answer that is kept, or
takes one away. This holds of every graph and all settings, whatever the calls pass on. -/
theorem answer_again (r : Resolver) (log : Log) (before further : List Call) (c : Call) :
    (r.answer c).run.run (r.memoryAfter (before ++ c :: further) { log })
        = (((r.answer c).run.run (r.memoryAfter before { log })).1,
          r.memoryAfter (before ++ c :: further) { log }) ∧
      (∀ key e, (r.memoryAfter before { log }).answers.get? key = some e →
        (r.memoryAfter (before ++ further) { log }).answers.get? key = some e) ∧
      (r.memoryAfter before { log }).answers.size
        ≤ (r.memoryAfter (before ++ further) { log }).answers.size := by
  have hkeyed := keyed_memoryAfter r before log
  have hcomposed := composed_answer (r := r) c
  rw [memoryAfter_append, memoryAfter_append]
  obtain ⟨-, hfurther⟩ := keyed_and_within_memoryAfter further hkeyed
  obtain ⟨hkeyed', -⟩ := hcomposed.keyed_and_within hkeyed
  obtain ⟨-, hlater⟩ := keyed_and_within_memoryAfter further hkeyed'
  exact ⟨hcomposed.run_again hkeyed hlater, fun _ _ => hfurther.get?, hfurther.size_le⟩

end Resolver

end BeanProcessing
