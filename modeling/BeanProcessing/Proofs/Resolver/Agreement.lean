import BeanProcessing.Proofs.Resolver.Direct

/-!
# Agreement of remembered answers

A resolver asks its memory before it makes an element. It comes to the same answers as direct
resolution as long as two requests with one key are one request. Which requests there are depends
on what is resolved, so they are a parameter here: `Requests` is a set of requests that their keys
tell apart, and a memory is `Faithful` when all it holds was made for such requests.

`Agrees` says that a computation comes to a given answer from every faithful memory and leaves the
memory faithful. It goes through binds, so each operation takes a few steps.
-/

namespace BeanProcessing

/-- Requests, each a symbol to be resolved under a substitution, that have keys of their own. -/
structure Requests where
  /-- Whether a symbol may be resolved under a substitution. -/
  Includes : Symbol → TypeArguments → Prop
  eq_of_keyText_eq : ∀ s bindings bindings', Includes s bindings → Includes s bindings' →
    bindings.keyText = bindings'.keyText → bindings = bindings'

namespace Resolver

variable {r : Resolver} {Q : Requests} {β γ : Type}

/-! ## Faithful memories -/

/-- The answers that a resolver makes for requests, with their keys. -/
inductive Made (r : Resolver) (Q : Requests) : CacheKey → ClassElement → Prop
  /-- The element of a declared class. -/
  | declared {s : Symbol} {d : ClassDeclaration} {bindings : TypeArguments}
    (hs : r.graph.classDeclaration? s = some d) (hQ : Q.Includes s bindings) :
    Made r Q (.of s bindings) (r.declaredElement s d bindings)
  /-- The placeholder of a type parameter. -/
  | placeholder {s : Symbol} {d : TypeParameterDeclaration} {generics : TypeArguments}
    (hs : r.graph.typeParameter? s = some d) (hQ : Q.Includes s generics) :
    Made r Q (.of s generics) (r.placeholderElement s d generics)

/-- Whether every answer in a memory was made for one of the requests. -/
def Faithful (r : Resolver) (Q : Requests) (m : Memory) : Prop :=
  ∀ key e, m.answers.get? key = some e → Made r Q key e

theorem faithful_of_answers_eq_empty {m : Memory} (h : m.answers = ∅) : Faithful r Q m := by
  intro key e he
  rw [h] at he
  cases he

theorem kind_of_classDeclaration? {g : SymbolGraph} {s : Symbol} {d : ClassDeclaration}
    (h : g.classDeclaration? s = some d) : s.kind = .classType := by
  unfold SymbolGraph.classDeclaration? at h
  split at h
  · assumption
  · cases h

theorem kind_of_typeParameter? {g : SymbolGraph} {s : Symbol} {d : TypeParameterDeclaration}
    (h : g.typeParameter? s = some d) : s.kind = .typeParameter := by
  unfold SymbolGraph.typeParameter? at h
  split at h
  · assumption
  · cases h

/-- No symbol names a class and a type parameter. -/
theorem not_typeParameter?_of_classDeclaration? {g : SymbolGraph} {s : Symbol}
    {d : ClassDeclaration} {d' : TypeParameterDeclaration} (h : g.classDeclaration? s = some d)
    (h' : g.typeParameter? s = some d') : False := by
  have hclass := kind_of_classDeclaration? h
  rw [kind_of_typeParameter? h'] at hclass
  cases hclass

/-- An answer made under the key of a class is the element of that class. -/
theorem Made.eq_declaredElement {s : Symbol} {d : ClassDeclaration} {bindings : TypeArguments}
    {e : ClassElement} (h : Made r Q (.of s bindings) e)
    (hs : r.graph.classDeclaration? s = some d) (hQ : Q.Includes s bindings) :
    e = r.declaredElement s d bindings := by
  -- the key has the symbol in it, so what was made under it is for the same symbol
  generalize hkey : CacheKey.of s bindings = key at h
  cases h with
  | @declared s' d' bindings' hs' hQ' =>
    obtain ⟨rfl, htext⟩ := CacheKey.mk.injEq .. ▸ hkey
    obtain rfl := Q.eq_of_keyText_eq s bindings bindings' hQ hQ' htext
    rw [hs, Option.some.injEq] at hs'
    rw [hs']
  | @placeholder s' d' generics hs' _ =>
    obtain ⟨rfl, -⟩ := CacheKey.mk.injEq .. ▸ hkey
    exact absurd hs' fun hs' => not_typeParameter?_of_classDeclaration? hs hs'

/-- An answer made under the key of a type parameter is its placeholder. -/
theorem Made.eq_placeholderElement {s : Symbol} {d : TypeParameterDeclaration}
    {generics : TypeArguments} {e : ClassElement} (h : Made r Q (.of s generics) e)
    (hs : r.graph.typeParameter? s = some d) (hQ : Q.Includes s generics) :
    e = r.placeholderElement s d generics := by
  generalize hkey : CacheKey.of s generics = key at h
  cases h with
  | @declared s' d' bindings hs' _ =>
    obtain ⟨rfl, -⟩ := CacheKey.mk.injEq .. ▸ hkey
    exact absurd hs fun hs => not_typeParameter?_of_classDeclaration? hs' hs
  | @placeholder s' d' generics' hs' hQ' =>
    obtain ⟨rfl, htext⟩ := CacheKey.mk.injEq .. ▸ hkey
    obtain rfl := Q.eq_of_keyText_eq s generics generics' hQ hQ' htext
    rw [hs, Option.some.injEq] at hs'
    rw [hs']

/-! ## Agreement -/

/-- Whether a computation comes to `value` from every faithful memory and leaves it faithful. -/
def Agrees (r : Resolver) (Q : Requests) (action : StateM Memory β) (value : β) : Prop :=
  ∀ m, Faithful r Q m → (action.run m).1 = value ∧ Faithful r Q (action.run m).2

theorem Agrees.pure (value : β) : Agrees r Q (pure value) value :=
  fun _ hm => ⟨rfl, hm⟩

theorem Agrees.bind {action : StateM Memory β} {value : β} {next : β → StateM Memory γ}
    {answer : γ} (h : Agrees r Q action value) (hnext : Agrees r Q (next value) answer) :
    Agrees r Q (action >>= next) answer := by
  intro m hm
  obtain ⟨hvalue, hm'⟩ := h m hm
  subst hvalue
  exact hnext _ hm'

/-- A fallible computation goes on only if the part before it came to something. -/
theorem Agrees.bindOk {action : ResolveM β} {answer : Except Failure β}
    {next : β → ResolveM γ} {rest : β → Except Failure γ} (h : Agrees r Q action.run answer)
    (hnext : ∀ b, answer = .ok b → Agrees r Q (next b).run (rest b)) :
    Agrees r Q (action >>= next).run (answer >>= rest) := by
  rw [ExceptT.run_bind]
  refine Agrees.bind h ?_
  cases answer with
  | error failure => exact Agrees.pure _
  | ok b => exact hnext b rfl

theorem Agrees.lift {action : StateM Memory β} {value : β} {next : β → ResolveM γ}
    {answer : Except Failure γ} (h : Agrees r Q action value)
    (hnext : Agrees r Q (next value).run answer) :
    Agrees r Q ((liftM action : ResolveM β) >>= next).run answer := by
  intro m hm
  obtain ⟨hvalue, hm'⟩ := h m hm
  subst hvalue
  exact hnext _ hm'

theorem Agrees.liftM {action : StateM Memory β} {value : β} (h : Agrees r Q action value) :
    Agrees r Q (liftM action : ResolveM β).run (.ok value) := by
  intro m hm
  obtain ⟨hvalue, hm'⟩ := h m hm
  exact ⟨congrArg Except.ok hvalue, hm'⟩

theorem Agrees.map {f : β → γ} {action : ResolveM β} {answer : Except Failure β}
    (h : Agrees r Q action.run answer) : Agrees r Q (f <$> action).run (f <$> answer) := by
  rw [map_eq_pure_bind, map_eq_pure_bind]
  exact Agrees.bindOk h fun b _ => Agrees.pure (Except.ok (f b))

theorem Agrees.mapM {f : β → ResolveM γ} {g : β → Except Failure γ} {l : List β}
    (h : ∀ b ∈ l, Agrees r Q (f b).run (g b)) : Agrees r Q (l.mapM f).run (l.mapM g) := by
  induction l with
  | nil => exact Agrees.pure _
  | cons b rest ih =>
    rw [List.mapM_cons, List.mapM_cons]
    refine Agrees.bindOk (h b List.mem_cons_self) fun c _ => ?_
    refine Agrees.bindOk (ih fun b' hb' => h b' (List.mem_cons_of_mem b hb')) fun cs _ => ?_
    exact Agrees.pure _

/-- A remembered answer is one that was made under its key. -/
theorem Agrees.recall {key : CacheKey} {next : Option ClassElement → StateM Memory β}
    {value : β} (hsome : ∀ e, Made r Q key e → Agrees r Q (next (some e)) value)
    (hnone : Agrees r Q (next none) value) :
    Agrees r Q (Memory.answer? key >>= next) value := by
  intro m hm
  have hrun : (Memory.answer? key >>= next).run m = (next (m.answers.get? key)).run m := rfl
  rw [hrun]
  cases hget : m.answers.get? key with
  | none => exact hnone m hm
  | some e => exact hsome e (hm key e hget) m hm

theorem Agrees.tell (event : Event) : Agrees r Q (Memory.tell event) () :=
  fun _ hm => ⟨rfl, hm⟩

theorem Agrees.remember {key : CacheKey} {e : ClassElement} (he : Made r Q key e) :
    Agrees r Q (Memory.remember key e) () := by
  intro m hm
  refine ⟨rfl, fun key' e' he' => ?_⟩
  have hget : (m.answers.insert key e).get? key' = some e' := he'
  rw [Table.get?_insert] at hget
  -- under the key itself stands the new answer, under any other key what was there
  split at hget
  · next hkey =>
    subst hkey
    cases hget
    exact he
  · exact hm key' e' hget

theorem Agrees.known {α : Type} (s : Symbol) (found : Option α) :
    Agrees r Q (known s found).run (Direct.known s found) := by
  cases found with
  | none => exact Agrees.pure _
  | some a => exact Agrees.pure _

/-! ## Remembered elements -/

theorem agrees_classElement {s : Symbol} {d : ClassDeclaration} {bindings : TypeArguments}
    (hs : r.graph.classDeclaration? s = some d) (hQ : Q.Includes s bindings) :
    Agrees r Q (r.classElement s d bindings) (r.declaredElement s d bindings) := by
  unfold classElement
  refine Agrees.recall (fun e he => ?_) ?_
  · rw [he.eq_declaredElement hs hQ]
    exact Agrees.pure _
  · exact Agrees.bind (Agrees.tell _)
      (Agrees.bind (Agrees.remember (Made.declared hs hQ)) (Agrees.pure _))

theorem agrees_placeholder {s : Symbol} {d : TypeParameterDeclaration} {generics : TypeArguments}
    (hs : r.graph.typeParameter? s = some d) (hQ : Q.Includes s generics) :
    Agrees r Q (r.placeholder s d generics) (r.placeholderElement s d generics) := by
  unfold placeholder
  have hmake : Agrees r Q (do
      Memory.remember (.of s generics) (r.placeholderElement s d generics)
      Pure.pure (r.placeholderElement s d generics)) (r.placeholderElement s d generics) :=
    Agrees.bind (Agrees.remember (Made.placeholder hs hQ)) (Agrees.pure _)
  refine Agrees.recall (fun e he => ?_) ?_
  · rw [he.eq_placeholderElement hs hQ]
    exact Agrees.pure _
  -- whether the bounds lead to a name shows in the log only
  · by_cases hname : (r.nameOfBounds? d.bounds).isNone
    · simp only [Option.filter_none, hname, if_true]
      exact Agrees.bind (Agrees.tell _) hmake
    · simp only [Option.filter_none, hname]
      exact hmake

theorem agrees_bound {s : Symbol} {d : TypeParameterDeclaration} {generics : TypeArguments}
    (hs : r.graph.typeParameter? s = some d) (hQ : Q.Includes s generics) :
    Agrees r Q (r.bound s d generics) (Direct.bound r s d generics) := by
  unfold bound Direct.bound
  cases r.binding? s d.name generics with
  | none => exact agrees_placeholder hs hQ
  | some e => exact Agrees.pure e

/-! ## Classes without arguments -/

theorem agrees_bindToPlaceholders {generics : TypeArguments} {parameters : List Symbol}
    (hQ : ∀ p ∈ parameters, ∀ d, r.graph.typeParameter? p = some d → Q.Includes p generics)
    (bindings : TypeArguments) :
    Agrees r Q (r.bindToPlaceholders generics bindings parameters).run
      (Direct.bindToPlaceholders r generics bindings parameters) := by
  induction parameters generalizing bindings with
  | nil => exact Agrees.pure _
  | cons p rest ih =>
    refine Agrees.bindOk (Agrees.known p _) fun d hd => ?_
    have hp := hQ p List.mem_cons_self d (Direct.known_eq_ok.1 hd)
    exact Agrees.lift (agrees_placeholder (Direct.known_eq_ok.1 hd) hp)
      (ih (fun q hq => hQ q (List.mem_cons_of_mem p hq)) _)

theorem agrees_elementOf {s : Symbol}
    (hplaceholders : ∀ d, r.graph.classDeclaration? s = some d → ∀ p ∈ d.typeParameters,
      ∀ d', r.graph.typeParameter? p = some d' → Q.Includes p ∅)
    (hclass : ∀ d bindings, r.graph.classDeclaration? s = some d →
      Direct.bindToPlaceholders r ∅ ∅ d.typeParameters = .ok bindings → Q.Includes s bindings) :
    Agrees r Q (r.elementOf s).run (Direct.elementOf r s) := by
  refine Agrees.bindOk (Agrees.known s _) fun d hd => ?_
  have hs := Direct.known_eq_ok.1 hd
  refine Agrees.bindOk (agrees_bindToPlaceholders (hplaceholders d hs) ∅) fun bindings hb => ?_
  exact (agrees_classElement hs (hclass d bindings hs hb)).liftM

end Resolver

end BeanProcessing
