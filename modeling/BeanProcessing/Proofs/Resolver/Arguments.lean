import BeanProcessing.Proofs.Resolver.Hygiene
import BeanProcessing.Proofs.Resolver.Stability

/-!
# The arguments of a class that is resolved

A use of a class with arguments asks for the element of the class under bindings of its type
parameters to what the arguments come to. The element that is returned is the one that was kept
first under the key of that request, so its arguments have the same key text as the bindings that
were asked for. They are these very bindings if nothing was kept under the key, or if keys can be
read back. Otherwise an argument may be that of an earlier use: a key has the names of classes in
it, not their symbols, and no annotations.
-/

namespace BeanProcessing.Resolver

variable {r : Resolver} {β γ : Type} {m m' : Memory}

/-! ## Runs that come to something -/

theorem run_bind_eq_ok {action : ResolveM β} {next : β → ResolveM γ} {c : γ}
    (h : (action >>= next).run.run m = (.ok c, m')) :
    ∃ b between, action.run.run m = (.ok b, between) ∧
      (next b).run.run between = (.ok c, m') := by
  have hbind : (action >>= next).run.run m
      = (ExceptT.bindCont next (action.run.run m).1).run (action.run.run m).2 := rfl
  rw [hbind] at h
  cases hrun : action.run.run m with
  | mk result between =>
    rw [hrun] at h
    cases result with
    | ok b => exact ⟨b, between, rfl, h⟩
    | error failure => cases h

/-- What follows runs where the first part left off, whatever state there is. -/
theorem run_bind_of_eq_ok {S : Type} {action : ExceptT Failure (StateM S) β}
    {next : β → ExceptT Failure (StateM S) γ} {b : β} {s s' : S}
    (h : action.run.run s = (.ok b, s')) :
    (action >>= next).run.run s = (next b).run.run s' := by
  have hbind : (action >>= next).run.run s
      = (ExceptT.bindCont next (action.run.run s).1).run (action.run.run s).2 := rfl
  rw [hbind, h]
  rfl

theorem run_map_eq_ok {f : β → γ} {action : ResolveM β} {c : γ}
    (h : (f <$> action).run.run m = (.ok c, m')) :
    ∃ b, action.run.run m = (.ok b, m') ∧ f b = c := by
  rw [map_eq_pure_bind] at h
  obtain ⟨b, between, hrun, hpure⟩ := run_bind_eq_ok h
  cases hpure
  exact ⟨b, hrun, rfl⟩

theorem run_known_eq_ok {s : Symbol} {found : Option β} {b : β}
    (h : (known s found).run.run m = (.ok b, m')) : found = some b ∧ m' = m := by
  cases found with
  | none => cases h
  | some b' =>
    cases h
    exact ⟨rfl, rfl⟩

/-- Whether a computation comes to a value in every memory that holds another, and changes
nothing. -/
def Settled (action : ResolveM β) (m : Memory) (b : β) : Prop :=
  ∀ later, m.Within later → action.run.run later = (.ok b, later)

theorem Settled.mono {action : ResolveM β} {b : β} (h : Settled action m b) (hm : m.Within m') :
    Settled action m' b :=
  fun later hlater => h later (hm.trans hlater)

theorem Composed.keyed_and_within_of_run {action : StateM Memory β} (h : Composed r action)
    (hm : Keyed r m) {b : β} (hrun : action.run m = (b, m')) : Keyed r m' ∧ m.Within m' := by
  have hkeyed := h.keyed_and_within hm
  rwa [hrun] at hkeyed

/-- A computation that came to a value is settled from then on. -/
theorem Composed.settled {action : ResolveM β} (h : Composed r action.run) (hm : Keyed r m)
    {b : β} (hrun : action.run.run m = (.ok b, m')) : Settled action m' b := by
  intro later hlater
  have hagain : action.run.run later = ((action.run.run m).1, later) :=
    h.run_again hm (by rwa [hrun])
  rwa [hrun] at hagain

/-! ## Bindings of type parameters -/

variable {generics bindings bindings' : TypeArguments} {parameters : List Symbol}
  {arguments : List TypeUse}

theorem names_insert_eq {p : Symbol} {d : TypeParameterDeclaration}
    (hp : r.graph.typeParameter? p = some d) (e : ClassElement) :
    (bindings.insert d.name e).names = addParameterName r.graph bindings.names p := by
  rw [TypeArguments.names_insert, addParameterName, hp]

/-- Bindings of type parameters come in the order in which their names were met first. -/
theorem names_of_run_bindToPlaceholders
    (h : (r.bindToPlaceholders generics bindings parameters).run.run m = (.ok bindings', m')) :
    bindings'.names = parameters.foldl (addParameterName r.graph) bindings.names := by
  induction parameters generalizing bindings m with
  | nil =>
    cases h
    rfl
  | cons p rest ih =>
    obtain ⟨d, between, hknown, hnext⟩ := run_bind_eq_ok h
    obtain ⟨hp, -⟩ := run_known_eq_ok hknown
    obtain ⟨e, _, -, hrest⟩ := run_bind_eq_ok hnext
    rw [ih hrest, names_insert_eq hp, List.foldl_cons]

theorem names_of_run_bindArguments
    (h : (r.bindArguments generics bindings parameters arguments).run.run m
      = (.ok bindings', m')) :
    bindings'.names = parameters.foldl (addParameterName r.graph) bindings.names := by
  induction arguments generalizing parameters bindings m with
  | nil =>
    rw [bindArguments] at h
    exact names_of_run_bindToPlaceholders h
  | cons argument rest ih =>
    cases parameters with
    | nil =>
      rw [bindArguments] at h
      cases h
      rfl
    | cons p parameters =>
      rw [bindArguments] at h
      obtain ⟨d, between, hknown, hnext⟩ := run_bind_eq_ok h
      obtain ⟨hp, -⟩ := run_known_eq_ok hknown
      obtain ⟨e, _, -, hrest⟩ := run_bind_eq_ok hnext
      rw [ih hrest, names_insert_eq hp, List.foldl_cons]

theorem names_of_run_bindToBounds
    (h : (r.bindToBounds generics bindings parameters).run.run m = (.ok bindings', m')) :
    bindings'.names = parameters.foldl (addParameterName r.graph) bindings.names := by
  induction parameters generalizing bindings m with
  | nil =>
    cases h
    rfl
  | cons p rest ih =>
    obtain ⟨d, between, hknown, hnext⟩ := run_bind_eq_ok h
    obtain ⟨hp, -⟩ := run_known_eq_ok hknown
    obtain ⟨e, _, -, hrest⟩ := run_bind_eq_ok hnext
    rw [ih hrest, names_insert_eq hp, List.foldl_cons]

/-- Binding type parameters to placeholders leaves alone what is under other names. -/
theorem get?_of_run_bindToPlaceholders
    (h : (r.bindToPlaceholders generics bindings parameters).run.run m = (.ok bindings', m'))
    {name : String} (hname : name ∉ declaredNames r.graph parameters) :
    bindings'.get? name = bindings.get? name := by
  induction parameters generalizing bindings m with
  | nil =>
    cases h
    rfl
  | cons p rest ih =>
    obtain ⟨d, between, hknown, hnext⟩ := run_bind_eq_ok h
    obtain ⟨hp, -⟩ := run_known_eq_ok hknown
    obtain ⟨e, _, -, hrest⟩ := run_bind_eq_ok hnext
    rw [declaredNames_cons hp] at hname
    have hne : name ≠ d.name := List.ne_of_not_mem_cons hname
    rw [ih hrest (List.not_mem_of_not_mem_cons hname), TypeArguments.get?_insert,
      if_neg hne.symm]

/-- Binding type parameters to arguments leaves alone what is under other names. -/
theorem get?_of_run_bindArguments
    (h : (r.bindArguments generics bindings parameters arguments).run.run m
      = (.ok bindings', m'))
    {name : String} (hname : name ∉ declaredNames r.graph parameters) :
    bindings'.get? name = bindings.get? name := by
  induction arguments generalizing parameters bindings m with
  | nil =>
    rw [bindArguments] at h
    exact get?_of_run_bindToPlaceholders h hname
  | cons argument rest ih =>
    cases parameters with
    | nil =>
      rw [bindArguments] at h
      cases h
      rfl
    | cons p parameters =>
      rw [bindArguments] at h
      obtain ⟨d, between, hknown, hnext⟩ := run_bind_eq_ok h
      obtain ⟨hp, -⟩ := run_known_eq_ok hknown
      obtain ⟨e, _, -, hrest⟩ := run_bind_eq_ok hnext
      rw [declaredNames_cons hp] at hname
      have hne : name ≠ d.name := List.ne_of_not_mem_cons hname
      rw [ih hrest (List.not_mem_of_not_mem_cons hname), TypeArguments.get?_insert,
        if_neg hne.symm]

/-- Under the name of each type parameter stands what the argument in its position comes to, then
and later. -/
theorem settled_of_run_bindArguments (hm : Keyed r m)
    (hnames : (declaredNames r.graph parameters).Nodup)
    (h : (r.bindArguments generics bindings parameters arguments).run.run m
      = (.ok bindings', m')) :
    ∀ entry ∈ parameters.zip arguments, ∃ d e, r.graph.typeParameter? entry.1 = some d ∧
      bindings'.get? d.name = some e ∧ Settled (r.resolve generics entry.2) m' e := by
  induction arguments generalizing parameters bindings m with
  | nil =>
    intro entry hentry
    rw [List.zip_nil_right] at hentry
    cases hentry
  | cons argument rest ih =>
    cases parameters with
    | nil =>
      intro entry hentry
      cases hentry
    | cons p parameters =>
      rw [bindArguments] at h
      obtain ⟨d, between, hknown, hnext⟩ := run_bind_eq_ok h
      obtain ⟨hp, rfl⟩ := run_known_eq_ok hknown
      obtain ⟨e, resolved, hargument, hrest⟩ := run_bind_eq_ok hnext
      rw [declaredNames_cons hp] at hnames
      obtain ⟨hfirst, hothers⟩ := List.nodup_cons.1 hnames
      -- the memory after the argument was resolved is held by the one in the end
      have hcomposed := composed_resolve (r := r) generics argument
      have hcomposed' := composed_bindArguments (r := r) generics rest parameters
        (bindings.insert d.name e)
      obtain ⟨hkeyed, -⟩ := hcomposed.keyed_and_within_of_run hm hargument
      obtain ⟨-, hwithin⟩ := hcomposed'.keyed_and_within_of_run hkeyed hrest
      intro entry hentry
      rw [List.zip_cons_cons] at hentry
      rcases List.mem_cons.1 hentry with rfl | hlater
      · refine ⟨d, e, hp, ?_, (hcomposed.settled hm hargument).mono hwithin⟩
        rw [get?_of_run_bindArguments hrest hfirst, TypeArguments.get?_insert, if_pos rfl]
      · exact ih hkeyed hothers hrest entry hlater

/-! ## Elements of classes -/

/-- What is kept for a class is its element, perhaps with other arguments that have the same key
text. -/
theorem Fits.eq_declaredElement {s : Symbol} {d : ClassDeclaration} {e : ClassElement}
    (h : Fits r (.of s bindings) e) (hs : r.graph.classDeclaration? s = some d) :
    e.arguments.keyText = bindings.keyText ∧ e = r.declaredElement s d e.arguments := by
  generalize hkey : CacheKey.of s bindings = key at h
  cases h with
  | @declared s' d' hs' given =>
    obtain ⟨rfl, htext⟩ := CacheKey.mk.injEq .. ▸ hkey
    obtain rfl := Option.some.inj (hs.symm.trans hs')
    exact ⟨htext.symm, rfl⟩
  | @placeholder s' d' hs' captured =>
    obtain ⟨rfl, -⟩ := CacheKey.mk.injEq .. ▸ hkey
    exact (not_typeParameter?_of_classDeclaration? hs hs').elim

/-- A class that is asked for under some bindings is found under their key, or it is made. -/
theorem run_classElement {s : Symbol} {d : ClassDeclaration} {e : ClassElement}
    (h : (r.classElement s d bindings).run m = (e, m')) :
    m.answers.get? (.of s bindings) = some e ∨
      m.answers.get? (.of s bindings) = none ∧ e = r.declaredElement s d bindings := by
  obtain ⟨kept, hget, hrun⟩ | ⟨hnew, event, hrun⟩ := run_classElement_cases r s d bindings m
  · rw [hrun] at h
    cases h
    exact Or.inl hget
  · rw [hrun] at h
    cases h
    exact Or.inr ⟨hnew, rfl⟩

/-- A use of a class binds the arguments first, and then asks for the class. -/
theorem run_resolve_declared_eq_ok {C : Symbol} {d : ClassDeclaration}
    (hC : r.graph.classDeclaration? C = some d) {e : ClassElement}
    (h : (r.resolve generics (.declared C arguments)).run.run m = (.ok e, m')) :
    ∃ requested asked,
      (r.bindArguments generics ∅ d.typeParameters arguments).run.run m = (.ok requested, asked) ∧
      (r.classElement C d requested).run asked = (e, m') := by
  rw [resolve] at h
  obtain ⟨d', between, hknown, hnext⟩ := run_bind_eq_ok h
  obtain ⟨hd', rfl⟩ := run_known_eq_ok hknown
  obtain rfl := Option.some.inj (hC.symm.trans hd')
  obtain ⟨requested, asked, hbind, hclass⟩ := run_bind_eq_ok hnext
  cases hclass
  exact ⟨requested, asked, hbind, rfl⟩

/-- A class without arguments is asked for under placeholders. -/
theorem run_elementOf_eq_ok {C : Symbol} {d : ClassDeclaration}
    (hC : r.graph.classDeclaration? C = some d) {e : ClassElement}
    (h : (r.elementOf C).run.run m = (.ok e, m')) :
    ∃ requested asked,
      (r.bindToPlaceholders ∅ ∅ d.typeParameters).run.run m = (.ok requested, asked) ∧
      (r.classElement C d requested).run asked = (e, m') := by
  obtain ⟨d', between, hknown, hnext⟩ := run_bind_eq_ok h
  obtain ⟨hd', rfl⟩ := run_known_eq_ok hknown
  obtain rfl := Option.some.inj (hC.symm.trans hd')
  obtain ⟨requested, asked, hbind, hclass⟩ := run_bind_eq_ok hnext
  cases hclass
  exact ⟨requested, asked, hbind, rfl⟩

/-- A class that is asked for is made of its declaration, whatever its arguments are. -/
theorem eq_declaredElement_of_run_classElement (hm : Keyed r m) {s : Symbol}
    {d : ClassDeclaration} (hs : r.graph.classDeclaration? s = some d)
    {e : ClassElement} (h : (r.classElement s d bindings).run m = (e, m')) :
    e = r.declaredElement s d e.arguments := by
  obtain hkept | ⟨-, rfl⟩ := run_classElement h
  · exact ((hm _ e hkept).eq_declaredElement hs).2
  · rfl

theorem eq_declaredElement_of_run_elementOf (hm : Keyed r m) {s : Symbol} {d : ClassDeclaration}
    (hs : r.graph.classDeclaration? s = some d) {e : ClassElement}
    (h : (r.elementOf s).run.run m = (.ok e, m')) : e = r.declaredElement s d e.arguments := by
  obtain ⟨requested, asked, hbind, hclass⟩ := run_elementOf_eq_ok hs h
  have hcomposed := composed_bindToPlaceholders (r := r) ∅ d.typeParameters ∅
  have hkeyed := (hcomposed.keyed_and_within_of_run hm hbind).1
  exact eq_declaredElement_of_run_classElement hkeyed hs hclass

theorem exists_eq_declaredElement_of_run_resolve (hm : Keyed r m) {s : Symbol} {e : ClassElement}
    (h : (r.resolve generics (.declared s arguments)).run.run m = (.ok e, m')) :
    ∃ d, r.graph.classDeclaration? s = some d ∧ e = r.declaredElement s d e.arguments := by
  have hsteps := h
  rw [resolve] at hsteps
  obtain ⟨d, _, hknown, -⟩ := run_bind_eq_ok hsteps
  obtain ⟨hs, -⟩ := run_known_eq_ok hknown
  obtain ⟨requested, asked, hbind, hclass⟩ := run_resolve_declared_eq_ok hs h
  have hcomposed := composed_bindArguments (r := r) generics arguments d.typeParameters ∅
  have hkeyed := (hcomposed.keyed_and_within_of_run hm hbind).1
  exact ⟨d, hs, eq_declaredElement_of_run_classElement hkeyed hs hclass⟩

/-- In a readable graph, a class is returned with the arguments that it was asked for with. -/
theorem arguments_eq_of_readable (hr : r.Readable) (hgenerics : generics.Canonical r)
    (hm : Faithful r (r.canonicalRequests hr) m) {C : Symbol} {d : ClassDeclaration}
    (hC : r.graph.classDeclaration? C = some d) {e : ClassElement}
    (h : (r.resolve generics (.declared C arguments)).run.run m = (.ok e, m'))
    {requested : TypeArguments} {asked : Memory}
    (hbind : (r.bindArguments generics ∅ d.typeParameters arguments).run.run m
      = (.ok requested, asked)) : e.arguments = requested := by
  have hresolved : Direct.resolve r generics (.declared C arguments) = .ok e := by
    rw [← ((agrees_resolve hr hgenerics (.declared C arguments)) m hm).1, h]
  have hbound : Direct.bindArguments r generics ∅ d.typeParameters arguments = .ok requested := by
    rw [← ((agrees_bindArguments hr hgenerics arguments d.typeParameters ∅) m hm).1, hbind]
  rw [Direct.resolve, hC] at hresolved
  have hmade : (Direct.bindArguments r generics ∅ d.typeParameters arguments >>= fun bindings =>
      .ok (r.declaredElement C d bindings)) = .ok e := hresolved
  rw [hbound] at hmade
  cases hmade
  rfl

/-- After any calls, a use of a class with arguments is resolved in two steps. First the type
parameters are bound to what the arguments come to, and each argument that is resolved again comes
to the same. Then the element of the class is asked for under these bindings. It is what was kept
under the key of the bindings, whose arguments are only known to have the same key text. If nothing
was kept there, or if names can be read back from keys, its arguments are these bindings. -/
theorem arguments_of_resolve (r : Resolver) (log : Log) (calls : List Call) {C : Symbol}
    {d : ClassDeclaration} (hC : r.graph.classDeclaration? C = some d)
    (hnames : (declaredNames r.graph d.typeParameters).Nodup) {arguments : List TypeUse}
    {generics : TypeArguments} {e : ClassElement} {m' : Memory}
    (h : (r.resolve generics (.declared C arguments)).run.run (r.memoryAfter calls { log })
      = (.ok e, m')) :
    ∃ requested asked,
      (r.bindArguments generics ∅ d.typeParameters arguments).run.run (r.memoryAfter calls { log })
        = (.ok requested, asked) ∧
      (∀ entry ∈ d.typeParameters.zip arguments, ∃ dp f,
        r.graph.typeParameter? entry.1 = some dp ∧ requested.get? dp.name = some f ∧
        ∀ further, (r.resolve generics entry.2).run.run (r.memoryAfter further m')
          = (.ok f, r.memoryAfter further m')) ∧
      e = r.declaredElement C d e.arguments ∧ e.arguments.keyText = requested.keyText ∧
      (∀ kept, asked.answers.get? (.of C requested) = some kept → e = kept) ∧
      (asked.answers.get? (.of C requested) = none → e.arguments = requested) ∧
      ∀ exchanges, r.Readable → Transcript r exchanges (r.memoryAfter calls { log }) →
        SuppliedBindings r.graph (returnedIn exchanges) generics → e.arguments = requested := by
  have hm := keyed_memoryAfter r calls log
  obtain ⟨requested, asked, hbind, hclass⟩ := run_resolve_declared_eq_ok hC h
  have hcomposed := composed_bindArguments (r := r) generics arguments d.typeParameters ∅
  obtain ⟨hasked, -⟩ := hcomposed.keyed_and_within_of_run hm hbind
  have hrequest := Composed.classElement hC requested
  obtain ⟨hkeyed', hwithin⟩ := hrequest.keyed_and_within_of_run hasked hclass
  have harguments : ∀ entry ∈ d.typeParameters.zip arguments, ∃ dp f,
      r.graph.typeParameter? entry.1 = some dp ∧ requested.get? dp.name = some f ∧
      ∀ further, (r.resolve generics entry.2).run.run (r.memoryAfter further m')
        = (.ok f, r.memoryAfter further m') := by
    intro entry hentry
    obtain ⟨dp, f, hp, hf, hsettled⟩ := settled_of_run_bindArguments hm hnames hbind entry hentry
    refine ⟨dp, f, hp, hf, fun further => ?_⟩
    exact hsettled _ (hwithin.trans (keyed_and_within_memoryAfter further hkeyed').2)
  have hmade : e.arguments.keyText = requested.keyText ∧
      e = r.declaredElement C d e.arguments := by
    obtain hget | ⟨-, rfl⟩ := run_classElement hclass
    · exact (hasked _ e hget).eq_declaredElement hC
    · exact ⟨rfl, rfl⟩
  refine ⟨requested, asked, hbind, harguments, hmade.2, hmade.1, fun kept hkept => ?_,
    fun hnone => ?_, fun exchanges hr htranscript hsupplied => ?_⟩
  · rw [run_classElement_of_get? hkept d] at hclass
    exact (Prod.mk.inj hclass).1.symm
  · obtain hget | ⟨-, rfl⟩ := run_classElement hclass
    · rw [hnone] at hget
      cases hget
    · rfl
  · obtain ⟨hfaithful, hreturned, -⟩ := htranscript.invariant hr
    have hgenerics := canonical_of_suppliedBindings hreturned hsupplied
    exact arguments_eq_of_readable hr hgenerics hfaithful hC h hbind

/-- After a class was made known, a use of another with an argument is resolved under arrays of the
first. Its argument is what the argument comes to by itself, then and after any further calls. -/
theorem arguments_of_resolve_boxResolver :
    boxResolver.Readable ∧ ∃ d e f m',
      boxGraph.classDeclaration? (.ofClass "Crate") = some d ∧
      (declaredNames boxGraph d.typeParameters).Nodup ∧
      (boxResolver.resolve textArrays crateOfBox).run.run textMemory = (.ok e, m') ∧
      e.arguments.get? "T" = some f ∧
      ∀ further, (boxResolver.resolve textArrays (.declared (.ofClass "Box") [])).run.run
          (boxResolver.memoryAfter further m')
        = (.ok f, boxResolver.memoryAfter further m') := by
  obtain ⟨requested, asked, -, harguments, -, -, -, -, hreadable⟩ :=
    @arguments_of_resolve boxResolver [] [.elementOf (.ofClass "Text")] (.ofClass "Crate") _ rfl
      (by decide) [.declared (.ofClass "Box") []] textArrays _ _ rfl
  have hrequested := hreadable textExchanges readable_boxResolver transcript_textMemory
    (suppliedBindings_textArrays [])
  obtain ⟨dp, f, hp, hf, hagain⟩ := harguments _ List.mem_cons_self
  cases hp
  rw [← hrequested] at hf
  exact ⟨readable_boxResolver, _, _, f, _, rfl, by decide, rfl, hf, hagain⟩

/-- A use of a class with one argument. -/
def boxOf (argument : TypeUse) : TypeUse := .declared (.ofClass "Box") [argument]

/-- The substitution that binds the type parameter of this class to a class without arguments that
has some annotations. -/
def boundToText (annotations : AnnotationSet) : TypeArguments :=
  .cons "E" (textElement.withAnnotations annotations) .nil

/-- An argument may be that of an earlier use. In the one graph two classes have one qualified name,
and a use with the first was resolved before a use with the second: the argument of the second use
is not the class that its argument comes to by itself. In the other graph a use with a type variable
was resolved before the class that is bound to the variable was given an annotation: the argument
does not have it. -/
theorem exists_argument_of_earlier_use :
    (∃ e f g m' m'',
      (twinResolver.resolve ∅ (boxOf (.declared (.ofClass "Right") []))).run.run
          (twinResolver.memoryAfter [.resolve (boxOf (.declared (.ofClass "Left") [])) ∅] {})
        = (.ok e, m') ∧
      (twinResolver.resolve ∅ (.declared (.ofClass "Right") [])).run.run m' = (.ok g, m'') ∧
      e.arguments.get? "E" = some f ∧ f.symbol = .ofClass "Left" ∧ g.symbol = .ofClass "Right" ∧
      (f == g) = false) ∧
    ∃ e f g m' m'',
      (nestResolver.resolve (boundToText (AnnotationSet.declare ∅ "Named"))
          (boxOf (.typeVariable (.ofTypeParameter "Box<E>")))).run.run
          (nestResolver.memoryAfter
            [.resolve (boxOf (.typeVariable (.ofTypeParameter "Box<E>"))) (boundToText ∅)] {})
        = (.ok e, m') ∧
      (nestResolver.resolve (boundToText (AnnotationSet.declare ∅ "Named"))
          (.typeVariable (.ofTypeParameter "Box<E>"))).run.run m' = (.ok g, m'') ∧
      e.arguments.get? "E" = some f ∧ f.annotations.hasDeclared "Named" = false ∧
      g.annotations.hasDeclared "Named" = true := by
  refine ⟨⟨_, _, _, _, _, rfl, rfl, rfl, rfl, rfl, ?_⟩,
    ⟨_, _, _, _, _, rfl, rfl, rfl, ?_, ?_⟩⟩
  · rfl
  · rfl
  · rfl

end BeanProcessing.Resolver
