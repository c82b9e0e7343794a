import BeanProcessing.Proofs.Resolver.PlaceholderNames
import BeanProcessing.Proofs.Resolver.Skeleton

/-!
# Elements of one type in each other's place

A resolver looks at more than equality does: a placeholder leads on from what it captured, and what
is kept may be a copy with other annotations. Still, equal elements lead to equal elements as far as
the substitutions that they captured bind the type variables in question alike, and they can stand
for each other in a substitution.

`AlikeRuns` compares what two computations come to, each in a memory of its own. It goes through
binds, and each operation is followed once under two substitutions.
-/

namespace BeanProcessing

namespace Resolver

variable {r : Resolver} {β γ δ ε : Type}

/-! ## Two runs -/

/-- Whether a memory keeps sound elements only, under keys that they fit. -/
def Orderly (r : Resolver) (m : Memory) : Prop :=
  Keyed r m ∧ HoldsOnly (ClassElement.Sound r) m

/-- Whether two computations, each run from an orderly memory of its own, come to related values
and leave their memories orderly. -/
def AlikeRuns (r : Resolver) (R : β → γ → Prop) (x : StateM Memory β) (y : StateM Memory γ) :
    Prop :=
  ∀ m m', Orderly r m → Orderly r m' →
    R (x.run m).1 (y.run m').1 ∧ Orderly r (x.run m).2 ∧ Orderly r (y.run m').2

namespace AlikeRuns

variable {R : β → γ → Prop} {S : δ → ε → Prop}

theorem pure {b : β} {c : γ} (h : R b c) : AlikeRuns r R (pure b) (pure c) :=
  fun _ _ hm hm' => ⟨h, hm, hm'⟩

theorem ok {b : β} {c : γ} (h : R b c) :
    AlikeRuns r (SameOutcome R) (Pure.pure (Except.ok b)) (Pure.pure (Except.ok c)) :=
  AlikeRuns.pure h

theorem error (failure : Failure) :
    AlikeRuns r (SameOutcome R) (Pure.pure (Except.error failure))
      (Pure.pure (Except.error failure)) :=
  AlikeRuns.pure rfl

theorem mono {R' : β → γ → Prop} {x : StateM Memory (Except Failure β)}
    {y : StateM Memory (Except Failure γ)} (h : AlikeRuns r (SameOutcome R) x y)
    (hR : ∀ b c, R b c → R' b c) : AlikeRuns r (SameOutcome R') x y := by
  intro m m' hm hm'
  obtain ⟨hvalue, horderly⟩ := h m m' hm hm'
  refine ⟨?_, horderly⟩
  cases hx : (x.run m).1 with
  | ok b =>
    obtain ⟨c, hy, hbc⟩ := hvalue.exists_eq_ok hx
    rw [hy]
    exact hR b c hbc
  | error failure =>
    rw [hx] at hvalue
    cases hy : (y.run m').1 with
    | ok c =>
      rw [hy] at hvalue
      exact hvalue.elim
    | error failure' =>
      rw [hy] at hvalue
      exact hvalue

theorem bind {x : StateM Memory β} {y : StateM Memory γ} {f : β → StateM Memory δ}
    {g : γ → StateM Memory ε} (h : AlikeRuns r R x y)
    (hnext : ∀ b c, R b c → AlikeRuns r S (f b) (g c)) : AlikeRuns r S (x >>= f) (y >>= g) := by
  intro m m' hm hm'
  obtain ⟨hvalue, hm₁, hm₁'⟩ := h m m' hm hm'
  exact hnext _ _ hvalue _ _ hm₁ hm₁'

theorem bindOk {x : ResolveM β} {y : ResolveM γ} {f : β → ResolveM δ} {g : γ → ResolveM ε}
    (h : AlikeRuns r (SameOutcome R) x.run y.run)
    (hnext : ∀ b c, R b c → AlikeRuns r (SameOutcome S) (f b).run (g c).run) :
    AlikeRuns r (SameOutcome S) (x >>= f).run (y >>= g).run := by
  rw [ExceptT.run_bind, ExceptT.run_bind]
  refine AlikeRuns.bind h fun b c hbc => ?_
  cases b with
  | ok b =>
    cases c with
    | ok c => exact hnext b c hbc
    | error failure => exact hbc.elim
  | error failure =>
    cases c with
    | ok c => exact hbc.elim
    | error failure' =>
      obtain rfl : failure = failure' := hbc
      exact AlikeRuns.error failure

theorem lift {x : StateM Memory β} {y : StateM Memory γ} {f : β → ResolveM δ}
    {g : γ → ResolveM ε} (h : AlikeRuns r R x y)
    (hnext : ∀ b c, R b c → AlikeRuns r (SameOutcome S) (f b).run (g c).run) :
    AlikeRuns r (SameOutcome S) ((liftM x : ResolveM β) >>= f).run
      ((liftM y : ResolveM γ) >>= g).run :=
  AlikeRuns.bind h hnext

theorem liftM {x : StateM Memory β} {y : StateM Memory γ} (h : AlikeRuns r R x y) :
    AlikeRuns r (SameOutcome R) (liftM x : ResolveM β).run (liftM y : ResolveM γ).run :=
  AlikeRuns.bind h fun _ _ hbc => AlikeRuns.ok hbc

theorem map {f : β → δ} {g : γ → ε} {x : ResolveM β} {y : ResolveM γ}
    (h : AlikeRuns r (SameOutcome R) x.run y.run) (hfg : ∀ b c, R b c → S (f b) (g c)) :
    AlikeRuns r (SameOutcome S) (f <$> x).run (g <$> y).run := by
  rw [map_eq_pure_bind, map_eq_pure_bind]
  exact h.bindOk fun b c hbc => AlikeRuns.ok (hfg b c hbc)

theorem mapM {α : Type} {f : α → ResolveM β} {g : α → ResolveM γ} {l : List α}
    (h : ∀ a ∈ l, AlikeRuns r (SameOutcome R) (f a).run (g a).run) :
    AlikeRuns r (SameOutcome (List.Forall₂ R)) (l.mapM f).run (l.mapM g).run := by
  induction l with
  | nil => exact AlikeRuns.ok .nil
  | cons a rest ih =>
    rw [List.mapM_cons, List.mapM_cons]
    refine AlikeRuns.bindOk (h a List.mem_cons_self) fun b c hbc => ?_
    have hrest := ih fun a' ha' => h a' (List.mem_cons_of_mem a ha')
    exact AlikeRuns.bindOk hrest fun bs cs hbcs => AlikeRuns.ok (.cons hbc hbcs)

/-- What follows a lookup runs only if something was found. -/
theorem known {α : Type} {s : Symbol} {found : Option α} {f : α → ResolveM β}
    {g : α → ResolveM γ}
    (hnext : ∀ a, found = some a → AlikeRuns r (SameOutcome R) (f a).run (g a).run) :
    AlikeRuns r (SameOutcome R) (known s found >>= f).run (known s found >>= g).run := by
  cases found with
  | none => exact AlikeRuns.error _
  | some a => exact hnext a rfl

end AlikeRuns

/-! ## Requests -/

/-- Whether two elements are sound and of one type. -/
structure SoundAlike (r : Resolver) (e f : ClassElement) : Prop where
  left : e.Sound r
  right : f.Sound r
  alike : e.sameType f = true

/-- Whether two substitutions bind some type parameters in one order to sound elements of the same
types. -/
structure BindAlike (r : Resolver) (parameters : List Symbol) (as bs : TypeArguments) : Prop where
  left : BindsEach r PlainName (ClassElement.Sound r) parameters as
  right : BindsEach r PlainName (ClassElement.Sound r) parameters bs
  alike : as.Matches bs

theorem BindAlike.empty : BindAlike r [] ∅ ∅ where
  left := .nil TypeArguments.each_empty List.nodup_nil
  right := .nil TypeArguments.each_empty List.nodup_nil
  alike := trivial

theorem BindAlike.insert {as bs : TypeArguments} (h : BindAlike r [] as bs) {name : String}
    (hname : PlainName name) {e f : ClassElement} (hef : SoundAlike r e f) :
    BindAlike r [] (as.insert name e) (bs.insert name f) where
  left := .nil (h.left.each.insert hname hef.left) (nodup_insert_names h.left.nodup name e)
  right := .nil (h.right.each.insert hname hef.right) (nodup_insert_names h.right.nodup name f)
  alike := h.alike.insert name hef.alike

theorem BindAlike.cons {p : Symbol} {d : TypeParameterDeclaration}
    (hp : r.graph.typeParameter? p = some d) {parameters : List Symbol} {as bs : TypeArguments}
    (h : BindAlike r parameters as bs) : BindAlike r (p :: parameters) as bs :=
  ⟨h.left.cons hp, h.right.cons hp, h.alike⟩

/-- Whether two substitutions bind a type variable to elements of one type, or neither binds it. -/
def BoundAlike (r : Resolver) (generics generics' : TypeArguments) (v : Symbol) : Prop :=
  ∀ d, r.graph.typeParameter? v = some d →
    Option.Rel (fun e f => (e == f) = true) (r.binding? v d.name generics)
      (r.binding? v d.name generics')

theorem orderly_run {P : β → Prop} {action : StateM Memory β} (hcomposed : Composed r action)
    (hyields : Yields (ClassElement.Sound r) P action) {m : Memory} (hm : Orderly r m) :
    P (action.run m).1 ∧ Orderly r (action.run m).2 := by
  obtain ⟨hvalue, hsound⟩ := hyields m hm.2
  exact ⟨hvalue, (hcomposed.keyed_and_within hm.1).1, hsound⟩

section

variable (hr : r.Readable)
include hr

/-- A class is returned with the skeleton that it was asked for with, whatever is kept. -/
theorem skeleton_of_run_classElement {s : Symbol} {d : ClassDeclaration}
    (hs : r.graph.classDeclaration? s = some d) {bindings : TypeArguments}
    (hbindings : BindsEach r PlainName (ClassElement.Sound r) d.typeParameters bindings)
    {m m' : Memory} (hm : Orderly r m) {e : ClassElement}
    (h : (r.classElement s d bindings).run m = (e, m')) :
    e.skeleton = (r.declaredElement s d bindings).skeleton := by
  obtain hkept | ⟨-, rfl⟩ := run_classElement h
  -- the key that the element was kept under is read back on both sides
  · obtain ⟨htext, hmade⟩ := (hm.1 _ e hkept).eq_declaredElement hs
    have harguments := TypeArguments.sound_iff.2 ((inherited_sound hr).arguments (hm.2 _ e hkept))
    have hrequested := TypeArguments.sound_iff.2 hbindings.each
    have halike := TypeArguments.keyAlike_of_keyText_eq
      (TypeArguments.Sound.legible hr _ harguments) (TypeArguments.Sound.legible hr _ hrequested)
      htext
    have hskeleton := TypeArguments.Sound.skeleton_eq hr _ _ harguments hrequested halike
    rw [hmade]
    exact congrArg (ClassElement.declared _) hskeleton
  · rfl

theorem alikeRuns_classElement {s : Symbol} {d : ClassDeclaration}
    (hs : r.graph.classDeclaration? s = some d) {as bs : TypeArguments}
    (h : BindAlike r d.typeParameters as bs) :
    AlikeRuns r (SoundAlike r) (r.classElement s d as) (r.classElement s d bs) := by
  intro m m' hm hm'
  obtain ⟨hleft, hm₁⟩ := orderly_run (Composed.classElement hs as)
    (yields_classElement ((inherited_sound hr).declared hs h.left)) hm
  obtain ⟨hright, hm₁'⟩ := orderly_run (Composed.classElement hs bs)
    (yields_classElement ((inherited_sound hr).declared hs h.right)) hm'
  have hskeleton : ((r.classElement s d as).run m).1.skeleton
      = (r.declaredElement s d as).skeleton :=
    skeleton_of_run_classElement hr hs h.left hm rfl
  have hskeleton' : ((r.classElement s d bs).run m').1.skeleton
      = (r.declaredElement s d bs).skeleton :=
    skeleton_of_run_classElement hr hs h.right hm' rfl
  refine ⟨⟨hleft, hright, ?_⟩, hm₁, hm₁'⟩
  -- what is kept may differ from what was asked for, but not in what equality looks at
  rw [← ClassElement.sameType_skeleton, hskeleton, hskeleton', ClassElement.sameType_skeleton]
  exact sameType_declaredElement s d ⟨h.alike, h.right.nodup⟩

variable {generics generics' : TypeArguments} (hgenerics : generics.Sound r)
  (hgenerics' : generics'.Sound r)
include hgenerics hgenerics'

theorem alikeRuns_placeholder {s : Symbol} {d : TypeParameterDeclaration}
    (hs : r.graph.typeParameter? s = some d) :
    AlikeRuns r (SoundAlike r) (r.placeholder s d generics) (r.placeholder s d generics') := by
  intro m m' hm hm'
  obtain ⟨hleft, hm₁⟩ := orderly_run (Composed.placeholder hs generics)
    (yields_placeholder (inherited_sound hr).produced hs (TypeArguments.sound_iff.1 hgenerics)) hm
  obtain ⟨hright, hm₁'⟩ := orderly_run (Composed.placeholder hs generics')
    (yields_placeholder (inherited_sound hr).produced hs (TypeArguments.sound_iff.1 hgenerics')) hm'
  obtain ⟨captured, -, hrun⟩ := run_placeholder hm.1 hs generics
  obtain ⟨captured', -, hrun'⟩ := run_placeholder hm'.1 hs generics'
  refine ⟨⟨hleft, hright, ?_⟩, hm₁, hm₁'⟩
  rw [hrun, hrun']
  exact sameType_placeholderElement s d

theorem alikeRuns_bound {s : Symbol} {d : TypeParameterDeclaration}
    (hs : r.graph.typeParameter? s = some d) (h : BoundAlike r generics generics' s) :
    AlikeRuns r (SoundAlike r) (r.bound s d generics) (r.bound s d generics') := by
  have hsound : ∀ {generics : TypeArguments} {e : ClassElement}, generics.Sound r →
      r.binding? s d.name generics = some e → e.Sound r := by
    intro generics e hgenerics he
    unfold binding? at he
    split at he
    · exact (TypeArguments.sound_iff.1 hgenerics).of_get? he
    · cases he
  unfold bound
  have hbound := h d hs
  cases he : r.binding? s d.name generics with
  | none =>
    cases hf : r.binding? s d.name generics' with
    | none => exact alikeRuns_placeholder hr hgenerics hgenerics' hs
    | some f =>
      rw [he, hf] at hbound
      cases hbound
  | some e =>
    cases hf : r.binding? s d.name generics' with
    | none =>
      rw [he, hf] at hbound
      cases hbound
    | some f =>
      rw [he, hf] at hbound
      cases hbound with
      | some hef =>
        exact AlikeRuns.pure ⟨hsound hgenerics he, hsound hgenerics' hf, hef⟩

/-! ## Operations -/

theorem alikeRuns_bindToPlaceholders (parameters : List Symbol) {as bs : TypeArguments}
    (h : BindAlike r [] as bs) :
    AlikeRuns r (SameOutcome (BindAlike r parameters))
      (r.bindToPlaceholders generics as parameters).run
      (r.bindToPlaceholders generics' bs parameters).run := by
  induction parameters generalizing as bs with
  | nil => exact AlikeRuns.ok h
  | cons p rest ih =>
    refine AlikeRuns.known fun d hd => ?_
    refine (alikeRuns_placeholder hr hgenerics hgenerics' hd).lift fun e f hef => ?_
    exact (ih (h.insert (hr.plain_parameterName hd) hef)).mono fun _ _ h => h.cons hd

theorem alikeRuns_bindToBounds {parameters : List Symbol}
    (hbound : ∀ p ∈ parameters, BoundAlike r generics generics' p) {as bs : TypeArguments}
    (h : BindAlike r [] as bs) :
    AlikeRuns r (SameOutcome (BindAlike r parameters))
      (r.bindToBounds generics as parameters).run
      (r.bindToBounds generics' bs parameters).run := by
  induction parameters generalizing as bs with
  | nil => exact AlikeRuns.ok h
  | cons p rest ih =>
    obtain ⟨hp, hrest⟩ := List.forall_mem_cons.1 hbound
    refine AlikeRuns.known fun d hd => ?_
    refine (alikeRuns_bound hr hgenerics hgenerics' hd hp).lift fun e f hef => ?_
    exact (ih hrest (h.insert (hr.plain_parameterName hd) hef)).mono fun _ _ h => h.cons hd

omit hgenerics hgenerics' in
theorem alikeRuns_elementOf (s : Symbol) :
    AlikeRuns r (SameOutcome (SoundAlike r)) (r.elementOf s).run (r.elementOf s).run := by
  refine AlikeRuns.known fun d hd => ?_
  refine (alikeRuns_bindToPlaceholders hr TypeArguments.sound_empty TypeArguments.sound_empty
    d.typeParameters BindAlike.empty).bindOk fun as bs h => ?_
  exact (alikeRuns_classElement hr hd h).liftM

omit hgenerics hgenerics' in
theorem alikeRuns_topType : AlikeRuns r (SoundAlike r) r.topType r.topType := by
  intro m m' hm hm'
  have hyields := yields_topType (inherited_sound hr).produced
  obtain ⟨hleft, hm₁⟩ := orderly_run composed_topType hyields hm
  obtain ⟨hright, hm₁'⟩ := orderly_run composed_topType hyields hm'
  refine ⟨⟨hleft, hright, ?_⟩, hm₁, hm₁'⟩
  have hbare := ClassElement.sameType_refl (bareElement r.settings.topType) trivial
  unfold topType
  cases r.graph.findClass? r.settings.topType with
  | none => exact hbare
  | some s =>
    -- a class that cannot be made in the one memory cannot be made in the other
    have hbind : ∀ (next : Except Failure ClassElement → StateM Memory ClassElement) (m : Memory),
        ((r.elementOf s).run >>= next).run m
          = (next ((r.elementOf s).run.run m).1).run ((r.elementOf s).run.run m).2 :=
      fun _ _ => rfl
    obtain ⟨hvalue, -⟩ := alikeRuns_elementOf hr s m m' hm hm'
    dsimp only
    rw [hbind, hbind]
    cases he : ((r.elementOf s).run.run m).1 with
    | ok e =>
      obtain ⟨f, hf, hef⟩ := hvalue.exists_eq_ok he
      rw [hf]
      exact hef.alike
    | error failure =>
      cases hf : ((r.elementOf s).run.run m').1 with
      | ok f =>
        rw [he, hf] at hvalue
        exact hvalue.elim
      | error failure' => exact hbare

mutual

theorem alikeRuns_resolve : ∀ use : TypeUse,
    (∀ v ∈ use.typeVariables, BoundAlike r generics generics' v) →
    AlikeRuns r (SameOutcome (SoundAlike r)) (r.resolve generics use).run
      (r.resolve generics' use).run
  | .declared s arguments => fun h => by
    rw [resolve, resolve]
    refine AlikeRuns.known fun d hd => ?_
    refine (alikeRuns_bindArguments arguments h d.typeParameters BindAlike.empty).bindOk
      fun as bs hbindings => ?_
    exact (alikeRuns_classElement hr hd hbindings).liftM
  | .typeVariable s => fun h => by
    rw [resolve, resolve]
    refine AlikeRuns.known fun d hd => ?_
    exact (alikeRuns_bound hr hgenerics hgenerics' hd (h s List.mem_cons_self)).liftM
  | .array element dimensions => fun h => by
    rw [resolve, resolve]
    refine (alikeRuns_resolve element h).bindOk fun e f hef => ?_
    rw [ClassElement.dimensions_eq_of_sameType hef.alike]
    exact AlikeRuns.ok ⟨(inherited_sound hr).withDimensions hef.left _,
      (inherited_sound hr).withDimensions hef.right _,
      ClassElement.sameType_withDimensions hef.alike _⟩
  | .unresolved => fun _ => by
    rw [resolve, resolve]
    exact (alikeRuns_topType hr).liftM

theorem alikeRuns_bindArguments : ∀ arguments : List TypeUse,
    (∀ v ∈ TypeUse.typeVariablesOfAll arguments, BoundAlike r generics generics' v) →
    ∀ (parameters : List Symbol) {as bs : TypeArguments}, BindAlike r [] as bs →
    AlikeRuns r (SameOutcome (BindAlike r parameters))
      (r.bindArguments generics as parameters arguments).run
      (r.bindArguments generics' bs parameters arguments).run
  | [] => fun _ parameters as bs h => by
    rw [bindArguments, bindArguments]
    exact alikeRuns_bindToPlaceholders hr hgenerics hgenerics' parameters h
  | argument :: rest => fun hbound parameters as bs h => by
    cases parameters with
    | nil =>
      rw [bindArguments, bindArguments]
      exact AlikeRuns.ok h
    | cons p parameters =>
      rw [bindArguments, bindArguments]
      refine AlikeRuns.known fun d hd => ?_
      have hargument := alikeRuns_resolve argument fun v hv =>
        hbound v (List.mem_append_left _ hv)
      refine hargument.bindOk fun e f hef => ?_
      exact (alikeRuns_bindArguments rest (fun v hv => hbound v (List.mem_append_right _ hv))
        parameters (h.insert (hr.plain_parameterName hd) hef)).mono fun _ _ h => h.cons hd

end

theorem alikeRuns_declaringClass? {s : Symbol}
    (h : ∀ owner d, r.graph.encounter s = .nearestClass owner →
      r.graph.classDeclaration? owner = some d →
      ∀ p ∈ d.typeParameters, BoundAlike r generics generics' p) :
    AlikeRuns r (SameOutcome (Option.Rel (SoundAlike r))) (r.declaringClass? s generics).run
      (r.declaringClass? s generics').run := by
  unfold declaringClass?
  cases hencounter : r.graph.encounter s with
  | outside => exact AlikeRuns.ok .none
  | repetition repeated => exact AlikeRuns.error _
  | nearestClass owner =>
    refine AlikeRuns.known fun d hd => ?_
    refine (alikeRuns_bindToBounds hr hgenerics hgenerics' (h owner d hencounter hd)
      BindAlike.empty).bindOk fun as bs hbindings => ?_
    exact (alikeRuns_classElement hr hd hbindings).lift fun e f hef => AlikeRuns.ok (.some hef)

end

/-! ## Equal elements -/

/-- Whether two answers are of equal elements. -/
inductive Answer.Alike : Answer → Answer → Prop
  | element {e f : ClassElement} (h : (e == f) = true) : Alike (.element e) (.element f)
  | element? {e f : Option ClassElement} (h : Option.Rel (fun e f => (e == f) = true) e f) :
    Alike (.element? e) (.element? f)
  | elements {es fs : List ClassElement} (h : List.Forall₂ (fun e f => (e == f) = true) es fs) :
    Alike (.elements es) (.elements fs)

/-- Whether a conversation leaves a memory behind. -/
def LeftByConversation (r : Resolver) (N : String → Prop) (m : Memory) : Prop :=
  ∃ exchanges, Conversation r N exchanges m

variable {N : String → Prop} {exchanges : List Exchange} {m : Memory} {a b : ClassElement}

theorem LeftByConversation.orderly (hr : r.Readable) (hN : ∀ name, N name → PlainName name)
    (h : LeftByConversation r N m) : Orderly r m := by
  obtain ⟨exchanges, hconversation⟩ := h
  obtain ⟨hsound, -⟩ := (hconversation.mono hN).invariant (inherited_sound hr)
  exact ⟨hconversation.leftByCalls.keyed, hsound⟩

theorem Conversation.sound (hr : r.Readable) (hN : ∀ name, N name → PlainName name)
    (h : Conversation r N exchanges m) (ha : Obtained N (returnedIn exchanges) a) : a.Sound r :=
  (h.mono hN).of_obtained (inherited_sound hr) (ha.mono hN)

theorem Conversation.genuine (h : Conversation r N exchanges m)
    (ha : Obtained N (returnedIn exchanges) a) : a.Genuine r :=
  (h.mono fun _ _ => trivial).of_obtained (inherited_genuine r) (ha.mono fun _ _ => trivial)

/-- Equal placeholders are of one type variable, with the bounds that it is declared with. -/
theorem typeVariable?_eq_of_sameType (ha : a.Genuine r) (hb : b.Genuine r)
    (hab : a.sameType b = true) : a.symbol = b.symbol ∧ a.typeVariable? = b.typeVariable? := by
  have hsymbol : ∀ {s t : ClassShape}, s.sameType t = true → s.symbol = t.symbol := by
    intro s t h
    have hst : { s with annotations := ∅ } = { t with annotations := ∅ } := of_decide_eq_true h
    exact (ClassShape.mk.inj hst).1
  cases a with
  | declared s as =>
    cases b with
    | declared t bs =>
      rw [ClassElement.sameType, Bool.and_eq_true, Bool.and_eq_true] at hab
      exact ⟨hsymbol hab.1.1, rfl⟩
    | placeholder t bs w ds => cases hab
  | placeholder s as v cs =>
    cases b with
    | declared t bs => cases hab
    | placeholder t bs w ds =>
      rw [ClassElement.sameType, Bool.and_eq_true, Bool.and_eq_true, Bool.and_eq_true] at hab
      have hst := hsymbol hab.1.1.1
      obtain ⟨⟨d, hd, rfl, -⟩, -⟩ := ha
      obtain ⟨⟨d', hd', rfl, -⟩, -⟩ := hb
      rw [hst] at hd
      obtain rfl := Option.some.inj (hd.symm.trans hd')
      exact ⟨hst, rfl⟩

/-- A type variable is bound alike when equal elements are put under one name. -/
theorem boundAlike_insert {generics : TypeArguments} (hgenerics : generics.Sound r) (name : String)
    (hab : a.sameType b = true) (v : Symbol) :
    BoundAlike r (generics.insert name a) (generics.insert name b) v := by
  intro d _
  unfold binding?
  split
  · rw [TypeArguments.get?_insert, TypeArguments.get?_insert]
    split
    · exact .some hab
    · cases he : generics.get? d.name with
      | none => exact .none
      | some e =>
        exact .some ((TypeArguments.sound_iff.1 hgenerics).of_get? he).sameType_refl
  · exact .none

/-! ## Requests with equal elements -/

/-- The declaring class of an element is asked for under what it captured. -/
theorem answer_declaringElement (r : Resolver) (e : ClassElement) :
    r.answer (.declaringElement e) = .element? <$> r.declaringClass? e.symbol e.captured := by
  cases e <;> rfl

theorem alikeRuns_answer_bounds (hr : r.Readable) (ha : a.Sound r) (hb : b.Sound r)
    (hvariable : a.typeVariable? = b.typeVariable?)
    (h : ∀ v ∈ a.typeVariable?, ∀ use ∈ v.bounds, ∀ w ∈ use.typeVariables,
      BoundAlike r a.captured b.captured w) :
    AlikeRuns r (SameOutcome Answer.Alike) (r.answer (.bounds a)).run
      (r.answer (.bounds b)).run := by
  cases a with
  | declared s as =>
    cases b with
    | declared t bs => exact AlikeRuns.ok (.elements .nil)
    | placeholder t bs w ds => cases hvariable
  | placeholder s as v cs =>
    cases b with
    | declared t bs => cases hvariable
    | placeholder t bs w ds =>
      cases hvariable
      have hbounds : AlikeRuns r (SameOutcome (List.Forall₂ (SoundAlike r)))
          (r.boundsOf v cs).run (r.boundsOf v ds).run :=
        AlikeRuns.mapM fun use huse => alikeRuns_resolve hr ha.2.2 hb.2.2 use (h v rfl use huse)
      exact hbounds.map fun es fs h => .elements (h.imp fun e f h => h.alike)

theorem alikeRuns_answer_declaringElement (hr : r.Readable) (ha : a.Sound r) (hb : b.Sound r)
    (hsymbol : a.symbol = b.symbol)
    (h : ∀ owner d, r.graph.encounter a.symbol = .nearestClass owner →
      r.graph.classDeclaration? owner = some d →
      ∀ p ∈ d.typeParameters, BoundAlike r a.captured b.captured p) :
    AlikeRuns r (SameOutcome Answer.Alike) (r.answer (.declaringElement a)).run
      (r.answer (.declaringElement b)).run := by
  have hcaptured := (inherited_sound hr).captured ha
  have hcaptured' := (inherited_sound hr).captured hb
  have hfound := alikeRuns_declaringClass? hr (TypeArguments.sound_iff.2 hcaptured)
    (TypeArguments.sound_iff.2 hcaptured') h
  rw [answer_declaringElement, answer_declaringElement, ← hsymbol]
  refine hfound.map fun found found' h => ?_
  cases h with
  | none => exact .element? .none
  | some h => exact .element? (.some h.alike)

theorem alikeRuns_answer_resolve (hr : r.Readable) (ha : a.Sound r) (hb : b.Sound r)
    (hab : a.sameType b = true) (use : TypeUse) {generics : TypeArguments}
    (hgenerics : generics.Sound r) {name : String} (hname : PlainName name) :
    AlikeRuns r (SameOutcome Answer.Alike) (r.answer (.resolve use (generics.insert name a))).run
      (r.answer (.resolve use (generics.insert name b))).run := by
  have heach := TypeArguments.sound_iff.1 hgenerics
  have hresolve := alikeRuns_resolve hr (TypeArguments.sound_iff.2 (heach.insert hname ha))
    (TypeArguments.sound_iff.2 (heach.insert hname hb)) use
    fun v _ => boundAlike_insert hgenerics name hab v
  exact hresolve.map fun e f h => .element h.alike

/-- Elements that captured one substitution lead on by one computation. -/
theorem answer_eq_of_captured_eq (hsymbol : a.symbol = b.symbol)
    (hvariable : a.typeVariable? = b.typeVariable?) (hcaptured : a.captured = b.captured) :
    r.answer (.bounds a) = r.answer (.bounds b) ∧
      r.answer (.declaringElement a) = r.answer (.declaringElement b) := by
  refine ⟨?_, by rw [answer_declaringElement, answer_declaringElement, hsymbol, hcaptured]⟩
  cases a with
  | declared s as =>
    cases b with
    | declared t bs => rfl
    | placeholder t bs w ds => cases hvariable
  | placeholder s as v cs =>
    cases b with
    | declared t bs => cases hvariable
    | placeholder t bs w ds =>
      cases hvariable
      cases hcaptured
      rfl

/-- Elements that a resolver returned and that are equal, in each other's place. In every graph they
are of one symbol and one type variable, and if they captured one substitution, what the one leads
to is what the other led to before, after any further calls.

Where names can be read back from keys, both lead to equal elements or fail alike, from memories
that any two conversations leave behind. The bounds do so if the substitutions that were captured
bind the type variables in them alike, the declaring class if they so bind its type parameters. What
is resolved with the one or the other for some name is alike in any case. -/
theorem answers_alike_of_beq (h : Conversation r N exchanges m)
    (ha : Obtained N (returnedIn exchanges) a) (hb : Obtained N (returnedIn exchanges) b)
    (hab : (a == b) = true) :
    (a.symbol = b.symbol ∧ a.typeVariable? = b.typeVariable? ∧
      (a.captured = b.captured → ∀ ask ∈ [Call.bounds, Call.declaringElement],
        ∀ m, LeftByCalls r m → ∀ further,
          ((r.answer (ask b)).run.run (r.memoryAfter (ask a :: further) m)).1
            = ((r.answer (ask a)).run.run m).1)) ∧
    (r.Readable → (∀ name, N name → PlainName name) →
      ∀ m₁ m₂, LeftByConversation r N m₁ → LeftByConversation r N m₂ →
      ((∀ v ∈ a.typeVariable?, ∀ use ∈ v.bounds, ∀ w ∈ use.typeVariables,
          BoundAlike r a.captured b.captured w) →
        SameOutcome Answer.Alike ((r.answer (.bounds a)).run.run m₁).1
          ((r.answer (.bounds b)).run.run m₂).1) ∧
      ((∀ owner d, r.graph.encounter a.symbol = .nearestClass owner →
          r.graph.classDeclaration? owner = some d →
          ∀ p ∈ d.typeParameters, BoundAlike r a.captured b.captured p) →
        SameOutcome Answer.Alike ((r.answer (.declaringElement a)).run.run m₁).1
          ((r.answer (.declaringElement b)).run.run m₂).1) ∧
      ∀ (use : TypeUse) (generics : TypeArguments) (name : String), N name →
        generics.Each N (Obtained N (returnedIn exchanges)) →
        SameOutcome Answer.Alike
          ((r.answer (.resolve use (generics.insert name a))).run.run m₁).1
          ((r.answer (.resolve use (generics.insert name b))).run.run m₂).1) := by
  obtain ⟨hsymbol, hvariable⟩ := typeVariable?_eq_of_sameType (h.genuine ha) (h.genuine hb) hab
  refine ⟨⟨hsymbol, hvariable, fun hcaptured ask hask m hm further => ?_⟩,
    fun hr hN m₁ m₂ h₁ h₂ => ⟨fun hbounds => ?_, fun hparameters => ?_,
      fun use generics name hname hgenerics => ?_⟩⟩
  · obtain ⟨hbounds, hdeclaring⟩ := answer_eq_of_captured_eq hsymbol hvariable hcaptured
    have hcomposed := composed_answer (r := r) (ask a)
    have heq : r.answer (ask b) = r.answer (ask a) := by
      rcases List.mem_pair.1 hask with rfl | rfl
      · exact hbounds.symm
      · exact hdeclaring.symm
    obtain ⟨hkeyed, -⟩ := hcomposed.keyed_and_within hm.keyed
    obtain ⟨-, hlater⟩ := keyed_and_within_memoryAfter further hkeyed
    have hagain := congrArg Prod.fst (hcomposed.run_again hm.keyed hlater)
    rw [heq]
    exact hagain
  · have halike := alikeRuns_answer_bounds hr (h.sound hr hN ha) (h.sound hr hN hb) hvariable
      hbounds
    exact (halike _ _ (h₁.orderly hr hN) (h₂.orderly hr hN)).1
  · have halike := alikeRuns_answer_declaringElement hr (h.sound hr hN ha) (h.sound hr hN hb)
      hsymbol hparameters
    exact (halike _ _ (h₁.orderly hr hN) (h₂.orderly hr hN)).1
  · have hsound : generics.Sound r := TypeArguments.sound_iff.2
      (hgenerics.mono hN fun _ he => h.sound hr hN he)
    have halike := alikeRuns_answer_resolve hr (h.sound hr hN ha) (h.sound hr hN hb) hab use hsound
      (hN name hname)
    exact (halike _ _ (h₁.orderly hr hN) (h₂.orderly hr hN)).1

/-- The second type parameter, bounded by arrays of the first. -/
def shelfVariable : TypeUse := .typeVariable (.ofTypeParameter "Shelf<B>")

/-- Its placeholder, met under a substitution. -/
def shelfPlaceholderUnder (generics : TypeArguments) : ClassElement :=
  shelfResolver.placeholderElement (.ofTypeParameter "Shelf<B>")
    { name := "B", bounds := [.array (.typeVariable (.ofTypeParameter "Shelf<A>")) 1] } generics

/-- Two substitutions that bind the first type parameter alike. -/
def textForA : TypeArguments := .cons "A" textElement .nil

def textForAAndX : TypeArguments := .cons "A" textElement (.cons "X" textElement .nil)

/-- The calls that the two placeholders are returned by, and the memory that they leave behind. -/
def shelfExchanges : List Exchange := [
  (.elementOf (.ofClass "Text"), .ok (.element textElement)),
  (.resolve shelfVariable textForA, .ok (.element (shelfPlaceholderUnder textForA))),
  (.resolve shelfVariable textForAAndX, .ok (.element (shelfPlaceholderUnder textForAAndX)))]

def shelfMemory : Memory := shelfResolver.memoryAfter (shelfExchanges.map Prod.fst) {}

theorem each_textForA {returned : List ClassElement} :
    textForA.Each PlainName (Obtained PlainName (textElement :: returned)) :=
  TypeArguments.each_cons.2
    ⟨⟨by decide, .returned List.mem_cons_self⟩, TypeArguments.each_empty⟩

theorem each_textForAAndX {returned : List ClassElement} :
    textForAAndX.Each PlainName (Obtained PlainName (textElement :: returned)) :=
  TypeArguments.each_cons.2 ⟨⟨by decide, .returned List.mem_cons_self⟩,
    TypeArguments.each_cons.2
      ⟨⟨by decide, .returned List.mem_cons_self⟩, TypeArguments.each_empty⟩⟩

theorem conversation_shelfMemory :
    Conversation shelfResolver PlainName shelfExchanges shelfMemory := by
  have htext : Conversation shelfResolver PlainName
      [(.elementOf (.ofClass "Text"), .ok (.element textElement))] _ :=
    .call (.start []) ⟨TypeArguments.each_empty, nofun⟩
  have hfirst := htext.call (c := .resolve shelfVariable textForA) ⟨each_textForA, nofun⟩
  exact hfirst.call (c := .resolve shelfVariable textForAAndX) ⟨each_textForAAndX, nofun⟩

theorem readable_shelfResolver : shelfResolver.Readable where
  nodup_classNames := by decide
  plain_classNames := by decide
  plain_parameterNames := by decide
  open_parameterPaths := by decide
  plain_topType := by decide

/-- Two placeholders of one type variable that were met under different substitutions. Both of these
bind the variable in its bound to the same class. -/
theorem answers_alike_of_beq_shelfResolver :
    shelfResolver.Readable ∧ Conversation shelfResolver PlainName shelfExchanges shelfMemory ∧
      Obtained PlainName (returnedIn shelfExchanges) (shelfPlaceholderUnder textForA) ∧
      Obtained PlainName (returnedIn shelfExchanges) (shelfPlaceholderUnder textForAAndX) ∧
      (shelfPlaceholderUnder textForA == shelfPlaceholderUnder textForAAndX) = true ∧
      (shelfPlaceholderUnder textForA).captured ≠ (shelfPlaceholderUnder textForAAndX).captured ∧
      SameOutcome Answer.Alike
        ((shelfResolver.answer (.bounds (shelfPlaceholderUnder textForA))).run.run shelfMemory).1
        ((shelfResolver.answer (.bounds (shelfPlaceholderUnder textForAAndX))).run.run
          shelfMemory).1 ∧
      SameOutcome Answer.Alike
        ((shelfResolver.answer (.resolve shelfVariable
          (textForA.insert "B" (shelfPlaceholderUnder textForA)))).run.run shelfMemory).1
        ((shelfResolver.answer (.resolve shelfVariable
          (textForA.insert "B" (shelfPlaceholderUnder textForAAndX)))).run.run shelfMemory).1 := by
  have ha : Obtained PlainName (returnedIn shelfExchanges) (shelfPlaceholderUnder textForA) :=
    .returned (List.mem_cons_of_mem _ List.mem_cons_self)
  have hb : Obtained PlainName (returnedIn shelfExchanges) (shelfPlaceholderUnder textForAAndX) :=
    .returned (List.mem_cons_of_mem _ (List.mem_cons_of_mem _ List.mem_cons_self))
  have hleft : LeftByConversation shelfResolver PlainName shelfMemory :=
    ⟨shelfExchanges, conversation_shelfMemory⟩
  obtain ⟨-, halike⟩ := answers_alike_of_beq conversation_shelfMemory ha hb rfl
  obtain ⟨hbounds, -, hresolve⟩ := halike readable_shelfResolver (fun _ h => h) _ _ hleft hleft
  refine ⟨readable_shelfResolver, conversation_shelfMemory, ha, hb, rfl, nofun, hbounds ?_,
    hresolve shelfVariable textForA "B" (by decide) each_textForA⟩
  intro v hv use huse w hw d hd
  cases hv
  obtain rfl := List.mem_singleton.1 huse
  obtain rfl := List.mem_singleton.1 hw
  cases hd
  exact .some rfl

/-- Four classes, all but the first with a type parameter. One of them has some qualified name. -/
def disguisedGraph (path qualifiedName : String) : SymbolGraph :=
  (SymbolGraph.ofEdits [
    .addClass "Text" .plain,
    .addClass "Crate" .plain,
    .addTypeParameter (.ofClass "Crate") "T" [],
    .addClass "Box" .plain,
    .addTypeParameter (.ofClass "Box") "E" [],
    .addClass "Left" .plain,
    .addTypeParameter (.ofClass "Left") "E" [],
    .addClass "Right" .plain,
    .addTypeParameter (.ofClass "Right") "E" []]).modifyClass path
    fun d => { d with qualifiedName }

/-- A resolver of these classes. -/
def disguisedResolver (path qualifiedName : String) : Resolver :=
  .ofUnits (disguisedGraph path qualifiedName) {} []

/-- A type variable that no substitution here binds. -/
def crateVariable : TypeUse := .typeVariable (.ofTypeParameter "Crate<T>")

/-- A use of a class with this variable for its argument. -/
def ofCrateVariable (path : String) : TypeUse := .declared (.ofClass path) [crateVariable]

/-- A box of what is bound to its type parameter. -/
def boxOfVariable : TypeUse := boxOf (.typeVariable (.ofTypeParameter "Box<E>"))

/-- Equal elements may lead to elements that are not equal. In the first graph, a type variable was
met under two substitutions, which bind the variable in its bound to two classes. In the others, the
two elements are equal placeholders that captured different substitutions, or have such placeholders
in them, and so have keys of their own. A box of something else is kept under the key of the one: in
the second graph since two classes have one qualified name, in the third since the qualified name of
a class reads like the key text of a placeholder. -/
theorem exists_unlike_answers_of_beq :
    (∃ m₀ m₁ m₂ m₃ a b x y c d,
      (shelfResolver.elementOf (.ofClass "Text")).run.run {} = (.ok textElement, m₀) ∧
      (shelfResolver.elementOf (.ofClass "Number")).run.run m₀ = (.ok numberElement, m₁) ∧
      (shelfResolver.resolve textForA shelfVariable).run.run m₁ = (.ok a, m₂) ∧
      (shelfResolver.resolve (.cons "A" numberElement .nil) shelfVariable).run.run m₂
        = (.ok b, m₃) ∧
      (a == b) = true ∧
      ((shelfResolver.answer (.bounds a)).run.run m₃).1 = .ok (.elements [x]) ∧
      ((shelfResolver.answer (.bounds b)).run.run m₃).1 = .ok (.elements [y]) ∧
      (x == y) = false ∧
      ((shelfResolver.answer (.declaringElement a)).run.run m₃).1 = .ok (.element? (some c)) ∧
      ((shelfResolver.answer (.declaringElement b)).run.run m₃).1 = .ok (.element? (some d)) ∧
      (c == d) = false) ∧
    (∃ m₀ m₁ m₂ m₃ z a b x y,
      let r := disguisedResolver "Left" "Right"
      (r.elementOf (.ofClass "Text")).run.run {} = (.ok textElement, m₀) ∧
      (r.resolve ∅ (boxOf (ofCrateVariable "Right"))).run.run m₀ = (.ok z, m₁) ∧
      (r.resolve ∅ (ofCrateVariable "Left")).run.run m₁ = (.ok a, m₂) ∧
      (r.resolve (.cons "E" textElement .nil) (ofCrateVariable "Left")).run.run m₂ = (.ok b, m₃) ∧
      (a == b) = true ∧
      ((r.resolve (.cons "E" a .nil) boxOfVariable).run.run m₃).1 = .ok x ∧
      ((r.resolve (.cons "E" b .nil) boxOfVariable).run.run m₃).1 = .ok y ∧
      (x == y) = false) ∧
    ∃ m₀ m₁ m₂ z a b x y,
      let r := disguisedResolver "Text" "?Crate<T>\x7b\x7d"
      (r.resolve ∅ (boxOf (.declared (.ofClass "Text") []))).run.run {} = (.ok z, m₀) ∧
      (r.resolve ∅ crateVariable).run.run m₀ = (.ok a, m₁) ∧
      (r.resolve (.cons "E" a .nil) crateVariable).run.run m₁ = (.ok b, m₂) ∧
      (a == b) = true ∧
      ((r.resolve (.cons "E" a .nil) boxOfVariable).run.run m₂).1 = .ok x ∧
      ((r.resolve (.cons "E" b .nil) boxOfVariable).run.run m₂).1 = .ok y ∧
      (x == y) = false := by
  refine ⟨⟨_, _, _, _, _, _, _, _, _, _, rfl, rfl, rfl, rfl, ?_, rfl, rfl, ?_, rfl, rfl, ?_⟩,
    ⟨_, _, _, _, _, _, _, _, _, rfl, rfl, rfl, rfl, ?_, rfl, rfl, ?_⟩,
    ⟨_, _, _, _, _, _, _, _, rfl, rfl, rfl, ?_, rfl, rfl, ?_⟩⟩
  all_goals rfl

end Resolver

end BeanProcessing
