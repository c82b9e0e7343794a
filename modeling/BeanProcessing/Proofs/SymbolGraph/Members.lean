import BeanProcessing.Proofs.SymbolGraph.Declarations
import Mathlib.Data.List.Forall2
import Mathlib.Data.List.Induction
import Mathlib.Data.List.Nodup

/-!
# Members of edited graphs

A constructor or method is declared at a path that is made of the path of its class, its name and
its position. No other step declares anything there, so a member keeps the name, the result and the
parameters that its own step gave it. The names of members may have a `#` in them; only the paths of
classes must not.

* `addedMembers` are the members that were added to a class since it was last declared anew.
* `Tracks` says that a graph has the members that were added, and `Tracks.apply` that this holds
  after one step more.
-/

namespace BeanProcessing

namespace SymbolGraph

/-! ## Members that were added -/

/-- What a step says about the member that it adds. -/
structure AddedMember where
  name : String
  isConstructor : Bool := false
  returnType : TypeUse := .unresolved
  parameters : List ValueParameterDeclaration := []

/-- The member that a step adds, with the path of the class that it adds the member to. -/
def Edit.member? : Edit → Option (String × AddedMember)
  | .addConstructor path parameters =>
    some (path, { name := constructorName, isConstructor := true, parameters })
  | .addMethod path name returnType parameters => some (path, { name, returnType, parameters })
  | _ => none

/-- The member that a step adds to the class at a path. -/
def Edit.addedMember? (classPath : String) (e : Edit) : Option AddedMember :=
  (e.member?.filter (·.1 = classPath)).map (·.2)

/-- Whether a step declares the class at a path anew. -/
def Edit.declaresClass (classPath : String) : Edit → Bool
  | .addClass path _ => path = classPath
  | .addNested _ path _ _ => path = classPath
  | _ => false

/-- The members that steps added to the class at a path since they last declared it anew. -/
def addedMembers (classPath : String) (edits : List Edit) : List AddedMember :=
  (edits.reverse.takeWhile (!·.declaresClass classPath)).reverse.filterMap
    (·.addedMember? classPath)

theorem addedMembers_append_singleton (classPath : String) (edits : List Edit) (e : Edit) :
    addedMembers classPath (edits ++ [e])
      = if e.declaresClass classPath then []
        else addedMembers classPath edits ++ (e.addedMember? classPath).toList := by
  unfold addedMembers
  rw [List.reverse_append, List.reverse_singleton, List.singleton_append, List.takeWhile_cons]
  cases hdeclares : e.declaresClass classPath with
  | true => rfl
  | false =>
    cases hadded : e.addedMember? classPath <;> simp [hadded]

variable {g : SymbolGraph} {e : Edit} {C : String} {a : AddedMember}

theorem Edit.addedMember?_eq_some_iff : e.addedMember? C = some a ↔ e.member? = some (C, a) := by
  unfold addedMember?
  cases e.member? with
  | none => simp
  | some added =>
    obtain ⟨path, a'⟩ := added
    simp [Option.filter_some]

/-! ## Members that are declared -/

/-- The declaration of a member without its parameters. -/
def AddedMember.declaration (a : AddedMember) : FunctionDeclaration where
  name := a.name
  isConstructor := a.isConstructor
  returnType := a.returnType

/-- The part of a function that no step changes. -/
def lastingPart (d : FunctionDeclaration) : FunctionDeclaration :=
  { d with modifiers := [], typeParameters := [] }

/-- Whether a symbol names the function that a step added as a member, with its parameters. -/
structure Declares (g : SymbolGraph) (f : Symbol) (a : AddedMember) : Prop where
  function : (g.functionDeclaration? f).map lastingPart
    = some (withParameters f a.declaration a.parameters)
  parameters : (List.range a.parameters.length).map (fun i => g.valueParameter? (f.parameter i))
    = a.parameters.map some

/-- A step that adds a member adds it as the next member of its class. -/
theorem apply_eq_addFunction (h : e.member? = some (C, a)) :
    g.apply e = g.addFunction C a.declaration a.parameters := by
  cases e with
  | addConstructor path parameters =>
    cases h
    rfl
  | addMethod path name returnType parameters =>
    cases h
    rfl
  | _ => cases h

theorem declares_apply (h : e.member? = some (C, a)) :
    (g.apply e).Declares (g.nextMember C a.name) a := by
  rw [apply_eq_addFunction h]
  constructor
  · rw [functionDeclaration?_addFunction]
    exact congrArg (Option.map lastingPart) (if_pos rfl)
  · have hparameters := valueParameter?_addParameters (g.ensureClass C) (g.nextMember C a.name) 0
      a.parameters
    simp only [Nat.zero_add] at hparameters
    simp only [valueParameter?_addFunction]
    exact hparameters

/-! ## What a step leaves alone -/

/-- Whether a graph has the functions of another, up to what later steps may change, its value
parameters and the members of some of its classes. -/
structure Keeps (kept : String → Prop) (g g' : SymbolGraph) : Prop where
  functions : ∀ s,
    (g'.functionDeclaration? s).map lastingPart = (g.functionDeclaration? s).map lastingPart
  valueParameters : ∀ s, g'.valueParameter? s = g.valueParameter? s
  members : ∀ C, kept C → g'.members C = g.members C

section

variable {kept : String → Prop} {g' g'' : SymbolGraph}

theorem Keeps.refl (g : SymbolGraph) : Keeps kept g g :=
  ⟨fun _ => rfl, fun _ => rfl, fun _ _ => rfl⟩

theorem Keeps.trans (h : Keeps kept g g') (h' : Keeps kept g' g'') : Keeps kept g g'' where
  functions s := (h'.functions s).trans (h.functions s)
  valueParameters s := (h'.valueParameters s).trans (h.valueParameters s)
  members C hC := (h'.members C hC).trans (h.members C hC)

theorem SameDeclarations.keeps (h : SameDeclarations g g') : Keeps kept g g' where
  functions s := by rw [h.functions]
  valueParameters := h.valueParameters
  members C _ := by rw [members_eq, members_eq, h.classes]

theorem keeps_modifyClass (g : SymbolGraph) (path : String)
    {f : ClassDeclaration → ClassDeclaration} (hf : ∀ d, (f d).members = d.members) :
    Keeps kept g (g.modifyClass path f) where
  functions _ := rfl
  valueParameters _ := rfl
  members C _ := by
    rw [members_eq, members_eq, classDeclaration?_modifyClass]
    split
    · simp [Function.comp_def, hf]
    · rfl

theorem keeps_modifyFunction (g : SymbolGraph) (path : String)
    {f : FunctionDeclaration → FunctionDeclaration} (hf : ∀ d, lastingPart (f d) = lastingPart d) :
    Keeps kept g (g.modifyFunction path f) where
  functions s := by
    rw [functionDeclaration?_modifyFunction]
    split
    · simp [Function.comp_def, hf]
    · rfl
  valueParameters _ := rfl
  members _ _ := rfl

theorem keeps_ensureClass (g : SymbolGraph) (path : String) : Keeps kept g (g.ensureClass path) :=
  ⟨fun _ => rfl, fun _ => rfl, fun C _ => members_ensureClass g path C⟩

theorem keeps_addTypeParameter (g : SymbolGraph) (owner : Symbol) (name : String)
    (bounds : List TypeUse) : Keeps kept g (g.addTypeParameter owner name bounds) := by
  by_cases howner : owner.kind = .classType ∨ owner.kind = .function
  · have hdeclare : Keeps kept g (g.declareTypeParameter owner name bounds) :=
      ⟨fun _ => rfl, fun _ => rfl, fun _ _ => rfl⟩
    rw [addTypeParameter_eq g howner]
    refine hdeclare.trans ?_
    unfold listTypeParameter
    split
    · exact keeps_modifyClass _ owner.path fun d => by rfl
    · exact keeps_modifyFunction _ owner.path fun d => by rfl
  · rw [addTypeParameter, if_neg howner]
    exact .refl g

/-- A class that is declared anew has no members. -/
theorem members_insert (g : SymbolGraph) (path : String) {entry : Entry ClassDeclaration}
    (h : entry.declaration.members = []) (C : String) :
    { g with classes := g.classes.insert path entry }.members C
      = if path = C then [] else g.members C := by
  rw [members_eq, members_eq, classDeclaration?_insert]
  by_cases hpath : path = C
  · subst hpath
    simp [h]
  · have hne : Symbol.ofClass C ≠ .ofClass path := fun heq => hpath (congrArg Symbol.path heq).symm
    rw [if_neg hne, if_neg hpath]

/-- A step that adds no member keeps those that there are, unless it declares their class anew. -/
theorem keeps_apply (g : SymbolGraph) (h : e.member? = none) :
    Keeps (fun C => e.declaresClass C = false) g (g.apply e) := by
  cases e with
  | addConstructor path parameters => cases h
  | addMethod path name returnType parameters => cases h
  | addClass path kind =>
    refine ⟨fun s => rfl, fun s => rfl, fun C hC => ?_⟩
    rw [apply, members_insert g path rfl, if_neg (of_decide_eq_false hC)]
  | addNested outer path kind modifiers =>
    refine ⟨fun s => rfl, fun s => rfl, fun C hC => ?_⟩
    rw [apply, members_insert g path rfl, if_neg (of_decide_eq_false hC)]
  | setModifiers path modifiers =>
    rw [apply]
    exact (keeps_ensureClass g path).trans (keeps_modifyClass _ path fun d => by rfl)
  | enclose t outer =>
    rw [apply]
    exact (sameDeclarations_modifyPlacement g t _).keeps
  | addStereotype t name =>
    rw [apply]
    exact (sameDeclarations_modifyPlacement g t _).keeps
  | annotate t name =>
    rw [apply]
    refine Keeps.trans ?_ (sameDeclarations_modifyPlacement _ t _).keeps
    unfold listOnClass
    split
    · exact keeps_modifyClass g t.path fun d => by rfl
    · exact .refl g
  | addTypeParameter owner name bounds =>
    rw [apply]
    exact keeps_addTypeParameter g owner name bounds
  | setFunctionModifiers t modifiers =>
    rw [apply]
    exact keeps_modifyFunction g t.path fun d => by rfl
  | addUnit unit => exact ⟨fun s => rfl, fun s => rfl, fun C _ => rfl⟩

end

/-- A step changes the lasting part of a function only if it adds the function. -/
theorem lastingPart_apply (g : SymbolGraph) (e : Edit) {s : Symbol}
    (hs : ∀ C a, e.member? = some (C, a) → s ≠ g.nextMember C a.name) :
    ((g.apply e).functionDeclaration? s).map lastingPart
      = (g.functionDeclaration? s).map lastingPart := by
  cases ha : e.member? with
  | none => exact (keeps_apply g ha).functions s
  | some added =>
    obtain ⟨C, a⟩ := added
    have hne : s ≠ g.nextMember C a.declaration.name := hs C a ha
    rw [apply_eq_addFunction ha, functionDeclaration?_addFunction, if_neg hne]

/-- A step changes a value parameter only if it adds the function of the parameter. -/
theorem valueParameter?_apply (g : SymbolGraph) (e : Edit) {s : Symbol}
    (hs : ∀ C a, e.member? = some (C, a) → ∀ i, s ≠ (g.nextMember C a.name).parameter i) :
    (g.apply e).valueParameter? s = g.valueParameter? s := by
  cases ha : e.member? with
  | none => exact (keeps_apply g ha).valueParameters s
  | some added =>
    obtain ⟨C, a⟩ := added
    rw [apply_eq_addFunction ha, valueParameter?_addFunction]
    exact valueParameter?_addParameters_of_ne (g.ensureClass C) (fun i _ => hs C a ha i) _

/-! ## The members of a class -/

theorem members_apply_of_declaresClass (g : SymbolGraph) (h : e.declaresClass C = true) :
    (g.apply e).members C = [] := by
  cases e with
  | addClass path kind =>
    rw [apply, members_insert g path rfl]
    exact if_pos (of_decide_eq_true h)
  | addNested outer path kind modifiers =>
    rw [apply, members_insert g path rfl]
    exact if_pos (of_decide_eq_true h)
  | _ => cases h

theorem members_apply_of_member? (g : SymbolGraph) (h : e.member? = some (C, a)) :
    (g.apply e).members C = g.members C ++ [g.nextMember C a.name] := by
  rw [apply_eq_addFunction h, members_addFunction]
  exact if_pos rfl

/-- A step that neither declares a class anew nor adds a member to it leaves its members alone. -/
theorem members_apply_of_none (g : SymbolGraph) (hdeclares : e.declaresClass C = false)
    (hadded : e.addedMember? C = none) : (g.apply e).members C = g.members C := by
  cases ha : e.member? with
  | none => exact (keeps_apply g ha).members C hdeclares
  | some added =>
    obtain ⟨path, a⟩ := added
    have hne : C ≠ path := by
      rintro rfl
      rw [Edit.addedMember?_eq_some_iff.2 ha] at hadded
      cases hadded
    rw [apply_eq_addFunction ha, members_addFunction, if_neg hne]

/-! ## All members -/

/-- Whether a graph has the members that were added to its classes, in order, with all that was said
about them. -/
structure Tracks (g : SymbolGraph) (added : String → List AddedMember) : Prop where
  members : ∀ C, g.members C = (added C).mapIdx fun i a => .member C a.name i
  declares : ∀ C i a, (added C)[i]? = some a → g.Declares (.member C a.name i) a
  unmarked : ∀ C, added C ≠ [] → '#' ∉ C.toList

theorem tracks_empty : Tracks ∅ fun _ => [] where
  members C := rfl
  declares C i a ha := by cases ha
  unmarked C hC := absurd rfl hC

namespace Tracks

variable {added : String → List AddedMember}

theorem nextMember_eq (h : Tracks g added) (C name : String) :
    g.nextMember C name = .member C name (added C).length := by
  rw [nextMember, h.members, List.length_mapIdx]

/-- The next member of a class is none of those that there are. -/
theorem member_ne_nextMember (h : Tracks g added) {C C' name name' : String} {i : Nat}
    (hi : i < (added C).length) (hC' : '#' ∉ C'.toList) :
    Symbol.member C name i ≠ g.nextMember C' name' := by
  intro heq
  have hC : '#' ∉ C.toList := h.unmarked C (List.ne_nil_of_length_pos (by omega))
  rw [h.nextMember_eq] at heq
  obtain ⟨rfl, -, rfl⟩ := Symbol.member_inj hC hC' heq
  exact Nat.lt_irrefl _ hi

/-- A step leaves alone the members that there are. -/
theorem declares_of_lt (h : Tracks g added)
    (he : ∀ added ∈ e.member?, '#' ∉ added.1.toList) {i : Nat} (hi : i < (added C).length)
    (ha : (added C)[i]? = some a) :
    (g.apply e).Declares (.member C a.name i) a := by
  have hdeclares := h.declares C i a ha
  have hne : ∀ C' a', e.member? = some (C', a') →
      Symbol.member C a.name i ≠ g.nextMember C' a'.name := fun C' a' ha' =>
    h.member_ne_nextMember hi (he (C', a') ha')
  constructor
  · rw [lastingPart_apply g e hne]
    exact hdeclares.function
  · rw [← hdeclares.parameters]
    refine List.map_congr_left fun j _ => ?_
    refine valueParameter?_apply g e fun C' a' ha' k heq => ?_
    -- a parameter has the path of its function in its own
    have hpath := (Symbol.parameter_inj heq).1
    exact hne C' a' ha' (Symbol.mk.injEq .. ▸ ⟨rfl, hpath⟩)

/-- A graph still has the members that were added after one step more. -/
theorem apply (h : Tracks g added) (he : ∀ added ∈ e.member?, '#' ∉ added.1.toList) :
    Tracks (g.apply e) fun C =>
      if e.declaresClass C then [] else added C ++ (e.addedMember? C).toList where
  members C := by
    cases hdeclares : e.declaresClass C with
    | true => exact members_apply_of_declaresClass g hdeclares
    | false =>
      cases hadded : e.addedMember? C with
      | none =>
        rw [members_apply_of_none g hdeclares hadded, h.members]
        simp
      | some a =>
        have hmember := Edit.addedMember?_eq_some_iff.1 hadded
        rw [members_apply_of_member? g hmember, h.members, h.nextMember_eq]
        simp [List.mapIdx_append]
  declares C i a ha := by
    split at ha
    · cases ha
    · rw [List.getElem?_append] at ha
      split at ha
      · next hi => exact h.declares_of_lt he hi ha
      · next hi =>
        cases hadded : e.addedMember? C with
        | none => simp [hadded] at ha
        | some a' =>
          rw [hadded, Option.toList_some, List.getElem?_singleton] at ha
          split at ha
          · next hlast =>
            cases ha
            have hi' : i = (added C).length := by omega
            rw [hi', ← h.nextMember_eq]
            exact declares_apply (Edit.addedMember?_eq_some_iff.1 hadded)
          · cases ha
  unmarked C hC := by
    split at hC
    · exact absurd rfl hC
    · cases hadded : e.addedMember? C with
      | some a => exact he (C, a) (Edit.addedMember?_eq_some_iff.1 hadded)
      | none =>
        rw [hadded] at hC
        exact h.unmarked C (by simpa using hC)

end Tracks

/-- The members that a graph has are those that its steps added. -/
theorem tracks_ofEdits {edits : List Edit}
    (h : ∀ e ∈ edits, ∀ added ∈ e.member?, '#' ∉ added.1.toList) :
    Tracks (ofEdits edits) fun C => addedMembers C edits := by
  -- the last step decides whether the steps before it still count
  induction edits using List.reverseRecOn with
  | nil => exact tracks_empty
  | append_singleton edits e ih =>
    obtain ⟨hedits, he⟩ := List.forall_mem_append.1 h
    have hstep := (ih hedits).apply (he e (List.mem_singleton.2 rfl))
    simp only [addedMembers_append_singleton]
    rw [ofEdits, List.foldl_concat]
    exact hstep

/-- Whether a symbol names a function with the name, the result and the parameters that a step gave
it. The parameters are different symbols, and what they name is what the step said. -/
def Carries (g : SymbolGraph) (f : Symbol) (a : AddedMember) : Prop :=
  ∃ d, g.functionDeclaration? f = some d ∧ d.name = a.name ∧
    d.isConstructor = a.isConstructor ∧ d.returnType = a.returnType ∧ d.parameters.Nodup ∧
    d.parameters.map g.valueParameter? = a.parameters.map some

theorem Declares.carries {f : Symbol} (h : g.Declares f a) : g.Carries f a := by
  obtain ⟨d, hd, hlasting⟩ := Option.map_eq_some_iff.1 h.function
  have hname : d.name = a.name := congrArg FunctionDeclaration.name hlasting
  have hflag : d.isConstructor = a.isConstructor :=
    congrArg FunctionDeclaration.isConstructor hlasting
  have hreturn : d.returnType = a.returnType := congrArg FunctionDeclaration.returnType hlasting
  have hparameters : d.parameters = (List.range a.parameters.length).map f.parameter :=
    congrArg FunctionDeclaration.parameters hlasting
  refine ⟨d, hd, hname, hflag, hreturn, ?_, ?_⟩
  · rw [hparameters]
    exact List.nodup_range.map fun i j hij => (Symbol.parameter_inj hij).2
  · rw [hparameters, List.map_map]
    exact h.parameters

/-- In a graph that is made by steps, a class has one member for each constructor or method that was
added to it since it was last declared anew, in the order of the steps. No two of them are the same
symbol, and each is a function with the name, the result and the parameters that its own step gave
it, whatever was done before, in between and afterwards. The paths of classes that members are added
to must have no `#` in them. -/
theorem members_ofEdits {edits : List Edit}
    (h : ∀ e ∈ edits, ∀ added ∈ e.member?, '#' ∉ added.1.toList) (C : String) :
    List.Forall₂ (ofEdits edits).Carries ((ofEdits edits).members C) (addedMembers C edits) ∧
      ((ofEdits edits).members C).Nodup := by
  have htracks := tracks_ofEdits h
  have hlength : ((ofEdits edits).members C).length = (addedMembers C edits).length := by
    rw [htracks.members, List.length_mapIdx]
  constructor
  · refine List.forall₂_iff_get.2 ⟨hlength, fun i hi hi' => ?_⟩
    have hmember : ((ofEdits edits).members C).get ⟨i, hi⟩
        = .member C (addedMembers C edits)[i].name i := by
      simp [htracks.members]
    rw [hmember]
    exact (htracks.declares C i _ (List.getElem?_eq_getElem hi')).carries
  · rw [List.Nodup, List.pairwise_iff_getElem]
    intro i j hi hj hij heq
    have hC : '#' ∉ C.toList := htracks.unmarked C fun hnil => by
      rw [hlength, hnil] at hi
      cases hi
    simp only [htracks.members, List.getElem_mapIdx] at heq
    obtain ⟨-, -, hposition⟩ := Symbol.member_inj hC hC heq
    omega

/-- A class that is declared anew after it got a member, and then gets two members. Their names and
those of their parameters have a `#` or `/` in them, and another class gets a member in between. -/
def shelfEdits : List Edit := [
  .addMethod "Shelf" "put#1" .unresolved [{ name := some "item/0", type := .unresolved }],
  .addClass "Shelf" .plain,
  .addConstructor "Shelf" [{ name := none, type := .unresolved }],
  .addMethod "Box" "put#1" .unresolved [],
  .addMethod "Shelf" "put#1" (.declared (.ofClass "Box") [])
    [{ name := some "item/0", type := .declared (.ofClass "Box") [] },
      { name := none, type := .unresolved }],
  .addTypeParameter (.member "Shelf" "put#1" 1) "T" [],
  .addNested "Shelf" "Inner" .plain []]

/-- The method of the redeclared class is the second of its members, and it has two parameters. -/
theorem members_ofEdits_shelf :
    (∀ e ∈ shelfEdits, ∀ added ∈ e.member?, '#' ∉ added.1.toList) ∧
      ∃ constructor method, addedMembers "Shelf" shelfEdits = [constructor, method] ∧
      method.name = "put#1" ∧ method.parameters.length = 2 ∧
      (ofEdits shelfEdits).members "Shelf"
        = [.member "Shelf" "<init>" 0, .member "Shelf" "put#1" 1] ∧
      (ofEdits shelfEdits).Carries (.member "Shelf" "put#1" 1) method ∧
      ((ofEdits shelfEdits).members "Shelf").Nodup := by
  have hunmarked : ∀ e ∈ shelfEdits, ∀ added ∈ e.member?, '#' ∉ added.1.toList := by decide
  obtain ⟨hmembers, hnodup⟩ := members_ofEdits hunmarked "Shelf"
  refine ⟨hunmarked, _, _, rfl, rfl, rfl, rfl, ?_, hnodup⟩
  cases hmembers with
  | cons _ hrest =>
    cases hrest with
    | cons hmethod _ => exact hmethod

end SymbolGraph

end BeanProcessing
