import BeanProcessing.Proofs.Key.Readability
import BeanProcessing.SymbolGraph.Edit

/-!
# Declarations of edited graphs

What each change of a graph does to the declarations that its symbols name. A change is about one
kind of declaration at one path, and leaves all others as they are. Where a declaration stands and
what it is annotated with is no part of it.

The paths of members and parameters end in a position. They can be read back from the right, so two
parameters have one path only if they are the same parameter of functions at the same path, and two
members only if they are the same member of the same class, as long as there is no `#` in the paths
of their classes.
-/

namespace BeanProcessing

/-! ## Paths -/

theorem toList_toString_inj {m n : Nat} (h : (toString m).toList = (toString n).toList) :
    m = n := by
  have hdigits : Nat.toDigits 10 m = Nat.toDigits 10 n := by simpa using h
  simpa using congrArg (Nat.ofDigitChars 10 · 0) hdigits

theorem isDigit_of_mem_toString {n : Nat} {c : Char} (h : c ∈ (toString n).toList) :
    c.isDigit = true := by
  rw [Nat.toString_eq_repr, Nat.toList_repr] at h
  exact Nat.isDigit_of_mem_toDigits (by decide) (by decide) h

/-- A text splits in one way at the first of some marks. -/
theorem append_cons_inj {mark : Char} {a b x y : List Char} (ha : mark ∉ a) (hb : mark ∉ b)
    (h : a ++ mark :: x = b ++ mark :: y) : a = b ∧ x = y := by
  have hfree : ∀ l : List Char, mark ∉ l → ∀ c ∈ l, c ∉ [mark] := fun l hl c hc hmark =>
    hl (List.mem_singleton.1 hmark ▸ hc)
  have hstarts : ∀ l, StartsIn [mark] (mark :: l) := fun l => startsIn_cons.2 List.mem_cons_self
  obtain ⟨hab, hrest⟩ := append_inj_of_marks (hfree a ha) (hfree b hb) (hstarts x) (hstarts y) h
  exact ⟨hab, (List.cons.inj hrest).2⟩

/-- A text splits in one way at the last of some marks. -/
theorem append_cons_inj_right {mark : Char} {a b x y : List Char} (hx : mark ∉ x) (hy : mark ∉ y)
    (h : a ++ mark :: x = b ++ mark :: y) : a = b ∧ x = y := by
  have hreverse : x.reverse ++ mark :: a.reverse = y.reverse ++ mark :: b.reverse := by
    simpa using congrArg List.reverse h
  obtain ⟨hxy, hab⟩ := append_cons_inj (by simpa using hx) (by simpa using hy) hreverse
  exact ⟨List.reverse_inj.1 hab, List.reverse_inj.1 hxy⟩

namespace Symbol

theorem parameter_inj {f f' : Symbol} {i j : Nat} (h : f.parameter i = f'.parameter j) :
    f.path = f'.path ∧ i = j := by
  have hpath : f.path.toList ++ '/' :: (toString i).toList
      = f'.path.toList ++ '/' :: (toString j).toList := by
    simpa [parameter, ofValueParameter] using congrArg (String.toList ·.path) h
  have hdigits : ∀ n : Nat, '/' ∉ (toString n).toList := fun n hn => by
    simpa using isDigit_of_mem_toString hn
  obtain ⟨hf, hij⟩ := append_cons_inj_right (hdigits i) (hdigits j) hpath
  exact ⟨String.toList_inj.1 hf, toList_toString_inj hij⟩

theorem member_inj {C C' name name' : String} {i j : Nat} (hC : '#' ∉ C.toList)
    (hC' : '#' ∉ C'.toList) (h : member C name i = member C' name' j) :
    C = C' ∧ name = name' ∧ i = j := by
  have hpath : (C.toList ++ '#' :: name.toList) ++ '#' :: (toString i).toList
      = (C'.toList ++ '#' :: name'.toList) ++ '#' :: (toString j).toList := by
    simpa [member, ofFunction] using congrArg (String.toList ·.path) h
  have hdigits : ∀ n : Nat, '#' ∉ (toString n).toList := fun n hn => by
    simpa using isDigit_of_mem_toString hn
  -- the name may have marks in it, so it is what is left between the first and the last
  obtain ⟨hnames, hij⟩ := append_cons_inj_right (hdigits i) (hdigits j) hpath
  obtain ⟨hclass, hname⟩ := append_cons_inj hC hC' hnames
  exact ⟨String.toList_inj.1 hclass, String.toList_inj.1 hname, toList_toString_inj hij⟩

end Symbol

namespace SymbolGraph

/-! ## Declarations in tables -/

section

variable {δ : Type} (kind : SymbolKind) (t : Table String (Entry δ)) (path : String) (s : Symbol)

/-- The declaration that a symbol names in the table for one kind of symbols. -/
def declarationIn : Option δ :=
  if s.kind = kind then (t.get? s.path).map (·.declaration) else none

theorem declarationIn_insert (entry : Entry δ) :
    declarationIn kind (t.insert path entry) s
      = if s = ⟨kind, path⟩ then some entry.declaration else declarationIn kind t s := by
  obtain ⟨kind', path'⟩ := s
  simp only [declarationIn, Table.get?_insert, Symbol.mk.injEq, eq_comm (a := path)]
  by_cases hkind : kind' = kind <;> by_cases hpath : path' = path <;> simp [hkind, hpath]

variable {change : Entry δ → Entry δ} {f : δ → δ}

theorem declarationIn_modify (h : ∀ entry, (change entry).declaration = f entry.declaration) :
    declarationIn kind (t.modify path change) s
      = if s = ⟨kind, path⟩ then (declarationIn kind t s).map f else declarationIn kind t s := by
  obtain ⟨kind', path'⟩ := s
  simp only [declarationIn, Table.get?_modify, Symbol.mk.injEq, eq_comm (a := path)]
  by_cases hkind : kind' = kind <;> by_cases hpath : path' = path <;>
    simp [hkind, hpath, Function.comp_def, h]

/-- A change of placements leaves the declarations as they are. -/
theorem declarationIn_modify_eq (h : ∀ entry, (change entry).declaration = entry.declaration) :
    declarationIn kind (t.modify path change) s = declarationIn kind t s := by
  rw [declarationIn_modify kind t path s (f := id) h]
  simp

end

variable (g : SymbolGraph) (s : Symbol)

theorem classDeclaration?_eq : g.classDeclaration? s = declarationIn .classType g.classes s := by
  unfold classDeclaration? declarationIn
  cases s.kind <;> rfl

theorem functionDeclaration?_eq :
    g.functionDeclaration? s = declarationIn .function g.functions s := by
  unfold functionDeclaration? declarationIn
  cases s.kind <;> rfl

theorem valueParameter?_eq :
    g.valueParameter? s = declarationIn .valueParameter g.valueParameters s := by
  unfold valueParameter? declarationIn
  cases s.kind <;> rfl

theorem typeParameter?_eq :
    g.typeParameter? s = declarationIn .typeParameter g.typeParameters s := by
  unfold typeParameter? declarationIn
  cases s.kind <;> rfl

theorem contains_iff : g.contains s = true ↔ (g.classDeclaration? s).isSome ∨
    (g.functionDeclaration? s).isSome ∨ (g.valueParameter? s).isSome ∨
    (g.typeParameter? s).isSome := by
  unfold contains placement? classDeclaration? functionDeclaration? valueParameter?
    typeParameter?
  cases s.kind <;> simp

theorem members_eq (path : String) :
    g.members path = ((g.classDeclaration? (.ofClass path)).map (·.members)).getD [] := by
  unfold members
  show _ = (((g.classes.get? path).map (·.declaration)).map (·.members)).getD []
  cases g.classes.get? path <;> rfl

/-! ## Changes of one declaration -/

/-- Whether the symbols name the same declarations in two graphs. -/
structure SameDeclarations (g g' : SymbolGraph) : Prop where
  classes : ∀ s, g'.classDeclaration? s = g.classDeclaration? s
  functions : ∀ s, g'.functionDeclaration? s = g.functionDeclaration? s
  valueParameters : ∀ s, g'.valueParameter? s = g.valueParameter? s
  typeParameters : ∀ s, g'.typeParameter? s = g.typeParameter? s

theorem sameDeclarations_modifyPlacement (f : Placement → Placement) :
    SameDeclarations g (g.modifyPlacement s f) := by
  unfold modifyPlacement
  cases s.kind with
  | classType =>
    refine ⟨fun t => ?_, fun t => rfl, fun t => rfl, fun t => rfl⟩
    rw [classDeclaration?_eq, classDeclaration?_eq]
    exact declarationIn_modify_eq .classType g.classes s.path t fun _ => rfl
  | function =>
    refine ⟨fun t => rfl, fun t => ?_, fun t => rfl, fun t => rfl⟩
    rw [functionDeclaration?_eq, functionDeclaration?_eq]
    exact declarationIn_modify_eq .function g.functions s.path t fun _ => rfl
  | valueParameter =>
    refine ⟨fun t => rfl, fun t => rfl, fun t => ?_, fun t => rfl⟩
    rw [valueParameter?_eq, valueParameter?_eq]
    exact declarationIn_modify_eq .valueParameter g.valueParameters s.path t fun _ => rfl
  | typeParameter =>
    refine ⟨fun t => rfl, fun t => rfl, fun t => rfl, fun t => ?_⟩
    rw [typeParameter?_eq, typeParameter?_eq]
    exact declarationIn_modify_eq .typeParameter g.typeParameters s.path t fun _ => rfl

theorem classDeclaration?_modifyClass (path : String)
    (f : ClassDeclaration → ClassDeclaration) :
    (g.modifyClass path f).classDeclaration? s
      = if s = .ofClass path then (g.classDeclaration? s).map f else g.classDeclaration? s := by
  rw [classDeclaration?_eq, classDeclaration?_eq]
  exact declarationIn_modify .classType g.classes path s fun _ => rfl

theorem functionDeclaration?_modifyFunction (path : String)
    (f : FunctionDeclaration → FunctionDeclaration) :
    (g.modifyFunction path f).functionDeclaration? s
      = if s = .ofFunction path then (g.functionDeclaration? s).map f
        else g.functionDeclaration? s := by
  rw [functionDeclaration?_eq, functionDeclaration?_eq]
  exact declarationIn_modify .function g.functions path s fun _ => rfl

/-! ## New declarations -/

theorem classDeclaration?_insert (path : String) (entry : Entry ClassDeclaration) :
    { g with classes := g.classes.insert path entry }.classDeclaration? s
      = if s = .ofClass path then some entry.declaration else g.classDeclaration? s := by
  rw [classDeclaration?_eq, classDeclaration?_eq]
  exact declarationIn_insert .classType g.classes path s entry

theorem functionDeclaration?_insert (path : String) (entry : Entry FunctionDeclaration) :
    { g with functions := g.functions.insert path entry }.functionDeclaration? s
      = if s = .ofFunction path then some entry.declaration else g.functionDeclaration? s := by
  rw [functionDeclaration?_eq, functionDeclaration?_eq]
  exact declarationIn_insert .function g.functions path s entry

theorem valueParameter?_insert (path : String) (entry : Entry ValueParameterDeclaration) :
    { g with valueParameters := g.valueParameters.insert path entry }.valueParameter? s
      = if s = .ofValueParameter path then some entry.declaration else g.valueParameter? s := by
  rw [valueParameter?_eq, valueParameter?_eq]
  exact declarationIn_insert .valueParameter g.valueParameters path s entry

theorem typeParameter?_insert (path : String) (entry : Entry TypeParameterDeclaration) :
    { g with typeParameters := g.typeParameters.insert path entry }.typeParameter? s
      = if s = .ofTypeParameter path then some entry.declaration else g.typeParameter? s := by
  rw [typeParameter?_eq, typeParameter?_eq]
  exact declarationIn_insert .typeParameter g.typeParameters path s entry

/-- A class that is there stays as it is, and one that is not becomes a plain class. -/
theorem classDeclaration?_ensureClass (path : String) :
    (g.ensureClass path).classDeclaration? s
      = if s = .ofClass path then some ((g.classDeclaration? s).getD { qualifiedName := path })
        else g.classDeclaration? s := by
  unfold ensureClass Table.insertIfNew
  have hfound : g.classDeclaration? (.ofClass path)
      = (g.classes.get? path).map (·.declaration) := rfl
  cases hget : g.classes.get? path with
  | none =>
    rw [if_neg (by simp [Table.contains, hget]), classDeclaration?_insert]
    split
    · next hs => simp [hs, hfound, hget]
    · rfl
  | some entry =>
    rw [if_pos (by simp [Table.contains, hget])]
    split
    · next hs => simp [hs, hfound, hget]
    · rfl

/-! ## Parameters of functions -/

theorem classDeclaration?_addParameters (f : Symbol) (n : Nat)
    (parameters : List ValueParameterDeclaration) :
    (g.addParameters f n parameters).classDeclaration? s = g.classDeclaration? s := by
  induction parameters generalizing g n with
  | nil => rfl
  | cons p rest ih => exact ih _ (n + 1)

theorem functionDeclaration?_addParameters (f : Symbol) (n : Nat)
    (parameters : List ValueParameterDeclaration) :
    (g.addParameters f n parameters).functionDeclaration? s = g.functionDeclaration? s := by
  induction parameters generalizing g n with
  | nil => rfl
  | cons p rest ih => exact ih _ (n + 1)

/-- Nothing is declared but parameters of the function, from the first position on. -/
theorem valueParameter?_addParameters_of_ne {s f : Symbol} {n : Nat}
    (hs : ∀ i, n ≤ i → s ≠ f.parameter i) (parameters : List ValueParameterDeclaration) :
    (g.addParameters f n parameters).valueParameter? s = g.valueParameter? s := by
  induction parameters generalizing g n with
  | nil => rfl
  | cons p rest ih =>
    have hfirst : s ≠ .ofValueParameter (f.parameter n).path := hs n (Nat.le_refl n)
    unfold addParameters
    dsimp only
    rw [ih _ fun i hi => hs i (Nat.le_of_succ_le hi), valueParameter?_insert, if_neg hfirst]

/-- The parameters of a function are declared at the positions that follow the first. -/
theorem valueParameter?_addParameters (f : Symbol) (n : Nat)
    (parameters : List ValueParameterDeclaration) :
    (List.range parameters.length).map
        (fun i => (g.addParameters f n parameters).valueParameter? (f.parameter (n + i)))
      = parameters.map some := by
  induction parameters generalizing g n with
  | nil => rfl
  | cons p rest ih =>
    rw [List.length_cons, List.range_succ_eq_map, List.map_cons, List.map_map, List.map_cons,
      ← ih _ (n + 1)]
    congr 1
    · -- the parameters behind it are at other positions
      have hlater : ∀ i, n + 1 ≤ i → f.parameter n ≠ f.parameter i := fun i hi heq => by
        have hni := (Symbol.parameter_inj heq).2
        omega
      show (addParameters _ f (n + 1) rest).valueParameter? (f.parameter n) = some p
      rw [valueParameter?_addParameters_of_ne _ hlater, valueParameter?_insert]
      exact if_pos rfl
    · refine List.map_congr_left fun i _ => ?_
      show (g.addParameters f n (p :: rest)).valueParameter? (f.parameter (n + (i + 1))) = _
      rw [show n + (i + 1) = n + 1 + i by omega]
      rfl

/-! ## Steps that declare and list -/

/-- The graph with a type parameter that is not listed yet. -/
def declareTypeParameter (owner : Symbol) (name : String) (bounds : List TypeUse) : SymbolGraph :=
  { g with
    typeParameters := g.typeParameters.insert (owner.typeParameter name).path
      { declaration := { name, bounds }, placement := { enclosing := some owner } } }

/-- It does not matter that a type parameter is listed before it is declared. -/
theorem addTypeParameter_eq {owner : Symbol} (h : owner.kind = .classType ∨ owner.kind = .function)
    (name : String) (bounds : List TypeUse) :
    g.addTypeParameter owner name bounds
      = (g.declareTypeParameter owner name bounds).listTypeParameter owner
          (owner.typeParameter name) := by
  unfold addTypeParameter listTypeParameter
  dsimp only
  rw [if_pos h]
  cases owner.kind <;> rfl

theorem typeParameter?_declareTypeParameter (owner : Symbol) (name : String)
    (bounds : List TypeUse) :
    (g.declareTypeParameter owner name bounds).typeParameter? s
      = if s = owner.typeParameter name then some ⟨name, bounds⟩ else g.typeParameter? s :=
  typeParameter?_insert g s (owner.typeParameter name).path _

/-- The symbol that the next member of a class gets. -/
def nextMember (classPath name : String) : Symbol :=
  .member classPath name (g.members classPath).length

/-- A function with the parameters that are declared for it. -/
def withParameters (f : Symbol) (d : FunctionDeclaration)
    (parameters : List ValueParameterDeclaration) : FunctionDeclaration :=
  { d with parameters := (List.range parameters.length).map f.parameter }

/-- The graph with a function and its parameters that is not listed yet. -/
def declareFunction (classPath : String) (f : Symbol) (d : FunctionDeclaration)
    (parameters : List ValueParameterDeclaration) : SymbolGraph :=
  let g := g.addParameters f 0 parameters
  { g with
    functions := g.functions.insert f.path
      { declaration := withParameters f d parameters
        placement := { enclosing := some (.ofClass classPath) } } }

theorem members_ensureClass (path path' : String) :
    (g.ensureClass path).members path' = g.members path' := by
  rw [members_eq, members_eq, classDeclaration?_ensureClass]
  split
  · cases g.classDeclaration? (.ofClass path') <;> rfl
  · rfl

theorem addFunction_eq (classPath : String) (d : FunctionDeclaration)
    (parameters : List ValueParameterDeclaration) :
    g.addFunction classPath d parameters
      = ((g.ensureClass classPath).declareFunction classPath (g.nextMember classPath d.name) d
          parameters).modifyClass classPath
            fun c => { c with members := c.members ++ [g.nextMember classPath d.name] } := by
  rw [nextMember, ← members_ensureClass g classPath classPath]
  rfl

variable (classPath : String) (f : Symbol) (d : FunctionDeclaration)
  (parameters : List ValueParameterDeclaration)

theorem functionDeclaration?_declareFunction :
    (g.declareFunction classPath f d parameters).functionDeclaration? s
      = if s = .ofFunction f.path then some (withParameters f d parameters)
        else g.functionDeclaration? s := by
  rw [← functionDeclaration?_addParameters g s f 0 parameters]
  exact functionDeclaration?_insert (g.addParameters f 0 parameters) s f.path _

theorem functionDeclaration?_addFunction :
    (g.addFunction classPath d parameters).functionDeclaration? s
      = if s = g.nextMember classPath d.name
        then some (withParameters (g.nextMember classPath d.name) d parameters)
        else g.functionDeclaration? s := by
  rw [addFunction_eq]
  exact functionDeclaration?_declareFunction (g.ensureClass classPath) s classPath
    (g.nextMember classPath d.name) d parameters

/-- Listing a function and ensuring its class leave the value parameters as they are. -/
theorem valueParameter?_addFunction :
    (g.addFunction classPath d parameters).valueParameter? s
      = ((g.ensureClass classPath).addParameters (g.nextMember classPath d.name) 0
          parameters).valueParameter? s := by
  rw [addFunction_eq]
  rfl

theorem members_addFunction (path : String) :
    (g.addFunction classPath d parameters).members path
      = if path = classPath then g.members path ++ [g.nextMember classPath d.name]
        else g.members path := by
  have hclasses : ∀ s, ((g.ensureClass classPath).declareFunction classPath
      (g.nextMember classPath d.name) d parameters).classDeclaration? s
        = (g.ensureClass classPath).classDeclaration? s := fun s =>
    classDeclaration?_addParameters (g.ensureClass classPath) s _ 0 parameters
  rw [addFunction_eq, members_eq, classDeclaration?_modifyClass, hclasses,
    classDeclaration?_ensureClass, members_eq]
  by_cases hpath : path = classPath
  · subst hpath
    cases g.classDeclaration? (.ofClass path) <;> simp
  · have hne : Symbol.ofClass path ≠ .ofClass classPath := fun h => hpath (congrArg Symbol.path h)
    rw [if_neg hne, if_neg hne, if_neg hpath]

end SymbolGraph

end BeanProcessing
