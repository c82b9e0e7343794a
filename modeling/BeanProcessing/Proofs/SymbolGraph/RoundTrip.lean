import BeanProcessing.Proofs.Json.Record
import BeanProcessing.Proofs.Json.Text
import BeanProcessing.SymbolGraph.Json

/-!
# A graph is read back from its text

Every part of a graph is read back from the JSON value that is written for it: symbols, type uses,
names and annotations, the four kinds of declaration, and the entries and tables that hold them. The
values are `Printable`, so the way through the text changes nothing.

The one thing that a text cannot hold is a number of dimensions beyond 64 bits; `SymbolGraph.Fits`
rules it out.
-/

namespace BeanProcessing

open Json

/-! ## Words -/

theorem SymbolKind.ofTag?_tag (k : SymbolKind) : ofTag? k.tag = some k := by
  cases k <;> rfl

theorem ClassKind.ofTag?_tag (k : ClassKind) : ofTag? k.tag = some k := by
  cases k <;> rfl

theorem Modifier.ofTag?_tag (m : Modifier) : ofTag? m.tag = some m := by
  cases m <;> rfl

theorem Language.ofName?_name (l : Language) : ofName? l.name = some l := by
  cases l <;> rfl

theorem Modifier.listOfJson_map (isNested : Bool) (modifiers : List Modifier) :
    listOfJson isNested (.array (modifiers.map (.string ·.tag))) = .ok modifiers :=
  asList_map fun m _ => asChoice_string isNested (ofTag?_tag m)

theorem asList_asString (names : List String) :
    asList asString (.array (names.map .string)) = .ok names :=
  asList_map fun _ _ => rfl

/-! ## Symbols -/

theorem Symbol.ofJson_toJson (isNested : Bool) (s : Symbol) :
    ofJson isNested s.toJson = .ok s := by
  have hkind : kindOfJson isNested false (.string s.kind.tag) = .ok s.kind :=
    asChoice_string isNested s.kind.ofTag?_tag
  -- the path is kept as it is until the record is complete
  have hitems : readItems .data {} (knownFields isNested false)
      [.string s.kind.tag, .string s.path]
      = .ok ([], { kind? := some s.kind, path? := some (.string s.path) }) := by
    have hread : (do
        let kind ← kindOfJson isNested false (.string s.kind.tag)
        return ({ kind? := some kind } : Draft)) = .ok { kind? := some s.kind } := by
      rw [hkind]
      rfl
    exact readItems_cons hread (readItems_cons rfl rfl)
  have hrecord : asRecord isNested (knownFields isNested false) {} s.toJson = .ok _ :=
    asRecord_of_fields (by cases isNested <;> decide) rfl hitems
  show (asRecord isNested (knownFields isNested false) {} s.toJson >>= _) = _
  rw [hrecord]
  rfl

theorem Symbol.listOfJson_listToJson (isNested : Bool) (symbols : List Symbol) :
    listOfJson isNested (listToJson symbols) = .ok symbols :=
  asList_map fun s _ => ofJson_toJson isNested s

theorem Symbol.printable_toJson (s : Symbol) : s.toJson.Printable :=
  ⟨trivial, trivial, trivial⟩

theorem Symbol.printable_listToJson (symbols : List Symbol) : (listToJson symbols).Printable := by
  refine itemsPrintable_iff.2 fun item hitem => ?_
  obtain ⟨s, -, rfl⟩ := List.mem_map.1 hitem
  exact s.printable_toJson

theorem printable_strings {α : Type} (f : α → String) (l : List α) :
    (Json.array (l.map fun a => .string (f a))).Printable := by
  refine itemsPrintable_iff.2 fun item hitem => ?_
  obtain ⟨a, -, rfl⟩ := List.mem_map.1 hitem
  trivial

/-! ## Type uses -/

namespace TypeUse

mutual

/-- Whether every number of dimensions in a type use fits into 64 bits. -/
def Fits : TypeUse → Prop
  | declared _ arguments => AllFit arguments
  | typeVariable _ => True
  | array element dimensions => element.Fits ∧ dimensions < Nat.pow 2 64
  | unresolved => True

/-- Whether each of some type uses fits. -/
def AllFit : List TypeUse → Prop
  | [] => True
  | use :: rest => use.Fits ∧ AllFit rest

end

mutual

theorem printable_toJson : ∀ use : TypeUse, use.Fits → use.toJson.Printable
  | declared s [], _ => ⟨trivial, s.printable_toJson, trivial⟩
  | declared s (argument :: rest), h =>
    ⟨trivial, s.printable_toJson,
      ⟨printable_toJson argument h.1, printable_toJsons rest h.2⟩, trivial⟩
  | typeVariable s, _ => ⟨trivial, s.printable_toJson, trivial⟩
  | array element _, h => ⟨trivial, printable_toJson element h.1, h.2, trivial⟩
  | unresolved, _ => ⟨trivial, trivial⟩

theorem printable_toJsons : ∀ uses : List TypeUse, AllFit uses → ItemsPrintable (toJsons uses)
  | [], _ => trivial
  | use :: rest, h => ⟨printable_toJson use h.1, printable_toJsons rest h.2⟩

end

/-- The name of a form in a document. -/
def Form.tag : Form → String
  | declared => "declared"
  | typeVariable => "variable"
  | array => "array"
  | unresolved => "error"

theorem Form.ofName?_tag (form : Form) : ofName? form.tag = some form := by
  cases form <;> rfl

/-- The form of a type use. -/
def form : TypeUse → Form
  | declared _ _ => .declared
  | typeVariable _ => .typeVariable
  | array _ _ => .array
  | unresolved => .unresolved

/-- The fields of a type use that belong to its form. -/
def parts : TypeUse → List (String × Json)
  | declared s [] => [("symbol", s.toJson)]
  | declared s (argument :: rest) =>
    [("symbol", s.toJson), ("args", .array (toJsons (argument :: rest)))]
  | typeVariable s => [("symbol", s.toJson)]
  | array element dimensions => [("element", element.toJson), ("dimensions", .nat dimensions)]
  | unresolved => []

theorem toJson_eq (use : TypeUse) :
    use.toJson = .object (("type", .string use.form.tag) :: use.parts) := by
  cases use with
  | declared s arguments => cases arguments <;> simp [toJson, toJsons, form, parts, Form.tag]
  | _ => simp [toJson, form, parts, Form.tag]

theorem name_ne_type_of_mem_parts {use : TypeUse} {field : String × Json}
    (h : field ∈ use.parts) : field.1 ≠ "type" := by
  cases use with
  | declared s arguments => cases arguments <;> simp [parts] at h <;> grind
  | _ => simp [parts] at h <;> grind

theorem elementOf_skip {key : String} (h : key ≠ "element") (value : Json)
    (rest : List (String × Json)) : elementOf ((key, value) :: rest) = elementOf rest := by
  rw [elementOf, if_neg h]

theorem argumentsOf_skip {key : String} (h : key ≠ "args") (value : Json)
    (rest : List (String × Json)) : argumentsOf ((key, value) :: rest) = argumentsOf rest := by
  conv_lhs => unfold argumentsOf
  exact if_neg h

/-- What belongs to a form is read alike behind the field that names the form. -/
theorem ofParts_behind_form (form : Form) (value : Json) (fields : List (String × Json)) :
    ofParts form (("type", value) :: fields) (elementOf (("type", value) :: fields))
        (argumentsOf (("type", value) :: fields))
      = ofParts form fields (elementOf fields) (argumentsOf fields) := by
  rw [elementOf_skip (by decide), argumentsOf_skip (by decide)]
  cases form with
  | declared => rw [ofParts, ofParts, required_skip _ (by decide)]
  | typeVariable => rw [ofParts, ofParts, required_skip _ (by decide)]
  | array => rw [ofParts, ofParts, required_skip _ (by decide)]
  | unresolved => rfl

theorem ofTakenIn_of_parts {use : TypeUse}
    (h : ofParts use.form use.parts (elementOf use.parts) (argumentsOf use.parts) = .ok use) :
    ofTakenIn use.toJson = .ok use := by
  have hform : required (Form.ofJson true) "type" (("type", .string use.form.tag) :: use.parts)
      = .ok use.form :=
    (required_head _ _ fun _ => name_ne_type_of_mem_parts).trans
      (asTag_string true use.form.ofName?_tag)
  rw [toJson_eq, ofTakenIn, hform]
  exact (ofParts_behind_form _ _ _).trans h

mutual

/-- A type use is read back from the fields that belong to its form. -/
theorem ofParts_parts : ∀ use : TypeUse, use.Fits →
    ofParts use.form use.parts (elementOf use.parts) (argumentsOf use.parts) = .ok use
  | declared s [], _ => by
    rw [form, parts, ofParts, required_head _ _ (by simp), s.ofJson_toJson,
      argumentsOf_skip (by decide), argumentsOf]
    rfl
  | declared s (argument :: rest), h => by
    have harguments := listOfTakenIn_toJsons (argument :: rest) h
    rw [form, parts, ofParts, required_head _ _ (by simp), s.ofJson_toJson,
      argumentsOf_skip (by decide), argumentsOf, if_pos rfl]
    show (do return declared s (← listOfTakenIn (toJsons (argument :: rest)))) = _
    rw [harguments]
    rfl
  | typeVariable s, _ => by
    rw [form, parts, ofParts, required_head _ _ (by simp), s.ofJson_toJson]
    rfl
  | array element dimensions, h => by
    have helement := ofTakenIn_of_parts (ofParts_parts element h.1)
    have hword : asWord (.nat dimensions) = .ok dimensions := if_pos h.2
    rw [form, parts, ofParts, elementOf, if_pos rfl, if_neg (by simp), helement,
      required_skip _ (by decide), required_head _ _ (by simp)]
    show (asWord (.nat dimensions) >>= fun n => .ok (array element n)) = _
    rw [hword]
    rfl
  | unresolved, _ => rfl

theorem listOfTakenIn_toJsons : ∀ uses : List TypeUse, AllFit uses →
    listOfTakenIn (toJsons uses) = .ok uses
  | [], _ => by rw [toJsons, listOfTakenIn]
  | use :: rest, h => by
    rw [toJsons, listOfTakenIn, ofTakenIn_of_parts (ofParts_parts use h.1),
      listOfTakenIn_toJsons rest h.2]
    rfl

end

theorem keep_of_printable {value : Json} (h : value.Printable) (name : String) (d : Draft) :
    keep name value d = .ok { d with others := (name, value) :: d.others } := by
  rw [keep, takeIn_of_printable h]
  rfl

theorem printable_parts {use : TypeUse} (h : use.Fits) : FieldsPrintable use.parts := by
  have hprintable := use.printable_toJson h
  rw [toJson_eq] at hprintable
  exact hprintable.2

/-- A type use is read back. -/
theorem ofJson_toJson (isNested : Bool) {use : TypeUse} (h : use.Fits) :
    ofJson isNested use.toJson = .ok use := by
  have hparts := use.ofParts_parts h
  cases isNested with
  | true => exact ofTakenIn_of_parts hparts
  | false =>
    have hform : readItems .data {} [formField] [.string use.form.tag]
        = .ok ([], { form? := some use.form }) :=
      readItems_of (asTag_string false use.form.ofName?_tag) rfl
    have hfirst : readFields [formField] keep [] {} [("type", .string use.form.tag)]
        = .ok (["type"], { form? := some use.form }) :=
      readFields_known (by decide) (List.Sublist.refl _) rfl keep (fun _ _ => List.not_mem_nil)
        hform
    -- only the form is known at first; all other fields are kept, last first, for later
    have hothers : readFields [formField] keep ["type"] { form? := some use.form } use.parts
        = .ok (["type"], { form? := some use.form, others := use.parts.reverse ++ [] }) := by
      refine readFields_kept (fun kept => Draft.mk (some use.form) kept) ?_ ?_ _ []
      · intro field hfield known hknown
        rw [List.mem_singleton.1 hknown]
        exact (name_ne_type_of_mem_parts hfield).symm
      · intro field hfield kept
        have hprintable := fieldsPrintable_iff.1 (printable_parts h) field hfield
        exact keep_of_printable hprintable field.1 _
    have hread : readFields [formField] keep [] {}
        ([("type", .string use.form.tag)] ++ use.parts)
        = .ok (["type"], { form? := some use.form, others := use.parts.reverse ++ [] }) := by
      rw [readFields_append, hfirst]
      exact hothers
    rw [toJson_eq, ← List.singleton_append]
    unfold ofJson front
    rw [if_neg Bool.false_ne_true]
    dsimp only
    rw [hread, List.append_nil]
    show ofParts use.form use.parts.reverse.reverse _ _ = _
    rw [List.reverse_reverse]
    exact hparts

end TypeUse

/-! ## Names and annotations -/

namespace NameSet

theorem insertSorted_of_forall_lt {name : String} {l : List String} (h : ∀ x ∈ l, x < name) :
    insertSorted name l = l ++ [name] := by
  induction l with
  | nil => rfl
  | cons first rest ih =>
    obtain ⟨hfirst, hrest⟩ := List.forall_mem_cons.1 h
    rw [insertSorted, if_neg (String.lt_asymm hfirst), if_pos hfirst, ih hrest,
      List.cons_append]

theorem toList_foldl_insert (s : NameSet) {names : List String}
    (h : (s.toList ++ names).Pairwise (· < ·)) :
    (names.foldl insert s).toList = s.toList ++ names := by
  induction names generalizing s with
  | nil => rw [List.foldl_nil, List.append_nil]
  | cons name rest ih =>
    -- names come in order, so that each goes to the end of the set
    have hlt : ∀ x ∈ s.toList, x < name := fun x hx =>
      (List.pairwise_append.1 h).2.2 x hx name List.mem_cons_self
    have hinsert : (s.insert name).toList = s.toList ++ [name] := insertSorted_of_forall_lt hlt
    rw [List.append_cons, ← hinsert] at h ⊢
    exact ih (s.insert name) h

theorem ofJson_toJson (s : NameSet) : ofJson s.toJson = .ok s := by
  have hset : ofList s.toList = s := by
    have hlist : (ofList s.toList).toList = s.toList := toList_foldl_insert empty s.sorted
    cases s
    cases h : ofList _
    rw [h] at hlist
    cases hlist
    rfl
  rw [ofJson, toJson, asList_asString]
  exact congrArg Except.ok hset

theorem printable_toJson (s : NameSet) : s.toJson.Printable := printable_strings id s.toList

end NameSet

namespace AnnotationSet

theorem ofJson_toJson (s : AnnotationSet) : ofJson s.toJson = .ok s := by
  refine asRecord_of_fields (by decide) rfl ?_
  refine readItems_of s.declared.ofJson_toJson ?_
  refine readItems_of s.stereotypes.ofJson_toJson ?_
  rfl

theorem printable_toJson (s : AnnotationSet) : s.toJson.Printable :=
  ⟨s.declared.printable_toJson, s.stereotypes.printable_toJson, trivial⟩

end AnnotationSet

/-! ## Declarations -/

namespace ClassDeclaration

theorem ofJson_toFields (isNested : Bool) (d : ClassDeclaration) :
    ofJson isNested (.object d.toFields) = .ok d := by
  refine asRecord_of_fields (by cases isNested <;> decide) rfl ?_
  refine readItems_of rfl ?_
  refine readItems_of (asChoice_string isNested d.kind.ofTag?_tag) ?_
  refine readItems_of (Modifier.listOfJson_map isNested d.modifiers) ?_
  refine readItems_of (asList_asString d.annotations) ?_
  refine readItems_of (Symbol.listOfJson_listToJson isNested d.typeParameters) ?_
  refine readItems_of (Symbol.listOfJson_listToJson isNested d.members) ?_
  rfl

theorem printable_toFields (d : ClassDeclaration) : FieldsPrintable d.toFields :=
  ⟨trivial, trivial, printable_strings Modifier.tag d.modifiers, printable_strings id d.annotations,
    Symbol.printable_listToJson d.typeParameters, Symbol.printable_listToJson d.members, trivial⟩

end ClassDeclaration

namespace FunctionDeclaration

theorem ofJson_toFields (isNested : Bool) {d : FunctionDeclaration} (h : d.returnType.Fits) :
    ofJson isNested (.object d.toFields) = .ok d := by
  refine asRecord_of_fields (by cases isNested <;> decide) rfl ?_
  refine readItems_of rfl ?_
  refine readItems_of rfl ?_
  refine readItems_of (Modifier.listOfJson_map isNested d.modifiers) ?_
  refine readItems_of (Symbol.listOfJson_listToJson isNested d.typeParameters) ?_
  refine readItems_of (Symbol.listOfJson_listToJson isNested d.parameters) ?_
  refine readItems_of (TypeUse.ofJson_toJson isNested h) ?_
  rfl

theorem printable_toFields {d : FunctionDeclaration} (h : d.returnType.Fits) :
    FieldsPrintable d.toFields :=
  ⟨trivial, trivial, printable_strings Modifier.tag d.modifiers,
    Symbol.printable_listToJson d.typeParameters, Symbol.printable_listToJson d.parameters,
    d.returnType.printable_toJson h, trivial⟩

end FunctionDeclaration

namespace ValueParameterDeclaration

theorem asOption_name (name : Option String) :
    asOption asString ((name.map Json.string).getD .null) = .ok name := by
  cases name <;> rfl

theorem ofJson_toFields (isNested : Bool) {d : ValueParameterDeclaration} (h : d.type.Fits) :
    ofJson isNested (.object d.toFields) = .ok d := by
  refine asRecord_of_fields (by cases isNested <;> decide) rfl ?_
  refine readItems_of (asOption_name d.name) ?_
  refine readItems_of (TypeUse.ofJson_toJson isNested h) ?_
  rfl

theorem printable_toFields {d : ValueParameterDeclaration} (h : d.type.Fits) :
    FieldsPrintable d.toFields := by
  have hname : ((d.name.map Json.string).getD .null).Printable := by
    cases d.name <;> trivial
  exact ⟨hname, d.type.printable_toJson h, trivial⟩

end ValueParameterDeclaration

namespace TypeParameterDeclaration

theorem ofJson_toFields (isNested : Bool) {d : TypeParameterDeclaration}
    (h : ∀ bound ∈ d.bounds, bound.Fits) : ofJson isNested (.object d.toFields) = .ok d := by
  refine asRecord_of_fields (by cases isNested <;> decide) rfl ?_
  refine readItems_of rfl ?_
  refine readItems_of (asList_map fun bound hbound =>
    TypeUse.ofJson_toJson isNested (h bound hbound)) ?_
  rfl

theorem printable_toFields {d : TypeParameterDeclaration} (h : ∀ bound ∈ d.bounds, bound.Fits) :
    FieldsPrintable d.toFields := by
  refine ⟨trivial, itemsPrintable_iff.2 fun item hitem => ?_, trivial⟩
  obtain ⟨bound, hbound, rfl⟩ := List.mem_map.1 hitem
  exact bound.printable_toJson (h bound hbound)

end TypeParameterDeclaration

namespace CompilationUnit

theorem ofJson_toJson (u : CompilationUnit) : ofJson u.toJson = .ok u := by
  refine asRecord_of_fields (by decide) rfl ?_
  refine readItems_of rfl ?_
  refine readItems_of (asChoice_string false u.language.ofName?_name) ?_
  refine readItems_of (Symbol.listOfJson_listToJson false u.declarations) ?_
  rfl

theorem printable_toJson (u : CompilationUnit) : u.toJson.Printable :=
  ⟨trivial, trivial, Symbol.printable_listToJson u.declarations, trivial⟩

end CompilationUnit

/-! ## Entries -/

namespace Entry

theorem keep_of_printable {value : Json} (h : value.Printable) (name : String) (d : Draft) :
    keep name value d = .ok { d with others := (name, value) :: d.others } := by
  rw [keep, takeIn_of_printable h]
  rfl

/-- A placement is read back, whatever stands in front of its fields. -/
theorem readFields_placement (p : Placement) (others : List (String × Json)) :
    ∃ seen, readFields knownFields keep [] { others } p.toFields
      = .ok (seen, { placement := p, others }) := by
  obtain ⟨enclosing, annotations⟩ := p
  cases enclosing with
  | none =>
    have hitems : readItems .data { others } knownFields.tail [annotations.toJson]
        = .ok ([], { placement := { annotations }, others }) :=
      readItems_of annotations.ofJson_toJson rfl
    exact ⟨_, readFields_known (by decide) (List.tail_sublist knownFields) rfl keep
      (fun _ _ => List.not_mem_nil) hitems⟩
  | some outer =>
    have houter : asOption (Symbol.ofJson false) outer.toJson = .ok (some outer) := by
      show some <$> Symbol.ofJson false outer.toJson = _
      rw [outer.ofJson_toJson]
      rfl
    have hitems : readItems .data { others } knownFields [outer.toJson, annotations.toJson]
        = .ok ([], { placement := { enclosing := some outer, annotations }, others }) :=
      readItems_of houter (readItems_of annotations.ofJson_toJson rfl)
    exact ⟨_, readFields_known (by decide) (List.Sublist.refl knownFields) rfl keep
      (fun _ _ => List.not_mem_nil) hitems⟩

theorem printable_toFields (p : Placement) : FieldsPrintable p.toFields := by
  obtain ⟨enclosing, annotations⟩ := p
  cases enclosing with
  | none => exact ⟨annotations.printable_toJson, trivial⟩
  | some outer => exact ⟨outer.printable_toJson, annotations.printable_toJson, trivial⟩

/-- Whether a declaration is read back from the fields that are written for it, which keep clear of
those of a placement. -/
structure ReadsBack {δ : Type} (toFields : δ → List (String × Json))
    (ofJson : Json → Except Fault δ) (declaration : δ) : Prop where
  names : ∀ field ∈ toFields declaration, field.1 ≠ "enclosing" ∧ field.1 ≠ "metadata"
  printable : FieldsPrintable (toFields declaration)
  read : ofJson (.object (toFields declaration)) = .ok declaration

variable {δ : Type} {toFields : δ → List (String × Json)} {decode : Json → Except Fault δ}
  {e : Entry δ}

theorem ReadsBack.printable_toJson (h : ReadsBack toFields decode e.declaration) :
    (e.toJson toFields).Printable := by
  refine fieldsPrintable_iff.2 fun field hfield => ?_
  rcases List.mem_append.1 hfield with hfield | hfield
  · exact fieldsPrintable_iff.1 h.printable field hfield
  · exact fieldsPrintable_iff.1 (printable_toFields e.placement) field hfield

/-- An entry is read back if its declaration is. -/
theorem ReadsBack.ofJson_toJson (h : ReadsBack toFields decode e.declaration) :
    ofJson decode (e.toJson toFields) = .ok e := by
  -- the fields of the declaration are not those of an entry, and are kept for its decoder
  have hdeclaration : readFields knownFields keep [] {} (toFields e.declaration)
      = .ok ([], { others := (toFields e.declaration).reverse ++ [] }) := by
    refine readFields_kept (fun kept => Draft.mk {} kept) ?_ ?_ [] []
    · intro field hfield known hknown
      obtain ⟨henclosing, hmetadata⟩ := h.names field hfield
      rcases List.mem_pair.1 hknown with rfl | rfl
      · exact henclosing.symm
      · exact hmetadata.symm
    · intro field hfield kept
      exact keep_of_printable (fieldsPrintable_iff.1 h.printable field hfield) field.1 _
  obtain ⟨seen, hplacement⟩ :=
    readFields_placement e.placement ((toFields e.declaration).reverse ++ [])
  have hread : readFields knownFields keep [] {} (toFields e.declaration ++ e.placement.toFields)
      = .ok (seen, { placement := e.placement, others := (toFields e.declaration).reverse }) := by
    rw [readFields_append, hdeclaration]
    exact hplacement.trans (by rw [List.append_nil])
  unfold ofJson toJson front
  dsimp only
  rw [hread]
  show (decode (.object (List.reverse (List.reverse _)))
    >>= fun declaration => .ok { declaration, placement := e.placement }) = .ok e
  rw [List.reverse_reverse, h.read]
  rfl

end Entry

theorem ClassDeclaration.readsBack (d : ClassDeclaration) :
    Entry.ReadsBack toFields (ofJson true) d where
  names := by simp [toFields]
  printable := d.printable_toFields
  read := d.ofJson_toFields true

theorem FunctionDeclaration.readsBack {d : FunctionDeclaration} (h : d.returnType.Fits) :
    Entry.ReadsBack toFields (ofJson true) d where
  names := by simp [toFields]
  printable := printable_toFields h
  read := ofJson_toFields true h

theorem ValueParameterDeclaration.readsBack {d : ValueParameterDeclaration} (h : d.type.Fits) :
    Entry.ReadsBack toFields (ofJson true) d where
  names := by simp [toFields]
  printable := printable_toFields h
  read := ofJson_toFields true h

theorem TypeParameterDeclaration.readsBack {d : TypeParameterDeclaration}
    (h : ∀ bound ∈ d.bounds, bound.Fits) : Entry.ReadsBack toFields (ofJson true) d where
  names := by simp [toFields]
  printable := printable_toFields h
  read := ofJson_toFields true h

/-! ## Tables -/

namespace Table

variable {α : Type} {encode : α → Json} {decode : Json → Except Fault α}

/-- Entries under new keys are read in order behind those that are there. -/
theorem readEntries_map {l : List (String × α)}
    (h : ∀ entry ∈ l, decode (encode entry.2) = .ok entry.2) (t : Table String α)
    (hkeys : ((t.entries ++ l).map Prod.fst).Nodup) :
    ∃ t', t.readEntries decode (l.map fun entry => (entry.1, encode entry.2)) = .ok t'
      ∧ t'.entries = t.entries ++ l := by
  induction l generalizing t with
  | nil => exact ⟨t, rfl, (List.append_nil _).symm⟩
  | cons entry rest ih =>
    obtain ⟨key, value⟩ := entry
    obtain ⟨hentry, hrest⟩ := List.forall_mem_cons.1 h
    have hnew : key ∉ t.entries.map Prod.fst := fun hmem => by
      rw [List.map_append, List.map_cons] at hkeys
      exact (List.nodup_append.1 hkeys).2.2 key hmem key List.mem_cons_self rfl
    have hinsert : (t.insert key value).entries = t.entries ++ [(key, value)] :=
      insertEntry_of_not_mem value hnew
    rw [List.append_cons, ← hinsert] at hkeys ⊢
    obtain ⟨t', hread, hentries⟩ := ih hrest (t.insert key value) hkeys
    refine ⟨t', ?_, hentries⟩
    rw [List.map_cons, readEntries, hentry]
    exact hread

/-- A table is read back if each of its values is. -/
theorem ofJson_toJson {t : Table String α} (h : ∀ v ∈ t.values, decode (encode v) = .ok v) :
    ofJson decode (t.toJson encode) = .ok t := by
  obtain ⟨t', hread, hentries⟩ := readEntries_map
    (fun entry hentry => h entry.2 (List.mem_map_of_mem hentry)) ∅ t.nodup_keys
  have heq : t' = t := by
    cases t'
    cases t
    cases hentries
    rfl
  unfold ofJson toJson front
  dsimp only
  rw [hread, heq]
  rfl

theorem printable_toJson {t : Table String α} (h : ∀ v ∈ t.values, (encode v).Printable) :
    (t.toJson encode).Printable := by
  refine fieldsPrintable_iff.2 fun field hfield => ?_
  obtain ⟨entry, hentry, rfl⟩ := List.mem_map.1 hfield
  exact h entry.2 (List.mem_map_of_mem hentry)

end Table

/-! ## Graphs -/

namespace SymbolGraph

/-- Whether every number of dimensions in a graph fits into 64 bits. -/
structure Fits (g : SymbolGraph) : Prop where
  returnTypes : ∀ e ∈ g.functions.values, e.declaration.returnType.Fits
  parameterTypes : ∀ e ∈ g.valueParameters.values, e.declaration.type.Fits
  bounds : ∀ e ∈ g.typeParameters.values, ∀ bound ∈ e.declaration.bounds, bound.Fits

variable {g : SymbolGraph}

theorem Fits.printable_toJson (h : g.Fits) : g.toJson.Printable := by
  have hunits : (Json.array (g.units.map CompilationUnit.toJson)).Printable := by
    refine itemsPrintable_iff.2 fun item hitem => ?_
    obtain ⟨u, -, rfl⟩ := List.mem_map.1 hitem
    exact u.printable_toJson
  refine ⟨hunits, ?_, ?_, ?_, ?_, trivial⟩
  · exact Table.printable_toJson fun e _ => e.declaration.readsBack.printable_toJson
  · exact Table.printable_toJson fun e he =>
      (FunctionDeclaration.readsBack (h.returnTypes e he)).printable_toJson
  · exact Table.printable_toJson fun e he =>
      (ValueParameterDeclaration.readsBack (h.parameterTypes e he)).printable_toJson
  · exact Table.printable_toJson fun e he =>
      (TypeParameterDeclaration.readsBack (h.bounds e he)).printable_toJson

theorem Fits.ofJson_toJson (h : g.Fits) : ofJson g.toJson = .ok g := by
  refine asRecord_of_fields (by decide) rfl ?_
  refine readItems_of (asList_map fun u _ => u.ofJson_toJson) ?_
  refine readItems_of (Table.ofJson_toJson fun e _ => e.declaration.readsBack.ofJson_toJson) ?_
  refine readItems_of (Table.ofJson_toJson fun e he =>
    (FunctionDeclaration.readsBack (h.returnTypes e he)).ofJson_toJson) ?_
  refine readItems_of (Table.ofJson_toJson fun e he =>
    (ValueParameterDeclaration.readsBack (h.parameterTypes e he)).ofJson_toJson) ?_
  refine readItems_of (Table.ofJson_toJson fun e he =>
    (TypeParameterDeclaration.readsBack (h.bounds e he)).ofJson_toJson) ?_
  rfl

theorem Fits.read_toText (h : g.Fits) : read g.toText = .ok g :=
  (read_pretty h.printable_toJson).trans h.ofJson_toJson

theorem load_of_read {text : String} (h : read text = .ok g) :
    load text = match g.firstUndeclared? with
      | some s => .error (.undeclared s)
      | none => .ok g := by
  unfold load
  cases hfirst : g.firstUndeclared? with
  | none => simp only [h, hfirst]
  | some s => simp only [h, hfirst]

/-- A graph is read back from its text; it is loaded from its text if it lists nothing that it does
not declare, and otherwise loading stops at the first symbol that it lists and does not declare. -/
theorem read_and_load_toText (h : g.Fits) :
    read g.toText = .ok g
      ∧ (load g.toText = .ok g ↔ g.firstUndeclared? = none)
      ∧ ∀ s, g.firstUndeclared? = some s → load g.toText = .error (.undeclared s) := by
  have hload := load_of_read h.read_toText
  refine ⟨h.read_toText, ?_, fun s hs => by rw [hload, hs]⟩
  rw [hload]
  cases g.firstUndeclared? with
  | none => simp
  | some s => simp

/-- A graph of a generic class with a type parameter and a method, whose parameter has no name and
whose result is an array. -/
def shelf : SymbolGraph where
  units := [.ofPath "Shelf.java" [.ofClass "Shelf"]]
  classes := {
    entries := [("Shelf", {
      declaration := {
        qualifiedName := "Shelf"
        modifiers := [.publicAccess, .extensible]
        typeParameters := [.ofTypeParameter "Shelf<T>"]
        members := [.ofFunction "Shelf#rows#0"]
      }
      placement := { annotations := { declared := .ofList ["Named", "Bean"] } }
    })]
    nodup_keys := by decide
  }
  functions := {
    entries := [("Shelf#rows#0", {
      declaration := {
        name := "rows"
        parameters := [.ofValueParameter "Shelf#rows#0/0"]
        returnType := .array (.declared (.ofClass "Shelf")
          [.typeVariable (.ofTypeParameter "Shelf<T>"), .array .unresolved 1]) 2
      }
      placement := { enclosing := some (.ofClass "Shelf") }
    })]
    nodup_keys := by decide
  }
  valueParameters := {
    entries := [("Shelf#rows#0/0", {
      declaration := { type := .unresolved }
      placement := { enclosing := some (.ofFunction "Shelf#rows#0") }
    })]
    nodup_keys := by decide
  }
  typeParameters := {
    entries := [("Shelf<T>", {
      declaration := { name := "T", bounds := [.declared (.ofClass "java.lang.Comparable") []] }
      placement := { enclosing := some (.ofClass "Shelf") }
    })]
    nodup_keys := by decide
  }

theorem read_and_load_toText_shelf :
    shelf.Fits ∧ read shelf.toText = .ok shelf ∧ load shelf.toText = .ok shelf := by
  have hfits : shelf.Fits := by
    constructor <;> simp [shelf, Table.values, TypeUse.Fits, TypeUse.AllFit]
  obtain ⟨hread, hload, -⟩ := read_and_load_toText hfits
  exact ⟨hfits, hread, hload.2 (by decide)⟩

end SymbolGraph

end BeanProcessing
