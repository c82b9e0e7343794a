import BeanProcessing.Resolver.Key

/-!
# Unique readability of key texts

A key text is read from the left: a name or a path, then bindings in brackets, then pairs of
brackets for dimensions. When names are free of the marks that stand around them, and paths of the
brace that ends them, a text can be read in one way only. Paths may well hold other marks, as
those of type parameters do.

Three things live here:

* `KeyAlike`, what two class elements or substitutions with one text have in common;
* `TypeArguments.keyAlike_of_keyText_eq`, which reads it off the text;
* `TypeArguments.KeyAlike.keyTexts_eq`, by which nothing else shows in a text.
-/

namespace BeanProcessing

/-! ## Marks -/

/-- The characters that stand around names in a key text. -/
def keyMarks : List Char := [',', '=', '<', '>', '\x7b', '\x7d', '[', ']', '?']

/-- A name without any of the marks of a key text. -/
def PlainName (name : String) : Prop := ∀ c ∈ name.toList, c ∉ keyMarks

instance (name : String) : Decidable (PlainName name) :=
  List.decidableBAll (· ∉ keyMarks) name.toList

theorem PlainName.notMem {name : String} (h : PlainName name) {marks : List Char}
    (hsub : marks ⊆ keyMarks) : ∀ c ∈ name.toList, c ∉ marks :=
  fun c hc hmark => h c hc (hsub hmark)

/-- A path that can be read up to the brace behind it. -/
def OpenPath (path : String) : Prop := '\x7b' ∉ path.toList

instance (path : String) : Decidable (OpenPath path) :=
  inferInstanceAs (Decidable ('\x7b' ∉ path.toList))

/-- Whether a text is empty or starts with one of some characters. -/
def StartsIn (marks : List Char) (text : List Char) : Prop := ∀ c ∈ text.head?, c ∈ marks

theorem startsIn_nil (marks : List Char) : StartsIn marks [] := by
  intro c hc
  simp at hc

theorem startsIn_cons {marks : List Char} {c : Char} {text : List Char} :
    StartsIn marks (c :: text) ↔ c ∈ marks := by
  simp [StartsIn]

theorem StartsIn.mono {marks marks' : List Char} {text : List Char} (h : StartsIn marks text)
    (hsub : ∀ c ∈ marks, c ∈ marks') : StartsIn marks' text :=
  fun c hc => hsub c (h c hc)

/-- A text does not start with a character that is not among those it may start with. -/
theorem StartsIn.ne_cons {marks text : List Char} (h : StartsIn marks text) {c : Char}
    (hc : c ∉ marks) (rest : List Char) : text ≠ c :: rest := by
  intro heq
  rw [heq] at h
  exact hc (startsIn_cons.1 h)

/-- What may follow a class element in a key text. -/
abbrev elementEnds : List Char := [',', '>', '\x7d']

/-- What may follow a substitution in a key text. -/
abbrev bindingsEnds : List Char := ['>', '\x7d']

/-- A text splits in one way into a part without marks and a part that starts with one. -/
theorem append_inj_of_marks {marks a b x y : List Char} (ha : ∀ c ∈ a, c ∉ marks)
    (hb : ∀ c ∈ b, c ∉ marks) (hx : StartsIn marks x) (hy : StartsIn marks y)
    (h : a ++ x = b ++ y) : a = b ∧ x = y := by
  induction a generalizing b with
  | nil =>
    cases b with
    | nil => exact ⟨rfl, h⟩
    | cons d b => exact absurd h (hx.ne_cons (hb d List.mem_cons_self) _)
  | cons c a ih =>
    cases b with
    | nil => exact absurd h.symm (hy.ne_cons (ha c List.mem_cons_self) _)
    | cons d b =>
      rw [List.cons_append, List.cons_append, List.cons.injEq] at h
      obtain ⟨hcd, htail⟩ := h
      obtain ⟨hab, hxy⟩ := ih (fun e he => ha e (List.mem_cons_of_mem c he))
        (fun e he => hb e (List.mem_cons_of_mem d he)) htail
      exact ⟨by rw [hcd, hab], hxy⟩

/-! ## Dimensions -/

theorem toList_bracketPairs_succ (n : Nat) :
    (bracketPairs (n + 1)).toList = '[' :: ']' :: (bracketPairs n).toList := by
  simp [bracketPairs, String.toList_join, List.replicate_succ]

theorem startsIn_bracketPairs (n : Nat) {t : List Char} (ht : StartsIn elementEnds t) :
    StartsIn ('[' :: elementEnds) ((bracketPairs n).toList ++ t) := by
  cases n with
  | zero => exact ht.mono fun c hc => List.mem_cons_of_mem _ hc
  | succ n =>
    rw [toList_bracketPairs_succ]
    exact startsIn_cons.2 List.mem_cons_self

theorem bracketPairs_append_inj {m n : Nat} {t u : List Char} (ht : StartsIn elementEnds t)
    (hu : StartsIn elementEnds u)
    (h : (bracketPairs m).toList ++ t = (bracketPairs n).toList ++ u) : m = n ∧ t = u := by
  induction m generalizing n with
  | zero =>
    cases n with
    | zero => exact ⟨rfl, h⟩
    | succ n =>
      rw [toList_bracketPairs_succ] at h
      exact absurd h (ht.ne_cons (by decide) _)
  | succ m ih =>
    rw [toList_bracketPairs_succ] at h
    cases n with
    | zero => exact absurd h.symm (hu.ne_cons (by decide) _)
    | succ n =>
      rw [toList_bracketPairs_succ] at h
      simp only [List.cons_append, List.cons.injEq, true_and] at h
      obtain ⟨hmn, htu⟩ := ih h
      exact ⟨by rw [hmn], htu⟩

/-! ## What a key text tells -/

mutual

/-- Names without marks and paths without braces, in all that shows in a key text. -/
def ClassElement.Legible : ClassElement → Prop
  | .declared shape arguments => PlainName shape.name ∧ arguments.Legible
  | .placeholder shape arguments _ captured =>
    OpenPath shape.symbol.path ∧ arguments.Legible ∧ captured.Legible

/-- Legible elements under names without marks. -/
def TypeArguments.Legible : TypeArguments → Prop
  | .nil => True
  | .cons name element rest => PlainName name ∧ element.Legible ∧ rest.Legible

end

mutual

/-- Whether two class elements agree in all that shows in a key text: whether they are
placeholders, the name or path, the dimensions, the arguments and the captured substitution. -/
def ClassElement.KeyAlike : ClassElement → ClassElement → Prop
  | .declared s as, .declared t bs =>
    s.name = t.name ∧ s.dimensions = t.dimensions ∧ as.KeyAlike bs
  | .placeholder s as _ cs, .placeholder t bs _ ds =>
    s.symbol.path = t.symbol.path ∧ s.dimensions = t.dimensions ∧ as.KeyAlike bs ∧ cs.KeyAlike ds
  | .declared _ _, .placeholder _ _ _ _ => False
  | .placeholder _ _ _ _, .declared _ _ => False

/-- Whether two substitutions bind the same names in the same order, to elements that agree. -/
def TypeArguments.KeyAlike : TypeArguments → TypeArguments → Prop
  | .nil, .nil => True
  | .cons name e as, .cons name' f bs => name = name' ∧ e.KeyAlike f ∧ as.KeyAlike bs
  | .nil, .cons _ _ _ => False
  | .cons _ _ _, .nil => False

end

/-! ## Reading bindings -/

/-- The characters of bindings that follow others, each behind a comma. -/
def TypeArguments.continuation (bindings : TypeArguments) : List Char :=
  bindings.keyTexts.flatMap fun text => ',' :: text.toList

theorem TypeArguments.continuation_cons (name : String) (e : ClassElement)
    (rest : TypeArguments) :
    (TypeArguments.cons name e rest).continuation
      = ',' :: (name.toList ++ '=' :: (e.keyText.toList ++ rest.continuation)) := by
  simp [TypeArguments.continuation, TypeArguments.keyTexts]

theorem TypeArguments.startsIn_continuation (as : TypeArguments) {t : List Char}
    (ht : StartsIn bindingsEnds t) : StartsIn elementEnds (as.continuation ++ t) := by
  cases as with
  | nil => exact ht.mono fun c hc => List.mem_cons_of_mem _ hc
  | cons name e rest =>
    rw [TypeArguments.continuation_cons]
    exact startsIn_cons.2 List.mem_cons_self

private theorem comma_cons_intercalate (text : String) (rest : List String) :
    ',' :: (",".intercalate (text :: rest)).toList
      = (text :: rest).flatMap fun text => ',' :: text.toList := by
  induction rest generalizing text with
  | nil => simp
  | cons next rest ih =>
    rw [List.flatMap_cons, ← ih next]
    simp [String.intercalate_cons_cons]

/-- The first bindings follow a comma just as the others do. -/
theorem TypeArguments.comma_cons_keyText (name : String) (e : ClassElement)
    (rest : TypeArguments) :
    ',' :: (TypeArguments.cons name e rest).keyText.toList
      = (TypeArguments.cons name e rest).continuation := by
  rw [TypeArguments.keyText, TypeArguments.continuation, TypeArguments.keyTexts,
    comma_cons_intercalate]

theorem TypeArguments.keyText_cons (name : String) (e : ClassElement) (rest : TypeArguments) :
    (TypeArguments.cons name e rest).keyText.toList
      = name.toList ++ '=' :: (e.keyText.toList ++ rest.continuation) := by
  have h := TypeArguments.comma_cons_keyText name e rest
  rw [TypeArguments.continuation_cons, List.cons.injEq] at h
  exact h.2

/-- What follows a substitution is not the start of a binding. -/
private theorem ne_keyText_cons_append {name : String} (hname : PlainName name) (e : ClassElement)
    (rest : TypeArguments) {t : List Char} (ht : StartsIn bindingsEnds t) (u : List Char) :
    t ≠ (TypeArguments.cons name e rest).keyText.toList ++ u := by
  intro h
  rw [TypeArguments.keyText_cons, List.append_assoc] at h
  -- the name ends at an equals sign, and `t` does not start with one
  have hmarks : StartsIn ('=' :: bindingsEnds) t := ht.mono fun c hc => List.mem_cons_of_mem _ hc
  have hsplit := append_inj_of_marks (a := []) (by simp) (hname.notMem (by decide)) hmarks
    (startsIn_cons.2 List.mem_cons_self) h
  exact ht.ne_cons (by decide) _ hsplit.2

/-- Bindings are read off a text when those behind commas are. -/
private theorem keyText_append_inj_of {as bs : TypeArguments}
    (hread : ∀ t u, StartsIn bindingsEnds t → StartsIn bindingsEnds u →
      as.continuation ++ t = bs.continuation ++ u → as.KeyAlike bs ∧ t = u)
    (has : as.Legible) (hbs : bs.Legible) {t u : List Char} (ht : StartsIn bindingsEnds t)
    (hu : StartsIn bindingsEnds u) (h : as.keyText.toList ++ t = bs.keyText.toList ++ u) :
    as.KeyAlike bs ∧ t = u := by
  cases as with
  | nil =>
    cases bs with
    | nil => exact hread t u ht hu h
    | cons name f rest => exact absurd h (ne_keyText_cons_append hbs.1 f rest ht u)
  | cons name e rest =>
    cases bs with
    | nil => exact absurd h.symm (ne_keyText_cons_append has.1 e rest hu t)
    | cons name' f rest' =>
      refine hread t u ht hu ?_
      rw [← TypeArguments.comma_cons_keyText, ← TypeArguments.comma_cons_keyText,
        List.cons_append, List.cons_append, h]

/-! ## Reading elements -/

/-- What stands behind the name of an element in a key text. -/
private def suffix (arguments : TypeArguments) (dimensions : Nat) (t : List Char) : List Char :=
  (angled arguments.keyTexts).toList ++ ((bracketPairs dimensions).toList ++ t)

private theorem angled_nil : (angled TypeArguments.nil.keyTexts).toList = [] := rfl

private theorem angled_cons (name : String) (e : ClassElement) (rest : TypeArguments) :
    (angled (TypeArguments.cons name e rest).keyTexts).toList
      = '<' :: ((TypeArguments.cons name e rest).keyText.toList ++ ['>']) := by
  simp [angled, TypeArguments.keyText, TypeArguments.keyTexts]

private theorem startsIn_suffix (arguments : TypeArguments) (dimensions : Nat) {t : List Char}
    (ht : StartsIn elementEnds t) :
    StartsIn ('<' :: '[' :: elementEnds) (suffix arguments dimensions t) := by
  cases arguments with
  | nil => exact (startsIn_bracketPairs dimensions ht).mono fun c hc => List.mem_cons_of_mem _ hc
  | cons name e rest =>
    rw [suffix, angled_cons]
    exact startsIn_cons.2 List.mem_cons_self

/-- Arguments and dimensions are read off what stands behind a name. -/
private theorem suffix_inj {as bs : TypeArguments}
    (hread : ∀ t u, StartsIn bindingsEnds t → StartsIn bindingsEnds u →
      as.continuation ++ t = bs.continuation ++ u → as.KeyAlike bs ∧ t = u)
    (has : as.Legible) (hbs : bs.Legible) {m n : Nat} {t u : List Char}
    (ht : StartsIn elementEnds t) (hu : StartsIn elementEnds u)
    (h : suffix as m t = suffix bs n u) : m = n ∧ as.KeyAlike bs ∧ t = u := by
  have hm := startsIn_bracketPairs m ht
  have hn := startsIn_bracketPairs n hu
  cases as with
  | nil =>
    cases bs with
    | nil =>
      obtain ⟨hmn, htu⟩ := bracketPairs_append_inj ht hu h
      exact ⟨hmn, trivial, htu⟩
    | cons name f rest =>
      rw [suffix, suffix, angled_nil, angled_cons] at h
      exact absurd h (hm.ne_cons (by decide) _)
  | cons name e rest =>
    cases bs with
    | nil =>
      rw [suffix, suffix, angled_nil, angled_cons] at h
      exact absurd h.symm (hn.ne_cons (by decide) _)
    | cons name' f rest' =>
      rw [suffix, suffix, angled_cons, angled_cons] at h
      simp only [List.cons_append, List.append_assoc, List.cons.injEq, true_and] at h
      obtain ⟨halike, hrest⟩ := keyText_append_inj_of hread has hbs
        (startsIn_cons.2 List.mem_cons_self) (startsIn_cons.2 List.mem_cons_self) h
      rw [List.cons.injEq] at hrest
      obtain ⟨hmn, htu⟩ := bracketPairs_append_inj ht hu hrest.2
      exact ⟨hmn, halike, htu⟩

private theorem keyText_declared (shape : ClassShape) (arguments : TypeArguments)
    (t : List Char) :
    (ClassElement.declared shape arguments).keyText.toList ++ t
      = shape.name.toList ++ suffix arguments shape.dimensions t := by
  simp [ClassElement.keyText, suffix]

private theorem keyText_placeholder (shape : ClassShape) (arguments : TypeArguments)
    (v : TypeVariable) (captured : TypeArguments) (t : List Char) :
    (ClassElement.placeholder shape arguments v captured).keyText.toList ++ t
      = '?' :: (shape.symbol.path.toList ++ '\x7b' :: (captured.keyText.toList
          ++ '\x7d' :: suffix arguments shape.dimensions t)) := by
  simp [ClassElement.keyText, TypeArguments.keyText, suffix]

/-- A declared class does not read like a placeholder. -/
private theorem ne_question_cons {name : String} (hname : PlainName name)
    (arguments : TypeArguments) (dimensions : Nat) {t : List Char} (ht : StartsIn elementEnds t)
    (x : List Char) : name.toList ++ suffix arguments dimensions t ≠ '?' :: x := by
  intro h
  have hstart := startsIn_suffix arguments dimensions ht
  cases hchars : name.toList with
  | nil =>
    rw [hchars] at h
    exact hstart.ne_cons (by decide) x h
  | cons c rest =>
    rw [hchars, List.cons_append, List.cons.injEq] at h
    have hc : c ∈ name.toList := hchars ▸ List.mem_cons_self
    exact hname c hc (h.1 ▸ by decide)

mutual

/-- A class element is read off a text that starts with its key text. -/
theorem ClassElement.keyText_append_inj :
    ∀ (e f : ClassElement), e.Legible → f.Legible → ∀ t u : List Char,
      StartsIn elementEnds t → StartsIn elementEnds u →
      e.keyText.toList ++ t = f.keyText.toList ++ u → e.KeyAlike f ∧ t = u
  | .declared s as, .declared s' bs => by
    intro he hf t u ht hu h
    rw [keyText_declared, keyText_declared] at h
    -- a name has no marks, so it ends where the first of them stands
    obtain ⟨hname, hsuffix⟩ := append_inj_of_marks (he.1.notMem (by decide))
      (hf.1.notMem (by decide)) (startsIn_suffix as s.dimensions ht)
      (startsIn_suffix bs s'.dimensions hu) h
    obtain ⟨hdims, hargs, htu⟩ :=
      suffix_inj (TypeArguments.continuation_append_inj as bs he.2 hf.2) he.2 hf.2 ht hu hsuffix
    exact ⟨⟨String.toList_inj.1 hname, hdims, hargs⟩, htu⟩
  | .placeholder s as v cs, .placeholder s' bs w ds => by
    intro he hf t u ht hu h
    rw [keyText_placeholder, keyText_placeholder, List.cons.injEq] at h
    -- the path ends at the first brace, the captured substitution at the brace that closes it
    have hpath : ∀ path, OpenPath path → ∀ c ∈ path.toList, c ∉ ['\x7b'] :=
      fun path hopen c hc hmark => hopen (List.mem_singleton.1 hmark ▸ hc)
    obtain ⟨hpaths, hrest⟩ := append_inj_of_marks (hpath _ he.1) (hpath _ hf.1)
      (startsIn_cons.2 List.mem_cons_self) (startsIn_cons.2 List.mem_cons_self) h.2
    rw [List.cons.injEq] at hrest
    obtain ⟨hcaptured, hrest⟩ :=
      keyText_append_inj_of (TypeArguments.continuation_append_inj cs ds he.2.2 hf.2.2) he.2.2
        hf.2.2 (startsIn_cons.2 (by decide)) (startsIn_cons.2 (by decide)) hrest.2
    rw [List.cons.injEq] at hrest
    obtain ⟨hdims, hargs, htu⟩ :=
      suffix_inj (TypeArguments.continuation_append_inj as bs he.2.1 hf.2.1) he.2.1 hf.2.1 ht hu
        hrest.2
    exact ⟨⟨String.toList_inj.1 hpaths, hdims, hargs, hcaptured⟩, htu⟩
  | .declared s as, .placeholder s' bs w ds => by
    intro he _ t u ht _ h
    rw [keyText_declared, keyText_placeholder] at h
    exact absurd h (ne_question_cons he.1 as s.dimensions ht _)
  | .placeholder s as v cs, .declared s' bs => by
    intro _ hf t u _ hu h
    rw [keyText_declared, keyText_placeholder] at h
    exact absurd h.symm (ne_question_cons hf.1 bs s'.dimensions hu _)

/-- Bindings are read off a text that starts with them, each behind a comma. -/
theorem TypeArguments.continuation_append_inj :
    ∀ (as bs : TypeArguments), as.Legible → bs.Legible → ∀ t u : List Char,
      StartsIn bindingsEnds t → StartsIn bindingsEnds u →
      as.continuation ++ t = bs.continuation ++ u → as.KeyAlike bs ∧ t = u
  | .nil, .nil => fun _ _ _ _ _ _ h => ⟨trivial, h⟩
  | .nil, .cons name f rest => by
    intro _ _ t u ht _ h
    rw [TypeArguments.continuation_cons] at h
    exact absurd h (ht.ne_cons (by decide) _)
  | .cons name e rest, .nil => by
    intro _ _ t u _ hu h
    rw [TypeArguments.continuation_cons] at h
    exact absurd h.symm (hu.ne_cons (by decide) _)
  | .cons name e rest, .cons name' f rest' => by
    intro has hbs t u ht hu h
    rw [TypeArguments.continuation_cons, TypeArguments.continuation_cons] at h
    simp only [List.cons_append, List.append_assoc, List.cons.injEq, true_and] at h
    -- a name ends at the equals sign, and its element where the next binding or the end begins
    have hname : ∀ c ∈ name.toList, c ∉ ['='] := has.1.notMem (by decide)
    have hname' : ∀ c ∈ name'.toList, c ∉ ['='] := hbs.1.notMem (by decide)
    obtain ⟨hnames, helements⟩ := append_inj_of_marks hname hname'
      (startsIn_cons.2 List.mem_cons_self) (startsIn_cons.2 List.mem_cons_self) h
    rw [List.cons.injEq] at helements
    obtain ⟨helement, hrest⟩ := ClassElement.keyText_append_inj e f has.2.1 hbs.2.1 _ _
      (rest.startsIn_continuation ht) (rest'.startsIn_continuation hu) helements.2
    obtain ⟨hbindings, htu⟩ :=
      TypeArguments.continuation_append_inj rest rest' has.2.2 hbs.2.2 t u ht hu hrest
    exact ⟨⟨String.toList_inj.1 hnames, helement, hbindings⟩, htu⟩

end

/-- Substitutions with one key text agree in all that shows in it. -/
theorem TypeArguments.keyAlike_of_keyText_eq {as bs : TypeArguments} (has : as.Legible)
    (hbs : bs.Legible) (h : as.keyText = bs.keyText) : as.KeyAlike bs := by
  have hread := TypeArguments.continuation_append_inj as bs has hbs
  have htexts : as.keyText.toList ++ [] = bs.keyText.toList ++ [] := by rw [h]
  exact (keyText_append_inj_of hread has hbs (startsIn_nil _) (startsIn_nil _) htexts).1

/-! ## What a key text shows -/

mutual

/-- Nothing else shows in a key text, whatever the names are. -/
theorem ClassElement.KeyAlike.keyText_eq : ∀ e f : ClassElement, e.KeyAlike f →
    e.keyText = f.keyText
  | .declared s as, .declared t bs => by
    rintro ⟨hname, hdimensions, hargs⟩
    have htexts := TypeArguments.KeyAlike.keyTexts_eq as bs hargs
    rw [ClassElement.keyText, ClassElement.keyText, hname, hdimensions, htexts]
  | .placeholder s as v cs, .placeholder t bs w ds => by
    rintro ⟨hpath, hdimensions, hargs, hcaptured⟩
    have htexts := TypeArguments.KeyAlike.keyTexts_eq as bs hargs
    have hcapturedTexts := TypeArguments.KeyAlike.keyTexts_eq cs ds hcaptured
    rw [ClassElement.keyText, ClassElement.keyText, hpath, hdimensions, htexts, hcapturedTexts]
  | .declared _ _, .placeholder _ _ _ _ => False.elim
  | .placeholder _ _ _ _, .declared _ _ => False.elim

theorem TypeArguments.KeyAlike.keyTexts_eq : ∀ as bs : TypeArguments, as.KeyAlike bs →
    as.keyTexts = bs.keyTexts
  | .nil, .nil => fun _ => rfl
  | .cons name e as, .cons name' f bs => by
    rintro ⟨hname, helement, hrest⟩
    have htext := ClassElement.KeyAlike.keyText_eq e f helement
    have htexts := TypeArguments.KeyAlike.keyTexts_eq as bs hrest
    rw [TypeArguments.keyTexts, TypeArguments.keyTexts, hname, htext, htexts]
  | .nil, .cons _ _ _ => False.elim
  | .cons _ _ _, .nil => False.elim

end

/-- Key texts are uniquely readable. Two substitutions have one key text exactly if they bind the
same names in the same order, to elements that agree, all the way down, on being placeholders or
not, on the name of the class or the path of the type parameter, on dimensions and arguments, and on
the substitution that was captured. Names must not hold the marks of a key text, but paths may, all
but the brace that ends them. -/
theorem TypeArguments.keyText_eq_iff_keyAlike {as bs : TypeArguments} (has : as.Legible)
    (hbs : bs.Legible) : as.keyText = bs.keyText ↔ as.KeyAlike bs := by
  constructor
  · exact TypeArguments.keyAlike_of_keyText_eq has hbs
  · intro halike
    have htexts := TypeArguments.KeyAlike.keyTexts_eq as bs halike
    rw [TypeArguments.keyText, TypeArguments.keyText, htexts]

/-- A class that is known by its name. -/
def namedClass (name : String) (arguments : TypeArguments) : ClassElement :=
  .declared { symbol := .ofClass name, name } arguments

/-- A substitution that binds one name to lists of arrays of a type variable. The path of the type
parameter has marks in it. -/
def listsOfVariable (boundName : String) (captured : TypeArguments) : TypeArguments :=
  .cons "T" (namedClass "List" (.cons "E" (.placeholder
    { symbol := .ofTypeParameter "Box<E>", name := boundName, dimensions := 2 } .nil
    { name := "E", bounds := [] } captured) .nil)) .nil

/-- The substitution that the variable was met under. -/
def textForE : TypeArguments := .cons "E" (namedClass "Text" .nil) .nil

theorem legible_listsOfVariable (boundName : String) {captured : TypeArguments}
    (h : captured.Legible) : (listsOfVariable boundName captured).Legible := by
  have hpath : OpenPath "Box<E>" := by decide
  exact ⟨by decide, ⟨by decide, by decide, ⟨hpath, trivial, h⟩, trivial⟩, trivial⟩

/-- The name of its bound does not show in the key text of a type variable, but what it captured
does. -/
theorem keyText_eq_iff_keyAlike_listsOfVariable :
    (listsOfVariable "Text" textForE).Legible ∧ (listsOfVariable "Number" textForE).Legible ∧
      (listsOfVariable "Text" .nil).Legible ∧
      (listsOfVariable "Text" textForE).keyText = (listsOfVariable "Number" textForE).keyText ∧
      (listsOfVariable "Text" textForE).keyText ≠ (listsOfVariable "Text" .nil).keyText := by
  have hcaptured : textForE.Legible := ⟨by decide, ⟨by decide, trivial⟩, trivial⟩
  have htext := legible_listsOfVariable "Text" hcaptured
  have hnumber := legible_listsOfVariable "Number" hcaptured
  have hnone := @legible_listsOfVariable "Text" .nil trivial
  have hsame : (listsOfVariable "Text" textForE).KeyAlike (listsOfVariable "Number" textForE) :=
    ⟨rfl, ⟨rfl, rfl, rfl, ⟨rfl, rfl, trivial, rfl, ⟨rfl, rfl, trivial⟩, trivial⟩, trivial⟩, trivial⟩
  refine ⟨htext, hnumber, hnone,
    (TypeArguments.keyText_eq_iff_keyAlike htext hnumber).2 hsame, fun hkeys => ?_⟩
  obtain ⟨-, ⟨-, -, -, ⟨-, -, -, hcaptured⟩, -⟩, -⟩ :=
    (TypeArguments.keyText_eq_iff_keyAlike htext hnone).1 hkeys
  exact hcaptured

end BeanProcessing
