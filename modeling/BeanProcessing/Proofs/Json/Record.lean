import BeanProcessing.Json.Fields
import Mathlib.Data.List.Basic

/-!
# Reading records that were written

A record that is written field by field, in the order in which its fields are known, is read by
reading its values one after the other; `asRecord_of_fields` brings it down to that. Fields that are
not known are left to whoever asked for them; `readFields_kept` says what is kept of them.
-/

namespace BeanProcessing.Json

variable {α ρ : Type}

/-! ## Lists and words -/

/-- A list is read back if each of its items is. -/
theorem asList_map {decode : Json → Except Fault α} {encode : α → Json} {l : List α}
    (h : ∀ a ∈ l, decode (encode a) = .ok a) : asList decode (.array (l.map encode)) = .ok l := by
  have hitems : (l.map encode).mapM decode = .ok l := by
    induction l with
    | nil => rfl
    | cons a rest ih =>
      obtain ⟨ha, hrest⟩ := List.forall_mem_cons.1 h
      rw [List.map_cons, List.mapM_cons, ha, ih hrest]
      rfl
  show ((l.map encode).mapM decode >>= fun results => .ok results) = .ok l
  rw [hitems]
  rfl

theorem asChoice_string (isNested : Bool) {ofWord? : String → Option α} {word : String} {a : α}
    (h : ofWord? word = some a) : asChoice isNested ofWord? (.string word) = .ok a := by
  unfold asChoice front
  dsimp only
  rw [h]

theorem asTag_string (isNested : Bool) {ofWord? : String → Option α}
    {ofPosition? : Nat → Option α} {word : String} {a : α} (h : ofWord? word = some a) :
    asTag isNested ofWord? ofPosition? (.string word) = .ok a := by
  unfold asTag
  dsimp only
  rw [h]

/-! ## Values in order -/

theorem readItems_cons {tooMany : Fault} {field : Field ρ} {known : List (Field ρ)} {value : Json}
    {rest : List Json} {draft next : ρ} {result : Except Fault (List (Field ρ) × ρ)}
    (hfield : field.read value draft = .ok next)
    (hrest : readItems tooMany next known rest = result) :
    readItems tooMany draft (field :: known) (value :: rest) = result := by
  rw [readItems, hfield]
  exact hrest

/-- A field that is read with a decoder takes what its decoder reads. -/
theorem readItems_of {tooMany : Fault} {name : String} {isRequired : Bool}
    {decode : Json → Except Fault α} {set : α → ρ → ρ} {known : List (Field ρ)} {value : Json}
    {rest : List Json} {a : α} {draft : ρ} {result : Except Fault (List (Field ρ) × ρ)}
    (hvalue : decode value = .ok a) (hrest : readItems tooMany (set a draft) known rest = result) :
    readItems tooMany draft (.of name isRequired decode set :: known) (value :: rest) = result := by
  have hfield : (Field.of name isRequired decode set).read value draft = .ok (set a draft) := by
    show (do return set (← decode value) draft) = _
    rw [hvalue]
    rfl
  exact readItems_cons hfield hrest

/-! ## Fields in order -/

theorem find?_name {known : List (Field ρ)} (hnames : (known.map (·.name)).Nodup)
    {field : Field ρ} (h : field ∈ known) : known.find? (·.name == field.name) = some field := by
  induction known with
  | nil => cases h
  | cons first rest ih =>
    rw [List.map_cons, List.nodup_cons] at hnames
    rcases List.mem_cons.1 h with rfl | h
    · rw [List.find?_cons_of_pos (by simp)]
    · have hne : first.name ≠ field.name := fun heq => hnames.1 (heq ▸ List.mem_map_of_mem h)
      rw [List.find?_cons_of_neg (by simpa using hne), ih hnames.2 h]

theorem readFields_append (known : List (Field ρ)) (other : String → Json → ρ → Except Fault ρ)
    (seen : List String) (draft : ρ) (fields fields' : List (String × Json)) :
    readFields known other seen draft (fields ++ fields')
      = (readFields known other seen draft fields).bind
          fun read => readFields known other read.1 read.2 fields' := by
  induction fields generalizing seen draft with
  | nil => rfl
  | cons field rest ih =>
    obtain ⟨name, value⟩ := field
    rw [List.cons_append, readFields, readFields]
    cases known.find? (·.name == name) with
    | none =>
      cases other name value draft with
      | error fault => rfl
      | ok next => exact ih seen next
    | some field =>
      cases seen.contains name with
      | true => rfl
      | false =>
        dsimp only
        cases field.read value draft with
        | error fault => rfl
        | ok next => exact ih (name :: seen) next

/-- Fields that stand in the order in which some of the known fields do are read like their values.
-/
theorem readFields_known {known chosen : List (Field ρ)} (hknown : (known.map (·.name)).Nodup)
    (hsub : chosen.Sublist known) {fields : List (String × Json)}
    (hnames : fields.map Prod.fst = chosen.map (·.name))
    (other : String → Json → ρ → Except Fault ρ) {tooMany : Fault} {seen : List String}
    (hseen : ∀ field ∈ chosen, field.name ∉ seen) {draft record : ρ}
    (h : readItems tooMany draft chosen (fields.map Prod.snd) = .ok ([], record)) :
    readFields known other seen draft fields
      = .ok ((fields.map Prod.fst).reverse ++ seen, record) := by
  induction fields generalizing chosen seen draft with
  | nil =>
    rw [List.map_nil] at hnames h
    rw [List.map_eq_nil_iff.1 hnames.symm, readItems] at h
    cases h
    rfl
  | cons given rest ih =>
    obtain ⟨name, value⟩ := given
    cases chosen with
    | nil => cases hnames
    | cons field others =>
      obtain ⟨rfl, hrest⟩ : name = field.name ∧ _ := List.cons_eq_cons.1 hnames
      obtain ⟨hunseen, hunseens⟩ := List.forall_mem_cons.1 hseen
      have hnodup := (hsub.map (·.name)).nodup hknown
      rw [List.map_cons, List.nodup_cons] at hnodup
      have hfind := find?_name hknown (hsub.subset List.mem_cons_self)
      have hnot : seen.contains field.name = false := by
        rw [List.contains_eq_mem, decide_eq_false hunseen]
      -- a field that is still to come is known by another name than all before it
      have hlater : ∀ other ∈ others, other.name ∉ field.name :: seen := by
        intro other hother hmem
        rcases List.mem_cons.1 hmem with heq | hmem
        · exact hnodup.1 (heq ▸ List.mem_map_of_mem hother)
        · exact hunseens other hother hmem
      rw [List.map_cons, readItems] at h
      cases hread : field.read value draft with
      | error fault =>
        rw [hread] at h
        cases h
      | ok next =>
        rw [hread] at h
        rw [readFields, hfind]
        dsimp only
        rw [hnot, hread, List.map_cons, List.reverse_cons, List.append_assoc]
        exact ih ((List.sublist_cons_self field others).trans hsub) hrest hlater h

/-- A record is read from fields that stand in the order in which they are known, if their values
are read to it. -/
theorem asRecord_of_fields {known : List (Field ρ)} {fields : List (String × Json)}
    (hknown : (known.map (·.name)).Nodup) (hnames : fields.map Prod.fst = known.map (·.name))
    {isNested : Bool} {draft record : ρ}
    (h : readItems .data draft known (fields.map Prod.snd) = .ok ([], record)) :
    asRecord isNested known draft (.object fields) = .ok record := by
  have hfields := readFields_known hknown (List.Sublist.refl known) hnames ignore
    (fun _ _ => List.not_mem_nil) h
  rw [hnames, List.append_nil] at hfields
  have hall : (known.all fun field =>
      !field.isRequired || (known.map Field.name).reverse.contains field.name) = true := by
    refine List.all_eq_true.2 fun field hfield => ?_
    have hmem : field.name ∈ (known.map Field.name).reverse :=
      List.mem_reverse.2 (List.mem_map_of_mem hfield)
    rw [List.contains_eq_mem, decide_eq_true hmem, Bool.or_true]
  unfold asRecord front
  dsimp only
  rw [hfields]
  exact if_pos hall

/-- Fields that are not known and whose values are kept are kept all, last first. -/
theorem readFields_kept {known : List (Field ρ)} {other : String → Json → ρ → Except Fault ρ}
    (draft : List (String × Json) → ρ) {fields : List (String × Json)}
    (hunknown : ∀ field ∈ fields, ∀ k ∈ known, k.name ≠ field.1)
    (hkept : ∀ field ∈ fields, ∀ kept,
      other field.1 field.2 (draft kept) = .ok (draft (field :: kept)))
    (seen : List String) (kept : List (String × Json)) :
    readFields known other seen (draft kept) fields
      = .ok (seen, draft (fields.reverse ++ kept)) := by
  induction fields generalizing kept with
  | nil => rfl
  | cons field rest ih =>
    obtain ⟨hfield, hrest⟩ := List.forall_mem_cons.1 hunknown
    obtain ⟨hkeep, hkeeps⟩ := List.forall_mem_cons.1 hkept
    have hfind : known.find? (·.name == field.1) = none :=
      List.find?_eq_none.2 fun k hk heq => hfield k hk (beq_iff_eq.1 heq)
    rw [readFields, hfind, List.reverse_cons, List.append_assoc]
    dsimp only
    rw [hkeep]
    exact ih hrest hkeeps (field :: kept)

/-! ## Fields by name -/

theorem required_head (decode : Json → Except Fault α) {name : String} (value : Json)
    {rest : List (String × Json)} (h : ∀ field ∈ rest, field.1 ≠ name) :
    required decode name ((name, value) :: rest) = decode value := by
  have hrest : rest.filter (·.1 = name) = [] :=
    List.filter_eq_nil_iff.2 fun field hfield => by simpa using h field hfield
  have hfield : field? ((name, value) :: rest) name = .ok (some value) := by
    rw [field?, List.filter_cons_of_pos (by simp), hrest]
  rw [required, hfield]

theorem required_skip (decode : Json → Except Fault α) {key name : String} (h : key ≠ name)
    (value : Json) (rest : List (String × Json)) :
    required decode name ((key, value) :: rest) = required decode name rest := by
  rw [required, required, field?, field?, List.filter_cons_of_neg (by simpa using h)]

end BeanProcessing.Json
