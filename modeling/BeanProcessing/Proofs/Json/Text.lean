import BeanProcessing.Json.Printer
import BeanProcessing.Json.Reader
import Mathlib.Data.List.TakeWhile
import Mathlib.Tactic.IntervalCases
import Mathlib.Tactic.SplitIfs

/-!
# Reading what was written

Reading the pretty text of a value gives the value back, as long as the value is `Printable`: it has
no flaws, and its numbers are whole ones of at most 64 bits.

The text is followed piece by piece. `ofText_cons` cuts one token off a text; for each kind of
value there is a lemma that says which token its text begins with and what is left. From these,
`run_prettyAt` says where the reader stands behind the text of a value, by induction on the value.
-/

namespace BeanProcessing.Json

/-! ## Values that can be written -/

mutual

/-- Whether a value can be told from its text. -/
def Printable : Json → Prop
  | .null => True
  | .bool _ => True
  | .number (.natural n) => n < Nat.pow 2 64
  | .number (.other _) => False
  | .string _ => True
  | .array items => ItemsPrintable items
  | .object fields => FieldsPrintable fields
  | .flawed _ => False
  | .cut _ _ => False

/-- Whether each of some items can be told from its text. -/
def ItemsPrintable : List Json → Prop
  | [] => True
  | item :: rest => item.Printable ∧ ItemsPrintable rest

/-- Whether the value of each of some fields can be told from its text. -/
def FieldsPrintable : List (String × Json) → Prop
  | [] => True
  | (_, value) :: rest => value.Printable ∧ FieldsPrintable rest

end

theorem itemsPrintable_iff {items : List Json} :
    ItemsPrintable items ↔ ∀ item ∈ items, item.Printable := by
  induction items with
  | nil => simp [ItemsPrintable]
  | cons item rest ih => simp [ItemsPrintable, ih]

theorem fieldsPrintable_iff {fields : List (String × Json)} :
    FieldsPrintable fields ↔ ∀ field ∈ fields, field.2.Printable := by
  induction fields with
  | nil => simp [FieldsPrintable]
  | cons field rest ih => simp [FieldsPrintable, ih]

mutual

theorem firstFault?_of_printable (faultOf : Flaw → Option Fault) :
    ∀ v : Json, v.Printable → v.firstFault? faultOf = none
  | .null, _ => rfl
  | .bool _, _ => rfl
  | .number _, _ => rfl
  | .string _, _ => rfl
  | .array items, h => by
    rw [firstFault?]
    exact firstItemFault?_of_printable faultOf items h
  | .object fields, h => by
    rw [firstFault?]
    exact firstFieldFault?_of_printable faultOf fields h
  | .flawed _, h => h.elim
  | .cut _ _, h => h.elim

theorem firstItemFault?_of_printable (faultOf : Flaw → Option Fault) :
    ∀ items : List Json, ItemsPrintable items → firstItemFault? faultOf items = none
  | [], _ => rfl
  | item :: rest, h => by
    rw [firstItemFault?, firstFault?_of_printable faultOf item h.1,
      firstItemFault?_of_printable faultOf rest h.2]
    rfl

theorem firstFieldFault?_of_printable (faultOf : Flaw → Option Fault) :
    ∀ fields : List (String × Json), FieldsPrintable fields →
      firstFieldFault? faultOf fields = none
  | [], _ => rfl
  | (_, value) :: rest, h => by
    rw [firstFieldFault?, firstFault?_of_printable faultOf value h.1,
      firstFieldFault?_of_printable faultOf rest h.2]
    rfl

end

theorem takeIn_of_printable {v : Json} (h : v.Printable) : v.takeIn = .ok () := by
  rw [takeIn, firstFault?_of_printable _ v h]

/-! ## One token at a time -/

namespace Token

theorem ofText_eq (s : List Char) :
    ofText s = match next? s with
      | none => []
      | some (t, rest) => t :: ofText rest := by
  rw [ofText]
  split <;> next h => rw [h]

theorem ofText_nil : ofText [] = [] := ofText_eq []

theorem ofText_space {c : Char} (h : isSpace c = true) (s : List Char) :
    ofText (c :: s) = ofText s := by
  rw [ofText_eq, next?, if_pos h, ← ofText_eq]

theorem ofText_cons {c : Char} (h : isSpace c = false) (s : List Char) :
    ofText (c :: s) = (scan c s).1 :: ofText (scan c s).2 := by
  rw [ofText_eq, next?, if_neg (by simp [h])]

theorem ofText_newLine (depth : Nat) (s : List Char) :
    ofText ((newLine depth).toList ++ s) = ofText s := by
  have hindent : ofText ((List.replicate depth "  ").flatMap String.toList ++ s) = ofText s := by
    induction depth with
    | zero => rfl
    | succ depth ih =>
      show ofText (' ' :: ' ' :: ((List.replicate depth "  ").flatMap String.toList ++ s)) = _
      rw [ofText_space rfl, ofText_space rfl, ih]
  rw [newLine, String.toList_append, String.toList_join]
  show ofText ('\n' :: ((List.replicate depth "  ").flatMap String.toList ++ s)) = _
  rw [ofText_space rfl, hindent]

/-! ## Strings -/

theorem hexDigit?_hexDigit {n : Nat} (h : n < 16) : hexDigit? (hexDigit n) = some n := by
  revert n
  decide

/-- The spelling of a control character is read as that character. -/
theorem codeUnit?_of_lt_space {c : Char} (h : c < ' ') :
    codeUnit? '0' '0' (hexDigit (c.toNat / 16)) (hexDigit (c.toNat % 16)) = some c.toNat := by
  have hlt : c.toNat < 32 := h
  unfold codeUnit?
  rw [hexDigit?_hexDigit (by omega), hexDigit?_hexDigit (by omega)]
  show some (((0 * 16 + 0) * 16 + c.toNat / 16) * 16 + c.toNat % 16) = _
  congr 1
  omega

theorem pushUnit_of_lt_space (p : Partial) {c : Char} (h : c < ' ') :
    p.pushUnit c.toNat = p.push c := by
  have hlt : c.toNat < 32 := h
  unfold Partial.pushUnit
  rw [if_neg (by simp; omega), if_neg (by simp; omega), Char.ofNat_toNat]

/-- A character is read back from what is written for it. -/
theorem scanText_escapeChar (p : Partial) (c : Char) (s : List Char) :
    scanText p (escapeChar c ++ s) = scanText (p.push c) s := by
  unfold escapeChar
  split_ifs with hquote hbackslash hb ht hn hf hr hcontrol
  · subst hquote
    rfl
  · subst hbackslash
    rfl
  · subst hb
    rfl
  · subst ht
    rfl
  · subst hn
    rfl
  · subst hf
    rfl
  · subst hr
    rfl
  · show scanText p ('\\' :: 'u' :: '0' :: '0' :: hexDigit (c.toNat / 16)
      :: hexDigit (c.toNat % 16) :: s) = _
    rw [scanText, codeUnit?_of_lt_space hcontrol]
    exact congrArg (scanText · s) (pushUnit_of_lt_space p hcontrol)
  · show scanText p (c :: s) = _
    rw [scanText, if_neg hbackslash, if_neg hcontrol]
    -- the cases of the rule that come first begin with a quote or a backslash
    · exact hquote
    · exact fun _ _ _ _ _ h _ => hbackslash h
    · exact fun _ h _ => hbackslash h
    · exact fun _ _ h _ => hbackslash h

theorem scanText_flatMap (done cs s : List Char) :
    scanText { characters := done } (cs.flatMap escapeChar ++ '"' :: s)
      = (.text (String.ofList (done.reverse ++ cs)), s) := by
  induction cs generalizing done with
  | nil => rw [List.append_nil]; rfl
  | cons c rest ih =>
    rw [List.flatMap_cons, List.append_assoc, scanText_escapeChar, List.append_cons done.reverse,
      ← List.reverse_cons]
    exact ih (c :: done)

theorem ofText_quote (value : String) (s : List Char) :
    ofText ((quote value).toList ++ s) = .text value :: ofText s := by
  have htext : (quote value).toList ++ s
      = '"' :: (value.toList.flatMap escapeChar ++ '"' :: s) := by
    rw [quote, String.toList_append, String.toList_append, String.toList_ofList]
    simp
  have hscan : scan '"' (value.toList.flatMap escapeChar ++ '"' :: s) = (.text value, s) := by
    refine (scanText_flatMap [] value.toList s).trans ?_
    rw [List.reverse_nil, List.nil_append, String.ofList_toList]
  rw [htext, ofText_cons rfl, hscan]

/-! ## Numbers -/

/-- Whether a number in front of a text ends there. -/
def EndsNumber (s : List Char) : Prop :=
  ∀ c ∈ s.head?, NumberState.step? .zero c = none ∧ NumberState.step? .whole c = none

theorem endsNumber_nil : EndsNumber [] := fun _ h => by cases h

theorem scanNumber_zero {s : List Char} (h : EndsNumber s) (characters : List Char) :
    scanNumber .zero characters s = (ofSpelling characters.reverse, s) := by
  cases s with
  | nil => rfl
  | cons c s =>
    unfold scanNumber
    rw [(h c rfl).1]
    rfl

theorem scanNumber_whole {s : List Char} (h : EndsNumber s) (characters digits : List Char)
    (hdigits : ∀ c ∈ digits, isDigit c = true) :
    scanNumber .whole characters (digits ++ s)
      = (ofSpelling (characters.reverse ++ digits), s) := by
  induction digits generalizing characters with
  | nil =>
    rw [List.nil_append, List.append_nil]
    cases s with
    | nil => rfl
    | cons c s =>
      unfold scanNumber
      rw [(h c rfl).2]
      rfl
  | cons c rest ih =>
    obtain ⟨hc, hrest⟩ := List.forall_mem_cons.1 hdigits
    have hstep : NumberState.step? .whole c = some .whole := by
      rw [NumberState.step?, if_pos hc]
    rw [List.cons_append]
    unfold scanNumber
    rw [hstep]
    dsimp only
    rw [ih (c :: characters) hrest, List.reverse_cons, List.append_assoc]
    rfl

theorem ofDigits_toDigits (n : Nat) : ofDigits (Nat.toDigits 10 n) = n := by
  have hvalue : ofDigits (Nat.toDigits 10 n) = Nat.ofDigitChars 10 (Nat.toDigits 10 n) 0 := by
    unfold ofDigits Nat.ofDigitChars digitValue
    congr 1
    funext value c
    rw [Nat.mul_comm]
  rw [hvalue, Nat.ofDigitChars_ten_toDigits]

theorem le_foldl_digits (digits : List Char) (m : Nat) :
    m ≤ digits.foldl (fun n c => n * 10 + digitValue c) m := by
  induction digits generalizing m with
  | nil => exact Nat.le_refl m
  | cons c rest ih =>
    have hrest := ih (m * 10 + digitValue c)
    rw [List.foldl_cons]
    omega

/-- Digits whose number fits into the significand are all read. -/
theorem ofWhole_eq (m : Nat) (digits : List Char)
    (h : digits.foldl (fun n c => n * 10 + digitValue c) m < Nat.pow 2 64) :
    Magnitude.ofWhole m digits
      = { significand := digits.foldl (fun n c => n * 10 + digitValue c) m, exponent := 0 } := by
  induction digits generalizing m with
  | nil => rfl
  | cons c rest ih =>
    rw [List.foldl_cons] at h ⊢
    -- the number of the digits so far is at most that of all digits, and does not overflow either
    have hnext := le_foldl_digits rest (m * 10 + digitValue c)
    unfold Magnitude.ofWhole
    dsimp only
    rw [if_pos (by omega), ih _ h]

theorem ne_of_isDigit {c mark : Char} (h : Json.isDigit c = true)
    (hmark : Json.isDigit mark = false) : c ≠ mark := by
  rintro rfl
  rw [h] at hmark
  cases hmark

theorem magnitude_of_digits {digits : List Char} (hdigits : ∀ c ∈ digits, Json.isDigit c = true)
    (h : ofDigits digits < Nat.pow 2 64) :
    Magnitude.ofSpelling digits = { significand := ofDigits digits, exponent := 0 } := by
  -- there is neither an exponent mark nor a point among the digits
  have hmark : ∀ c ∈ digits, (!(c == 'e' || c == 'E')) = true := by
    intro c hc
    have he : c ≠ 'e' := ne_of_isDigit (hdigits c hc) rfl
    have hE : c ≠ 'E' := ne_of_isDigit (hdigits c hc) rfl
    simp [he, hE]
  have hpoint : ∀ c ∈ digits, (c != '.') = true := fun c hc =>
    bne_iff_ne.2 (ne_of_isDigit (hdigits c hc) rfl)
  unfold Magnitude.ofSpelling
  dsimp only
  rw [List.takeWhile_eq_self_iff.2 hmark, List.dropWhile_eq_nil_iff.2 hmark,
    List.takeWhile_eq_self_iff.2 hpoint, List.dropWhile_eq_nil_iff.2 hpoint,
    List.filter_eq_self.2 hdigits, ofWhole_eq 0 digits h]
  rfl

theorem rounded_le {n : Nat} (h : n < Nat.pow 2 64) : Magnitude.rounded n ≤ n + 2 ^ 12 := by
  -- rounding up adds one unit of the last place
  have hunit : Nat.pow 2 (n.log2 + 1 - 53) ≤ 2 ^ 12 := by
    refine Nat.pow_le_pow_right (by decide) ?_
    by_cases hn : n = 0
    · subst hn
      decide
    · have hlog : n.log2 < 64 := (Nat.log2_lt hn).2 h
      omega
  have hle : n / Nat.pow 2 (n.log2 + 1 - 53) * Nat.pow 2 (n.log2 + 1 - 53) ≤ n :=
    Nat.div_mul_le_self n _
  unfold Magnitude.rounded
  dsimp only
  split
  · rw [Nat.add_one_mul]
    exact Nat.add_le_add hle hunit
  · exact Nat.le_trans hle (Nat.le_add_right n _)

theorem lt_limit : 2 ^ 66 < Magnitude.limit := by decide +kernel

/-- No number that fits into a word is too large. -/
theorem isTooLarge_of_lt {n : Nat} (h : n < Nat.pow 2 64) :
    Magnitude.isTooLarge { significand := n, exponent := 0 } = false := by
  have hle : Magnitude.rounded n * Magnitude.rounded (Nat.pow 10 0) ≤ 2 ^ 66 := by
    have hone : Magnitude.rounded (Nat.pow 10 0) = 1 := by decide
    have hn := rounded_le h
    have h64 : n < 2 ^ 64 := h
    rw [hone]
    omega
  have hlimit : ¬ Magnitude.limit ≤ Magnitude.rounded n * Magnitude.rounded (Nat.pow 10 0) :=
    Nat.not_le.2 (Nat.lt_of_le_of_lt hle lt_limit)
  unfold Magnitude.isTooLarge
  split_ifs with hzero hexponent
  · rfl
  · exact absurd (show (308 : Int) < 0 from hexponent) (by decide)
  · exact decide_eq_false hlimit

theorem exists_leading_digit {n : Nat} (hn : 0 < n) :
    ∃ d rest, 0 < d ∧ d < 10 ∧ Nat.toDigits 10 n = Nat.digitChar d :: rest := by
  induction n using Nat.strongRecOn with
  | ind n ih =>
    rw [Nat.toDigits_eq_if (by decide)]
    by_cases hlt : n < 10
    · rw [if_pos hlt]
      exact ⟨n, [], hn, hlt, rfl⟩
    · obtain ⟨d, rest, hpos, hd, hdigits⟩ := ih (n / 10) (by omega) (by omega)
      rw [if_neg hlt, hdigits]
      exact ⟨d, _, hpos, hd, rfl⟩

theorem scan_digitChar {d : Nat} (hpos : 0 < d) (hd : d < 10) (s : List Char) :
    scan (Nat.digitChar d) s = scanNumber .whole [Nat.digitChar d] s := by
  interval_cases d <;> rfl

theorem ofSpelling_toDigits {n : Nat} (hn : n < Nat.pow 2 64) :
    ofSpelling (Nat.toDigits 10 n) = .scalar (.nat n) := by
  have hdigits : ∀ c ∈ Nat.toDigits 10 n, Json.isDigit c = true := fun c hc =>
    Nat.isDigit_of_mem_toDigits (by decide) (by decide) hc
  have hlt : ofDigits (Nat.toDigits 10 n) < Nat.pow 2 64 := (ofDigits_toDigits n).symm ▸ hn
  unfold ofSpelling
  rw [magnitude_of_digits hdigits hlt, isTooLarge_of_lt hlt, if_neg Bool.false_ne_true,
    if_pos (List.all_eq_true.2 hdigits), ofDigits_toDigits]

/-- A number is read back from its digits, if it ends behind them. -/
theorem ofText_repr {n : Nat} (hn : n < Nat.pow 2 64) {s : List Char} (h : EndsNumber s) :
    ofText ((Nat.repr n).toList ++ s) = .scalar (.nat n) :: ofText s := by
  rw [Nat.repr_eq_ofList_toDigits, String.toList_ofList]
  have hspelling := ofSpelling_toDigits hn
  -- the scanner takes a leading zero for the whole number
  by_cases hzero : n = 0
  · subst hzero
    show ofText ('0' :: s) = _
    rw [ofText_cons rfl]
    show (scanNumber .zero ['0'] s).1 :: ofText (scanNumber .zero ['0'] s).2 = _
    rw [scanNumber_zero h]
    exact congrArg (· :: ofText s) hspelling
  · obtain ⟨d, rest, hpos, hd, hdigits⟩ := exists_leading_digit (Nat.pos_of_ne_zero hzero)
    have hrest : ∀ c ∈ rest, Json.isDigit c = true := fun c hc =>
      Nat.isDigit_of_mem_toDigits (by decide) (by decide) (hdigits ▸ List.mem_cons_of_mem _ hc)
    have hspace : isSpace (Nat.digitChar d) = false := by
      interval_cases d <;> rfl
    rw [hdigits] at hspelling ⊢
    rw [List.cons_append, ofText_cons hspace, scan_digitChar hpos hd, scanNumber_whole h _ _ hrest]
    exact congrArg (· :: ofText s) hspelling

/-! ## Literal names and marks -/

theorem ofText_null (s : List Char) : ofText ("null".toList ++ s) = .scalar .null :: ofText s :=
  ofText_cons rfl _

theorem ofText_true (s : List Char) :
    ofText ("true".toList ++ s) = .scalar (.bool true) :: ofText s :=
  ofText_cons rfl _

theorem ofText_false (s : List Char) :
    ofText ("false".toList ++ s) = .scalar (.bool false) :: ofText s :=
  ofText_cons rfl _

theorem ofText_openArray (s : List Char) : ofText ("[".toList ++ s) = .openArray :: ofText s :=
  ofText_cons rfl _

theorem ofText_closeArray (s : List Char) : ofText ("]".toList ++ s) = .closeArray :: ofText s :=
  ofText_cons rfl _

theorem ofText_emptyArray (s : List Char) :
    ofText ("[]".toList ++ s) = .openArray :: .closeArray :: ofText s :=
  (ofText_openArray (']' :: s)).trans (congrArg (.openArray :: ·) (ofText_closeArray s))

theorem ofText_openObject (s : List Char) :
    ofText ("\x7b".toList ++ s) = .openObject :: ofText s :=
  ofText_cons rfl _

theorem ofText_closeObject (s : List Char) :
    ofText ("\x7d".toList ++ s) = .closeObject :: ofText s :=
  ofText_cons rfl _

theorem ofText_emptyObject (s : List Char) :
    ofText ("\x7b\x7d".toList ++ s) = .openObject :: .closeObject :: ofText s :=
  (ofText_openObject ('\x7d' :: s)).trans (congrArg (.openObject :: ·) (ofText_closeObject s))

theorem ofText_colon (s : List Char) : ofText (": ".toList ++ s) = .colon :: ofText s :=
  (ofText_cons rfl (' ' :: s)).trans (congrArg (.colon :: ·) (ofText_space rfl s))

/-! ## Layout -/

/-- Some parts, each behind a comma and on a line of its own. -/
def furtherLines (depth : Nat) (parts : List String) : List Char :=
  parts.flatMap fun part => ',' :: ((newLine depth).toList ++ part.toList)

theorem toList_onLines_append (opening closing : String) (depth : Nat) (part : String)
    (parts : List String) (s : List Char) :
    (onLines opening closing depth (part :: parts)).toList ++ s
      = opening.toList ++ ((newLine (depth + 1)).toList ++ (part.toList
        ++ (furtherLines (depth + 1) parts
          ++ ((newLine depth).toList ++ (closing.toList ++ s))))) := by
  have hparts : ((("," ++ newLine (depth + 1)).intercalate (part :: parts)).toList
      = part.toList ++ furtherLines (depth + 1) parts) := by
    induction parts generalizing part with
    | nil => rw [String.intercalate_singleton, furtherLines, List.flatMap_nil, List.append_nil]
    | cons next rest ih =>
      rw [String.intercalate_cons_cons, String.toList_append, String.toList_append, ih next,
        furtherLines, furtherLines, List.flatMap_cons, String.toList_append]
      simp
  unfold onLines
  rw [String.toList_append, String.toList_append, String.toList_append, String.toList_append,
    hparts]
  simp only [List.append_assoc]

theorem endsNumber_furtherLines (depth depth' : Nat) (parts : List String) (s : List Char) :
    EndsNumber (furtherLines depth parts ++ ((newLine depth').toList ++ s)) := by
  have hhead : ∃ c, (c = '\n' ∨ c = ',')
      ∧ (furtherLines depth parts ++ ((newLine depth').toList ++ s)).head? = some c := by
    cases parts with
    | nil =>
      rw [furtherLines, List.flatMap_nil, List.nil_append, newLine, String.toList_append]
      exact ⟨'\n', Or.inl rfl, rfl⟩
    | cons part rest => exact ⟨',', Or.inr rfl, rfl⟩
  obtain ⟨c, hc, hhead⟩ := hhead
  intro c' hc'
  rw [hhead] at hc'
  cases hc'
  rcases hc with rfl | rfl <;> exact ⟨rfl, rfl⟩

theorem ofText_furtherLines_cons (depth : Nat) (part : String) (parts : List String)
    (s : List Char) :
    ofText (furtherLines depth (part :: parts) ++ s)
      = .comma :: ofText (part.toList ++ (furtherLines depth parts ++ s)) := by
  rw [furtherLines, List.flatMap_cons, List.append_assoc, List.cons_append, List.append_assoc,
    ofText_cons rfl]
  show .comma :: ofText ((newLine depth).toList ++ _) = _
  rw [ofText_newLine]
  rfl

end Token

/-! ## The reader behind a value -/

open Token

namespace Reader

/-- Whether the reader expects a value within some frames. -/
def ExpectsValue (frames : List Frame) (expected : Expectation) (within : List Frame) : Prop :=
  ∀ t next, openValue? within t = some next → step? frames expected t = some next

theorem expectsValue_value (frames : List Frame) : ExpectsValue frames .value frames :=
  fun _ _ h => h

theorem expectsValue_firstItem (frames : List Frame) :
    ExpectsValue frames .firstItem (.items [] :: frames) := by
  intro t next h
  cases t with
  | closeArray => cases h
  | _ => exact h

theorem run_cons {frames frames' : List Frame} {expected expected' : Expectation} {t : Token}
    (h : step? frames expected t = some (frames', expected')) (tokens : List Token) :
    run frames expected (t :: tokens) = run frames' expected' tokens := by
  rw [run, h]

theorem ExpectsValue.run_cons {frames within frames' : List Frame}
    {expected expected' : Expectation} {t : Token} (h : ExpectsValue frames expected within)
    (hopen : openValue? within t = some (frames', expected')) (tokens : List Token) :
    run frames expected (t :: tokens) = run frames' expected' tokens :=
  Reader.run_cons (h t _ hopen) tokens

/-- Fields as an open object holds them. -/
def entriesOf (fields : List (String × Json)) : List (Option String × Json) :=
  fields.map fun field => (some field.1, field.2)

theorem ofEntries_entriesOf (done fields : List (String × Json)) :
    ofEntries done none (entriesOf fields) = .object (done.reverse ++ fields) := by
  induction fields generalizing done with
  | nil => rw [List.append_nil]; rfl
  | cons field rest ih =>
    rw [List.append_cons, ← List.reverse_cons]
    exact ih (field :: done)

theorem close_field (done : List (String × Json)) (key : String) (v : Json) :
    Frame.close v (.field (entriesOf done) (some key)) = .object (done.reverse ++ [(key, v)]) := by
  show ofEntries [] none (entriesOf ((key, v) :: done)).reverse = _
  rw [entriesOf, ← List.map_reverse]
  exact (ofEntries_entriesOf [] _).trans (by simp)

/-- Behind the text of a field the reader has its value within the object, where it expected a
field. -/
theorem run_field {depth : Nat} {frames : List Frame} {expected : Expectation}
    (done : List (String × Json)) (key : String) {value : Json} {s : List Char}
    (hkey : step? frames expected (.text key) = some (frames, .colon (entriesOf done) (some key)))
    (hvalue : ∀ frames, run frames .value (ofText ((prettyAt depth value).toList ++ s))
      = run frames (.separator value) (ofText s)) :
    run frames expected (ofText ((quote key ++ ": " ++ prettyAt depth value).toList ++ s))
      = run (.field (entriesOf done) (some key) :: frames) (.separator value) (ofText s) := by
  rw [String.toList_append, String.toList_append, List.append_assoc, List.append_assoc,
    ofText_quote, run_cons hkey, ofText_colon, run_cons rfl]
  exact hvalue _

mutual

/-- Behind the text of a value the reader has that value, where it expected one. -/
theorem run_prettyAt (depth : Nat) {frames within : List Frame} {expected : Expectation}
    (h : ExpectsValue frames expected within) {s : List Char} (hs : EndsNumber s) :
    ∀ v : Json, v.Printable →
      run frames expected (ofText ((prettyAt depth v).toList ++ s))
        = run within (.separator v) (ofText s)
  | .null, _ => by
    show run frames expected (ofText ("null".toList ++ s)) = _
    rw [ofText_null, h.run_cons rfl]
  | .bool true, _ => by
    show run frames expected (ofText ("true".toList ++ s)) = _
    rw [ofText_true, h.run_cons rfl]
  | .bool false, _ => by
    show run frames expected (ofText ("false".toList ++ s)) = _
    rw [ofText_false, h.run_cons rfl]
  | .number (.natural n), hv => by
    show run frames expected (ofText ((Nat.repr n).toList ++ s)) = _
    rw [ofText_repr hv hs, h.run_cons rfl]
    rfl
  | .number (.other _), hv => hv.elim
  | .string value, _ => by
    show run frames expected (ofText ((quote value).toList ++ s)) = _
    rw [ofText_quote, h.run_cons rfl]
  | .array [], _ => by
    rw [prettyAt, ofText_emptyArray, h.run_cons rfl, run_cons rfl]
  | .array (item :: rest), hv => by
    rw [prettyAt, toList_onLines_append, ofText_openArray, h.run_cons rfl, ofText_newLine,
      run_prettyAt (depth + 1) (expectsValue_firstItem within) (endsNumber_furtherLines _ _ _ _)
        item hv.1]
    exact run_prettyItems depth rest hv.2 [] item within s
  | .object [], _ => by
    rw [prettyAt, ofText_emptyObject, h.run_cons rfl, run_cons rfl]
  | .object ((key, value) :: rest), hv => by
    rw [prettyAt, toList_onLines_append, ofText_openObject, h.run_cons rfl, ofText_newLine,
      run_field [] key rfl fun frames => run_prettyAt (depth + 1)
        (expectsValue_value frames) (endsNumber_furtherLines _ _ _ _) value hv.1]
    exact run_prettyFields depth rest hv.2 [] key value within s
  | .flawed _, hv => hv.elim
  | .cut _ _, hv => hv.elim

/-- The reader takes in the items of an array behind the first. -/
theorem run_prettyItems (depth : Nat) : ∀ items : List Json, ItemsPrintable items →
    ∀ (done : List Json) (v : Json) (frames : List Frame) (s : List Char),
      run (.items done :: frames) (.separator v)
        (ofText (furtherLines (depth + 1) (prettyItems (depth + 1) items)
          ++ ((newLine depth).toList ++ ("]".toList ++ s))))
        = run frames (.separator (.array (done.reverse ++ v :: items))) (ofText s)
  | [], _ => by
    intro done v frames s
    show run _ _ (ofText ((newLine depth).toList ++ ("]".toList ++ s))) = _
    rw [ofText_newLine, ofText_closeArray, run_cons rfl, Frame.close, List.reverse_cons]
  | next :: rest, h => by
    intro done v frames s
    rw [prettyItems, ofText_furtherLines_cons, run_cons rfl,
      run_prettyAt (depth + 1) (expectsValue_value _) (endsNumber_furtherLines _ _ _ _) next h.1,
      run_prettyItems depth rest h.2 (v :: done) next frames s, List.reverse_cons,
      List.append_assoc]
    rfl

/-- The reader takes in the fields of an object behind the first. -/
theorem run_prettyFields (depth : Nat) : ∀ fields : List (String × Json),
    FieldsPrintable fields →
    ∀ (done : List (String × Json)) (key : String) (v : Json) (frames : List Frame)
      (s : List Char),
      run (.field (entriesOf done) (some key) :: frames) (.separator v)
        (ofText (furtherLines (depth + 1) (prettyFields (depth + 1) fields)
          ++ ((newLine depth).toList ++ ("\x7d".toList ++ s))))
        = run frames (.separator (.object (done.reverse ++ (key, v) :: fields))) (ofText s)
  | [], _ => by
    intro done key v frames s
    show run _ _ (ofText ((newLine depth).toList ++ ("\x7d".toList ++ s))) = _
    rw [ofText_newLine, ofText_closeObject, run_cons rfl, close_field]
  | (nextKey, next) :: rest, h => by
    intro done key v frames s
    rw [prettyFields, ofText_furtherLines_cons, run_cons rfl,
      run_field ((key, v) :: done) nextKey rfl fun frames => run_prettyAt (depth + 1)
        (expectsValue_value frames) (endsNumber_furtherLines _ _ _ _) next h.1,
      run_prettyFields depth rest h.2 ((key, v) :: done) nextKey next frames s, List.reverse_cons,
      List.append_assoc]
    rfl

end

end Reader

/-- Reading the pretty text of a value gives the value back, with nothing behind it. -/
theorem Document.ofText_pretty {v : Json} (h : v.Printable) :
    Document.ofText v.pretty = { value := v, hasMore := false } := by
  have hrun := Reader.run_prettyAt 0 (Reader.expectsValue_value []) Token.endsNumber_nil v h
  rw [List.append_nil, Token.ofText_nil] at hrun
  exact hrun

theorem read_pretty {α : Type} {decode : Json → Except Fault α} {v : Json} (h : v.Printable) :
    read decode v.pretty = decode v := by
  unfold read
  rw [Document.ofText_pretty h]
  dsimp only
  cases decode v with
  | error fault => rfl
  | ok a => rfl

end BeanProcessing.Json
