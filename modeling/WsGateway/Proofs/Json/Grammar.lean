import WsGateway.Proofs.Json.Nesting
import WsGateway.Proofs.Json.Printed

/-!
# The grammar of JSON texts

When a text is well-formed JSON, said of its characters and not of a reader: `WellFormed` has a case
for each kind of value, with blanks wherever they may stand, and its leaves are the texts of numbers
(`NumberText`) and strings (`StringText`). Everything that is printed is well-formed
(`wellFormed_print`), and so is an object that is put together from names and well-formed texts
(`wellFormed_members`). A well-formed text is a tight one, with blanks around it
(`WellFormed.exists_tight`).
-/

namespace WsGateway.Json

/-! ## Leaves -/

def Blanks (cs : List Char) : Prop := ∀ c ∈ cs, isBlank c

/-- The exponent of a number: its letter, perhaps a sign, and at least one digit. -/
inductive ExponentText : List Char → Prop where
  | absent : ExponentText []
  | present {letter : Char} {sign digits : List Char} (hletter : letter = 'e' ∨ letter = 'E')
      (hsign : sign = [] ∨ sign = ['+'] ∨ sign = ['-']) (hne : digits ≠ [])
      (hdigits : ∀ d ∈ digits, d.isDigit) : ExponentText (letter :: (sign ++ digits))

/-- A number: perhaps a minus sign, the digits before the point, and perhaps a point with digits
and an exponent. -/
inductive NumberText : List Char → Prop where
  | intro {sign whole fraction exponent : List Char} (hsign : sign = [] ∨ sign = ['-'])
      (hwhole : WholeDigits whole) (hfraction : ∀ d ∈ fraction, d.isDigit)
      (hexponent : ExponentText exponent) :
      NumberText (sign ++ (whole ++ (Numeral.fractionText fraction ++ exponent)))

def IsHexDigit (c : Char) : Prop :=
  ('0' ≤ c ∧ c ≤ '9') ∨ ('a' ≤ c ∧ c ≤ 'f') ∨ ('A' ≤ c ∧ c ≤ 'F')

instance (c : Char) : Decidable (IsHexDigit c) := inferInstanceAs (Decidable (_ ∨ _))

/-- What stands for one character of a string. -/
inductive CharText : List Char → Prop where
  | plain {c : Char} (hquote : c ≠ '"') (hslash : c ≠ '\\') (hcontrol : 32 ≤ c.toNat) :
      CharText [c]
  | short {c : Char} (h : c ∈ ['"', '\\', '/', 'b', 'f', 'n', 'r', 't']) : CharText ['\\', c]
  | number {digits : List Char} (hlength : digits.length = 4)
      (h : ∀ d ∈ digits, IsHexDigit d) : CharText ('\\' :: 'u' :: digits)

/-- A string with its quotes. -/
inductive StringText : List Char → Prop where
  | intro {chars : List (List Char)} (h : ∀ text ∈ chars, CharText text) :
      StringText ('"' :: (chars.flatten ++ ['"']))

/-- The name of a member: a string, with blanks around it. -/
inductive NameText : List Char → Prop where
  | intro {before text after : List Char} (hbefore : Blanks before) (htext : StringText text)
      (hafter : Blanks after) : NameText (before ++ (text ++ after))

/-! ## Values -/

/-- **A well-formed JSON text.** The items of a list and the values of an object are well-formed
texts themselves, so that there may be blanks around each; blanks may also stand between brackets
with nothing else in them. -/
inductive WellFormed : List Char → Prop where
  | null : WellFormed "null".toList
  | true : WellFormed "true".toList
  | false : WellFormed "false".toList
  | number {text : List Char} (h : NumberText text) : WellFormed text
  | string {text : List Char} (h : StringText text) : WellFormed text
  | array (gap : List Char) (items : List (List Char)) (hgap : Blanks gap)
      (hitems : ∀ item ∈ items, WellFormed item) :
      WellFormed ('[' :: (gap ++ (commaSeparated items ++ [']'])))
  | object (gap : List Char) (members : List (List Char × List Char)) (hgap : Blanks gap)
      (hnames : ∀ m ∈ members, NameText m.1) (hvalues : ∀ m ∈ members, WellFormed m.2) :
      WellFormed ('\x7b' :: (gap ++
        (commaSeparated (members.map fun m => m.1 ++ ':' :: m.2) ++ ['\x7d'])))
  | blanks {before text after : List Char} (hbefore : Blanks before) (h : WellFormed text)
      (hafter : Blanks after) : WellFormed (before ++ (text ++ after))

theorem blanks_nil : Blanks [] := fun _ h => absurd h List.not_mem_nil

/-! ## Texts without blanks around them -/

/-- A text without blanks at its ends. -/
structure Tight (text : List Char) : Prop where
  head : ∀ c ∈ text.head?, isBlank c = false
  last : ∀ c ∈ text.getLast?, isBlank c = false

theorem tight_of_forall {text : List Char} (h : ∀ c ∈ text, isBlank c = false) : Tight text :=
  ⟨fun c hc => h c (List.mem_of_head? hc), fun c hc => h c (List.mem_of_getLast? hc)⟩

theorem tight_of_all {text : List Char} (h : text.all (fun c => !isBlank c) = true) : Tight text :=
  tight_of_forall fun c hc => by simpa using List.all_eq_true.mp h c hc

theorem tight_bracketed {opening closing : Char} (inner : List Char)
    (hopening : isBlank opening = false) (hclosing : isBlank closing = false) :
    Tight (opening :: (inner ++ [closing])) := by
  constructor
  · intro c hc
    cases hc
    exact hopening
  · intro c hc
    rw [← List.cons_append, List.getLast?_concat] at hc
    cases hc
    exact hclosing

theorem isBlank_of_isDigit {c : Char} (h : c.isDigit) : isBlank c = false :=
  isBlank_of_number (.inr h)

/-- A number has no blank in it. -/
theorem isBlank_of_numberText {text : List Char} (h : NumberText text) :
    ∀ c ∈ text, isBlank c = false := by
  cases h with
  | @intro sign whole fraction exponent hsign hwhole hfraction hexponent =>
    intro c hc
    simp only [List.mem_append] at hc
    -- The character is in the sign, the whole digits, the fraction or the exponent.
    rcases hc with hc | hc | hc | hc
    · rcases hsign with rfl | rfl
      · cases hc
      · rw [List.mem_singleton.mp hc]
        rfl
    · cases hwhole with
      | zero =>
        rw [List.mem_singleton.mp hc]
        rfl
      | nonzero _ hdigits => exact isBlank_of_isDigit (hdigits c hc)
    · unfold Numeral.fractionText at hc
      split at hc
      · cases hc
      · rcases List.mem_cons.mp hc with rfl | hc
        · rfl
        · exact isBlank_of_isDigit (hfraction c hc)
    · cases hexponent with
      | absent => cases hc
      | present hletter hexponentSign _ hdigits =>
        rcases List.mem_cons.mp hc with rfl | hc
        · rcases hletter with rfl | rfl <;> rfl
        rcases List.mem_append.mp hc with hc | hc
        · rcases hexponentSign with rfl | rfl | rfl
          · cases hc
          · rw [List.mem_singleton.mp hc]
            rfl
          · rw [List.mem_singleton.mp hc]
            rfl
        · exact isBlank_of_isDigit (hdigits c hc)

/-- **Every well-formed text is one without blanks around it**, and blanks around that. -/
theorem WellFormed.exists_tight {text : List Char} (h : WellFormed text) :
    ∃ before core after, Blanks before ∧ Blanks after ∧ WellFormed core ∧ Tight core ∧
      text = before ++ (core ++ after) := by
  -- Every constructor but the one for blanks gives a text that is its own core.
  have hself : ∀ {core : List Char}, WellFormed core → Tight core →
      ∃ before core' after, Blanks before ∧ Blanks after ∧ WellFormed core' ∧ Tight core' ∧
        core = before ++ (core' ++ after) := fun hcore htight =>
    ⟨[], _, [], blanks_nil, blanks_nil, hcore, htight, by rw [List.append_nil, List.nil_append]⟩
  induction h with
  | null => exact hself .null (tight_of_all rfl)
  | true => exact hself .true (tight_of_all rfl)
  | false => exact hself .false (tight_of_all rfl)
  | number h => exact hself (.number h) (tight_of_forall (isBlank_of_numberText h))
  | string h =>
    refine hself (.string h) ?_
    cases h
    exact tight_bracketed _ rfl rfl
  | array gap items hgap hitems _ =>
    refine hself (.array gap items hgap hitems) ?_
    rw [← List.append_assoc]
    exact tight_bracketed _ rfl rfl
  | object gap members hgap hnames hvalues _ =>
    refine hself (.object gap members hgap hnames hvalues) ?_
    rw [← List.append_assoc]
    exact tight_bracketed _ rfl rfl
  | @blanks before text after hbefore _ hafter ih =>
    obtain ⟨before', core, after', hbefore', hafter', hcore, htight, rfl⟩ := ih
    refine ⟨before ++ before', core, after' ++ after, ?_, ?_, hcore, htight,
      by simp only [List.append_assoc]⟩
    · exact fun c hc => (List.mem_append.mp hc).elim (hbefore c) (hbefore' c)
    · exact fun c hc => (List.mem_append.mp hc).elim (hafter' c) (hafter c)

/-! ## Printed texts -/

/-- Every character is printed as the grammar has it. -/
theorem charText_escapedChar (c : Char) : CharText (escapedChar c).toList := by
  rcases escapedChar_cases c with
    ⟨e, hu, he, heq⟩ | ⟨n, hn, -, heq⟩ | ⟨hquote, hslash, hcontrol, heq⟩
  · rw [heq]
    refine .short ?_
    unfold shortEscape? at he
    split at he
    all_goals first | decide | cases he
  · have hdigit : ∀ d < 16, IsHexDigit d.digitChar := by decide
    rw [heq]
    refine .number rfl ?_
    simp only [List.forall_mem_cons, List.not_mem_nil, false_imp_iff, implies_true, and_true]
    exact ⟨by decide, by decide, hdigit _ (by omega), hdigit _ (by omega)⟩
  · rw [heq]
    exact .plain hquote hslash hcontrol

/-- Every string is printed as the grammar has it. -/
theorem stringText_printString (s : String) : StringText (printString s).toList := by
  have hparts : escaped s.toList = (s.toList.map fun c => (escapedChar c).toList).flatten := by
    rw [escaped, List.flatMap_def]
  rw [toList_printString, hparts]
  refine .intro ?_
  intro text htext
  obtain ⟨c, -, rfl⟩ := List.mem_map.mp htext
  exact charText_escapedChar c

/-- A well-formed numeral spells a number of the grammar. -/
theorem Numeral.WellFormed.numberText {t : Numeral} (h : t.WellFormed) : NumberText t.text := by
  have hsign : (if t.negative then ['-'] else []) = [] ∨
      (if t.negative then ['-'] else []) = ['-'] := by
    cases t.negative
    · exact .inl rfl
    · exact .inr rfl
  have hexponent : ExponentText (Numeral.exponentText t.exponent) := by
    cases he : t.exponent with
    | none => exact .absent
    | some e =>
      obtain ⟨negative, digits⟩ := e
      obtain ⟨hne, hdigits⟩ := h.exponent (negative, digits) he
      have htext : Numeral.exponentText (some (negative, digits)) =
          'e' :: ([if negative then '-' else '+'] ++ digits) := rfl
      rw [htext]
      refine .present (.inl rfl) ?_ hne hdigits
      cases negative
      · exact .inr (.inl rfl)
      · exact .inr (.inr rfl)
  exact .intro hsign h.whole h.fraction hexponent

/-- Every number is printed as the grammar has it. -/
theorem numberText_printNumber (n : Number) : NumberText (printNumber n).toList := by
  obtain ⟨t, hwell, -, htext, -⟩ := exists_numeral n endsNumber_nil
  rw [htext]
  exact hwell.numberText

/-- A printed name is the name of a member. -/
theorem nameText_printString (s : String) : NameText (printString s).toList := by
  have hname := NameText.intro blanks_nil (stringText_printString s) blanks_nil
  rwa [List.append_nil, List.nil_append] at hname

/-- **An object put together** from names and well-formed texts. -/
theorem wellFormed_members (members : List (String × List Char))
    (h : ∀ m ∈ members, WellFormed m.2) :
    WellFormed ('\x7b' :: (commaSeparated (members.map fun m => memberText m.1 m.2) ++
      ['\x7d'])) := by
  have hobject := WellFormed.object [] (members.map fun m => ((printString m.1).toList, m.2))
    blanks_nil ?_ ?_
  · rw [List.map_map] at hobject
    exact hobject
  · intro m hm
    obtain ⟨m', -, rfl⟩ := List.mem_map.mp hm
    exact nameText_printString m'.1
  · intro m hm
    obtain ⟨m', hm', rfl⟩ := List.mem_map.mp hm
    exact h m' hm'

/-- An object whose members have the names, in this order. -/
def HasMembers (names : List String) (text : List Char) : Prop :=
  ∃ members : List (String × List Char), members.map Prod.fst = names ∧
    (∀ m ∈ members, WellFormed m.2) ∧
    text = '\x7b' :: (commaSeparated (members.map fun m => memberText m.1 m.2) ++ ['\x7d'])

/-- A text with the members of an object is a value. -/
theorem HasMembers.wellFormed {names : List String} {text : List Char} (h : HasMembers names text) :
    WellFormed text := by
  obtain ⟨members, -, hvalues, rfl⟩ := h
  exact wellFormed_members members hvalues

/-- **Everything that is printed is well-formed.** -/
theorem wellFormed_print (v : Value) : WellFormed v.print.toList := by
  -- The printed text has no blanks, so each kind of value is its own constructor of the grammar.
  induction v using Value.inductionOn with
  | null => exact .null
  | bool b =>
    cases b
    · exact .false
    · exact .true
  | number n => exact .number (numberText_printNumber n)
  | string s => exact .string (stringText_printString s)
  | array items ih =>
    rw [toList_print_array]
    refine .array [] _ blanks_nil ?_
    intro item hitem
    obtain ⟨v, hv, rfl⟩ := List.mem_map.mp hitem
    exact ih v hv
  | object members ih =>
    have hmembers := wellFormed_members (members.map fun m => (m.1, m.2.print.toList)) ?_
    · rw [List.map_map] at hmembers
      rw [toList_print_object]
      exact hmembers
    · intro m hm
      obtain ⟨m', hm', rfl⟩ := List.mem_map.mp hm
      exact ih m' hm'

end WsGateway.Json
