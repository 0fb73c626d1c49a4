import CtrlMesh.Labels.Text

/-!
# Reading a selector back

The text of a selector whose requirements are valid is parsed to a selector that matches the same
label maps. The lexer part is a set of rules, one per kind of token; the parser part follows the
grammar.
-/

namespace CtrlMesh.Labels

/-- A character that only words contain. -/
structure Plain (ch : Char) : Prop where
  nonzero : ch.toNat ≠ 0
  noSymbol : isSpecialSymbol ch = false
  noSpace : isWhitespace ch = false

/-- The characters of label keys and values. -/
def isLabelChar (ch : Char) : Bool :=
  isLetterOrDigit ch || ch == '-' || ch == '_' || ch == '.' || ch == '/'

variable {ch : Char} {key : String} {reqs : List Requirement}

theorem isSpecialSymbol_iff : isSpecialSymbol ch = true ↔
    ch = '=' ∨ ch = '!' ∨ ch = '(' ∨ ch = ')' ∨ ch = ',' ∨ ch = '>' ∨ ch = '<' := by
  simp [isSpecialSymbol, or_assoc]

theorem plain_of_isLabelChar (label : isLabelChar ch = true) : Plain ch := by
  constructor
  · intro zero
    have null : ch = '\x00' := Char.toNat_inj.mp zero
    rw [null] at label
    revert label
    decide
  · by_contra symbol
    rw [Bool.not_eq_false, isSpecialSymbol_iff] at symbol
    rcases symbol with rfl | rfl | rfl | rfl | rfl | rfl | rfl <;> revert label <;> decide
  · by_contra space
    rw [Bool.not_eq_false] at space
    have white : ch = ' ' ∨ ch = '\t' ∨ ch = '\r' ∨ ch = '\n' := by
      simpa only [isWhitespace, Bool.or_eq_true, beq_iff_eq, or_assoc] using space
    rcases white with rfl | rfl | rfl | rfl <;> revert label <;> decide

variable {text : List Char} {r : Requirement}

theorem isLabelChar_of_framed {inner : Char → Bool} {outer : Char → Bool}
    (framed : isFramed outer inner text = true)
    (allowed : ∀ ch, (outer ch || inner ch) = true → isLabelChar ch = true) :
    text ≠ [] ∧ ∀ ch ∈ text, isLabelChar ch = true := by
  simp only [isFramed, Bool.and_eq_true, List.all_eq_true] at framed
  constructor
  · rintro rfl
    simp at framed
  · intro ch member
    exact allowed ch (framed.2 ch member)

theorem isLabelChar_of_name (named : matchesQualifiedName text = true) :
    text ≠ [] ∧ ∀ ch ∈ text, isLabelChar ch = true := by
  apply isLabelChar_of_framed named
  intro ch allowed
  simp only [Bool.or_eq_true] at allowed
  simp only [isLabelChar, Bool.or_eq_true]
  tauto

/-- Every character of a text is in one of its parts or separates two of them. -/
theorem mem_part_of_mem {separator : Char} (member : ch ∈ text) :
    ch = separator ∨ ∃ part ∈ text.splitOn separator, ch ∈ part := by
  have joined : [separator].intercalate (text.splitOn separator) = text :=
    List.intercalate_splitOn separator
  rw [← joined] at member
  revert member
  generalize text.splitOn separator = parts
  induction parts with
  | nil => simp [List.intercalate]
  | cons part parts ih =>
    cases parts with
    | nil =>
      intro member
      exact .inr ⟨part, by simp, by simpa [List.intercalate] using member⟩
    | cons second parts =>
      intro member
      have split : ch ∈ part ∨ ch = separator ∨ ch ∈ [separator].intercalate (second :: parts) := by
        simpa [List.intercalate] using member
      rcases split with here | same | later
      · exact .inr ⟨part, by simp, here⟩
      · exact .inl same
      · rcases ih later with same | ⟨other, inside, found⟩
        · exact .inl same
        · exact .inr ⟨other, .tail _ inside, found⟩

theorem isLabelChar_of_subdomain (valid : isDNS1123Subdomain text = true) :
    ∀ ch ∈ text, isLabelChar ch = true := by
  simp only [isDNS1123Subdomain, Bool.and_eq_true, List.all_eq_true] at valid
  intro ch member
  rcases @mem_part_of_mem ch text '.' member with rfl | ⟨part, inside, found⟩
  · decide
  · refine (isLabelChar_of_framed (valid.2 part inside) ?_).2 ch found
    intro other allowed
    simp only [isLowerOrDigit, isLabelChar, isLetterOrDigit, Bool.or_eq_true] at allowed ⊢
    tauto

theorem isLabelChar_of_key (valid : isQualifiedName key = true) :
    key.toList ≠ [] ∧ ∀ ch ∈ key.toList, isLabelChar ch = true := by
  have joined : ['/'].intercalate (key.toList.splitOn '/') = key.toList :=
    List.intercalate_splitOn '/'
  unfold isQualifiedName at valid
  split at valid
  · next name split =>
    rw [Bool.and_eq_true] at valid
    rw [split] at joined
    have same : name = key.toList := by simpa [List.intercalate] using joined
    rw [← same]
    exact isLabelChar_of_name valid.2
  · next before name split =>
    rw [Bool.and_eq_true, Bool.and_eq_true] at valid
    rw [split] at joined
    have same : before ++ '/' :: name = key.toList := by simpa [List.intercalate] using joined
    rw [← same]
    refine ⟨by simp, fun ch member => ?_⟩
    rcases List.mem_append.mp member with left | right
    · exact isLabelChar_of_subdomain valid.1.1 ch left
    · rcases List.mem_cons.mp right with rfl | right
      · decide
      · exact (isLabelChar_of_name valid.2).2 ch right
  · cases valid

theorem isLabelChar_of_value {value : String} (valid : isValidLabelValue value = true) :
    ∀ ch ∈ value.toList, isLabelChar ch = true := by
  simp only [isValidLabelValue, Bool.and_eq_true, Bool.or_eq_true, List.isEmpty_iff] at valid
  rcases valid.2 with empty | named
  · simp [empty]
  · exact (isLabelChar_of_name named).2

theorem isLabelChar_lt (label : isLabelChar ch = true) : ch.toNat < 128 := by
  have below : ∀ top : Char, ch ≤ top → ch.toNat ≤ top.toNat := fun _ le => le
  simp only [isLabelChar, isLetterOrDigit, Bool.or_eq_true, Bool.and_eq_true, decide_eq_true_eq,
    beq_iff_eq] at label
  rcases label with (((((⟨-, lower⟩ | ⟨-, upper⟩) | ⟨-, digit⟩) | rfl) | rfl) | rfl) | rfl
  · exact lt_of_le_of_lt (below 'z' lower) (by decide)
  · exact lt_of_le_of_lt (below 'Z' upper) (by decide)
  · exact lt_of_le_of_lt (below '9' digit) (by decide)
  all_goals decide

theorem joinComma_cons_cons (first second : List Char) (parts : List (List Char)) :
    joinComma (first :: second :: parts) = first ++ ',' :: joinComma (second :: parts) := by
  simp [joinComma, List.intercalate]

section Below

variable {bound : Nat} (above : 128 ≤ bound)

include above

/-- Joining adds commas only. -/
theorem joinComma_below {parts : List (List Char)}
    (below : ∀ part ∈ parts, ∀ ch ∈ part, ch.toNat < bound) :
    ∀ ch ∈ joinComma parts, ch.toNat < bound := by
  have comma : ','.toNat < bound := lt_of_lt_of_le (by decide) above
  induction parts with
  | nil => simp [joinComma, List.intercalate]
  | cons part parts ih =>
    have ⟨first, later⟩ := List.forall_mem_cons.mp below
    cases parts with
    | nil => simpa [joinComma, List.intercalate] using first
    | cons second parts =>
      rw [joinComma_cons_cons]
      exact List.forall_mem_append.mpr ⟨first, List.forall_mem_cons.mpr ⟨comma, ih later⟩⟩

/-- The text of a requirement has the characters of its key and values, and some of ASCII. -/
theorem Requirement.text_below {r : Requirement} (key : ∀ ch ∈ r.key.toList, ch.toNat < bound)
    (values : ∀ value ∈ r.strValues, ∀ ch ∈ value.toList, ch.toNat < bound) :
    ∀ ch ∈ r.text, ch.toNat < bound := by
  have ascii : ∀ {ch : Char}, ch.toNat < 128 → ch.toNat < bound := (lt_of_lt_of_le · above)
  have joined : ∀ ch ∈ valueText r.strValues, ch.toNat < bound := by
    unfold valueText
    split
    · next value only => exact values value (only ▸ List.mem_singleton_self value)
    · apply joinComma_below above
      simp only [List.forall_mem_map]
      intro value member
      exact values value ((List.perm_insertionSort _ _).mem_iff.mp member)
  have op : ∀ ch ∈ r.operator.text, ch.toNat < bound := by
    have small : ∀ ch ∈ r.operator.text, ch.toNat < 128 := by
      cases r.operator <;> simp [Operator.text]
    exact fun ch member => ascii (small ch member)
  unfold text
  split
  · exact key
  · exact List.forall_mem_cons.mpr ⟨ascii (by decide), key⟩
  case h_3 | h_4 =>
    simp only [List.forall_mem_append, List.forall_mem_cons, List.not_mem_nil, false_imp_iff,
      implies_true, and_true]
    exact ⟨⟨⟨key, op⟩, ascii (by decide), joined⟩, ascii (by decide)⟩
  · simp only [List.forall_mem_append]
    exact ⟨⟨key, op⟩, joined⟩

end Below

theorem Requirement.text_ascii (valid : r.isValid = true) : ∀ ch ∈ r.text, ch.toNat < 128 := by
  simp only [isValid, Bool.and_eq_true, List.all_eq_true] at valid
  apply r.text_below le_rfl
  · exact fun ch member => isLabelChar_lt ((isLabelChar_of_key valid.1.1).2 ch member)
  · exact fun value member ch inside =>
      isLabelChar_lt (isLabelChar_of_value (valid.2 value member) ch inside)

/-- The text is scanned to these items, with any fuel above its length. -/
structure Lexes (text : List Char) (items : List ScannedItem) : Prop where
  nonzero : ∀ ch ∈ text, ch.toNat ≠ 0
  scan_eq : ∀ fuel, text.length < fuel → scan fuel text = items

/-- The text is over or goes on with a character that ends a word. -/
def EndsWord (text : List Char) : Prop :=
  ∀ ch ∈ text.head?, (isSpecialSymbol ch || isWhitespace ch) = true

/-- The item of a word. -/
def wordItem (word : List Char) : ScannedItem := ⟨(string2token word).getD .identifier, word⟩

section Lexer

variable {text word : List Char} {items : List ScannedItem}

theorem scanWord_append (plain : ∀ ch ∈ word, Plain ch) (nonzero : ∀ ch ∈ text, ch.toNat ≠ 0)
    (ends : EndsWord text) : scanWord (word ++ text) = (word, text) := by
  induction word with
  | nil =>
    cases text with
    | nil => rfl
    | cons ch text =>
      have breaks := ends ch rfl
      simp [scanWord, nonzero ch List.mem_cons_self, breaks]
  | cons ch word ih =>
    have first := plain ch List.mem_cons_self
    have later := ih fun other member => plain other (.tail _ member)
    simp [scanWord, first.nonzero, first.noSymbol, first.noSpace, later]

namespace Lexes

theorem nil : Lexes [] [⟨.endOfString, []⟩] := by
  refine ⟨nofun, fun fuel enough => ?_⟩
  cases fuel with
  | zero => simp at enough
  | succ fuel => rfl

theorem space (lexes : Lexes text items) : Lexes (' ' :: text) items := by
  refine ⟨List.forall_mem_cons.mpr ⟨by decide, lexes.nonzero⟩, fun fuel enough => ?_⟩
  cases fuel with
  | zero => simp at enough
  | succ fuel =>
    rw [List.length_cons] at enough
    have rest := lexes.scan_eq fuel (by omega)
    simpa [scan, isWhitespace] using rest

theorem ofWord (lexes : Lexes text items) (nonempty : word ≠ []) (plain : ∀ ch ∈ word, Plain ch)
    (ends : EndsWord text) : Lexes (word ++ text) (wordItem word :: items) := by
  refine ⟨List.forall_mem_append.mpr ⟨fun ch member => (plain ch member).nonzero, lexes.nonzero⟩,
    fun fuel enough => ?_⟩
  cases fuel with
  | zero => simp at enough
  | succ fuel =>
    cases word with
    | nil => exact absurd rfl nonempty
    | cons ch word =>
      have first := plain ch List.mem_cons_self
      have scanned := scanWord_append plain lexes.nonzero ends
      simp only [List.cons_append, List.length_cons, List.length_append] at enough scanned ⊢
      have rest := lexes.scan_eq fuel (by omega)
      simp [scan, first.nonzero, first.noSymbol, first.noSpace, scanIDOrKeyword, scanned, rest,
        wordItem]

end Lexes

theorem string2token_ne_error {symbol : List Char} : string2token symbol ≠ some .error := by
  unfold string2token
  split <;> simp

/-- Only an equals sign makes a longer symbol. -/
theorem string2token_pair {next : Char} (special : isSpecialSymbol ch = true) (other : next ≠ '=') :
    string2token [ch, next] = none := by
  rw [isSpecialSymbol_iff] at special
  rcases special with rfl | rfl | rfl | rfl | rfl | rfl | rfl
  · simp [string2token, other]
  · simp [string2token, other]
  all_goals rfl

/-- A special symbol is no blank and not the zero byte. -/
theorem symbol_facts (special : isSpecialSymbol ch = true) :
    isWhitespace ch = false ∧ ch.toNat ≠ 0 := by
  rw [isSpecialSymbol_iff] at special
  rcases special with rfl | rfl | rfl | rfl | rfl | rfl | rfl <;> decide

/-- Scanning stops where no longer symbol can come about. -/
theorem scanSymbols_stop {buffer : List Char} {last : ScannedItem} (found : last.tok ≠ .error)
    (nonzero : ∀ ch ∈ text, ch.toNat ≠ 0)
    (stops : ∀ ch ∈ text.head?, string2token (buffer ++ [ch]) = none) :
    scanSymbols buffer last text = (last, text) := by
  cases text with
  | nil => rfl
  | cons ch text =>
    have unknown := stops ch rfl
    simp [scanSymbols, nonzero ch List.mem_cons_self, unknown, found]

namespace Lexes

theorem symbol {tok : Token} (lexes : Lexes text items) (special : isSpecialSymbol ch = true)
    (known : string2token [ch] = some tok)
    (stops : ∀ next ∈ text.head?, string2token [ch, next] = none) :
    Lexes (ch :: text) (⟨tok, [ch]⟩ :: items) := by
  have ⟨noSpace, nonzero⟩ := symbol_facts special
  refine ⟨List.forall_mem_cons.mpr ⟨nonzero, lexes.nonzero⟩, fun fuel enough => ?_⟩
  cases fuel with
  | zero => simp at enough
  | succ fuel =>
    rw [List.length_cons] at enough
    have rest := lexes.scan_eq fuel (by omega)
    have found : tok ≠ .error := fun error => string2token_ne_error (error ▸ known)
    have stopped := @scanSymbols_stop text [ch] ⟨tok, [ch]⟩ found lexes.nonzero stops
    simp [scan, noSpace, nonzero, special, scanSpecialSymbol, scanSymbols, known, stopped, rest]

/-- The two operators of two characters. -/
theorem doubleSymbol {tok : Token} (lexes : Lexes text items)
    (operator : ch = '=' ∧ tok = .doubleEquals ∨ ch = '!' ∧ tok = .notEquals) :
    Lexes (ch :: '=' :: text) (⟨tok, [ch, '=']⟩ :: items) := by
  have nonzero : ch.toNat ≠ 0 := by
    rcases operator with ⟨rfl, -⟩ | ⟨rfl, -⟩ <;> decide
  refine ⟨List.forall_mem_cons.mpr ⟨nonzero, List.forall_mem_cons.mpr ⟨by decide,
    lexes.nonzero⟩⟩, fun fuel enough => ?_⟩
  cases fuel with
  | zero => simp at enough
  | succ fuel =>
    rw [List.length_cons, List.length_cons] at enough
    have rest := lexes.scan_eq fuel (by omega)
    have stopped (ch : Char) (tok : Token) (found : tok ≠ .error) :=
      @scanSymbols_stop text [ch, '='] ⟨tok, [ch, '=']⟩ found lexes.nonzero
    have equals : string2token ['='] = some .equals := rfl
    have bang : string2token ['!'] = some .doesNotExist := rfl
    rcases operator with ⟨rfl, rfl⟩ | ⟨rfl, rfl⟩
    · have both : string2token ['=', '='] = some .doubleEquals := rfl
      simp [scan, isWhitespace, isSpecialSymbol, scanSpecialSymbol, scanSymbols, equals, both,
        stopped '=' .doubleEquals nofun fun _ _ => rfl, rest]
    · have both : string2token ['!', '='] = some .notEquals := rfl
      simp [scan, isWhitespace, isSpecialSymbol, scanSpecialSymbol, scanSymbols, bang, both,
        stopped '!' .notEquals nofun fun _ _ => rfl, rest]

end Lexes

end Lexer

/-- An empty value has no item. -/
def valueItem (value : String) : List ScannedItem :=
  if value.toList = [] then [] else [wordItem value.toList]

/-- The items of values with commas between them. -/
def valueItems : List String → List ScannedItem
  | [] => []
  | [value] => valueItem value
  | value :: second :: values =>
    valueItem value ++ ⟨.comma, [',']⟩ :: valueItems (second :: values)

/-- The item of an operator between a key and its values. -/
def Operator.item : Operator → ScannedItem
  | .equals => ⟨.equals, ['=']⟩
  | .doubleEquals => ⟨.doubleEquals, ['=', '=']⟩
  | .notEquals => ⟨.notEquals, ['!', '=']⟩
  | .greaterThan => ⟨.greaterThan, ['>']⟩
  | .lessThan => ⟨.lessThan, ['<']⟩
  | .in_ => ⟨.in_, ['i', 'n']⟩
  | .notIn => ⟨.notIn, ['n', 'o', 't', 'i', 'n']⟩
  | .exists_ | .doesNotExist => ⟨.error, []⟩

/-- The items of a requirement's text. -/
def Requirement.items (r : Requirement) : List ScannedItem :=
  match r.operator with
  | .exists_ => [wordItem r.key.toList]
  | .doesNotExist => [⟨.doesNotExist, ['!']⟩, wordItem r.key.toList]
  | .in_ | .notIn => wordItem r.key.toList :: r.operator.item :: ⟨.openPar, ['(']⟩ ::
      (valueItems (sortStrings r.strValues) ++ [⟨.closedPar, [')']⟩])
  | _ => wordItem r.key.toList :: r.operator.item :: valueItems (sortStrings r.strValues)

theorem perm_sortStrings (values : List String) : (sortStrings values).Perm values :=
  List.perm_insertionSort _ values

theorem mem_sortStrings {value : String} {values : List String} :
    value ∈ sortStrings values ↔ value ∈ values :=
  (perm_sortStrings values).mem_iff

namespace Lexes

variable {text : List Char} {items : List ScannedItem}

theorem comma (lexes : Lexes text items) : Lexes (',' :: text) (⟨.comma, [',']⟩ :: items) :=
  lexes.symbol rfl rfl fun _ _ => rfl

theorem value {value : String} (lexes : Lexes text items) (plain : ∀ ch ∈ value.toList, Plain ch)
    (ends : EndsWord text) : Lexes (value.toList ++ text) (valueItem value ++ items) := by
  by_cases empty : value.toList = []
  · simpa [valueItem, empty] using lexes
  · simpa [valueItem, empty] using lexes.ofWord empty plain ends

theorem values {values : List String} (lexes : Lexes text items)
    (plain : ∀ value ∈ values, ∀ ch ∈ value.toList, Plain ch) (ends : EndsWord text) :
    Lexes (joinComma (values.map String.toList) ++ text) (valueItems values ++ items) := by
  induction values with
  | nil => simpa [joinComma, List.intercalate, valueItems] using lexes
  | cons first values ih =>
    have ⟨plainFirst, plainRest⟩ := List.forall_mem_cons.mp plain
    cases values with
    | nil => simpa [joinComma, List.intercalate, valueItems] using lexes.value plainFirst ends
    | cons second values =>
      have rest := (ih plainRest).comma.value plainFirst (by simp [EndsWord, isSpecialSymbol])
      rw [List.map_cons, List.map_cons, joinComma_cons_cons, valueItems]
      simpa using rest

/-- A text that begins with a value, or is over, does not begin with an equals sign. -/
theorem equals_stops {value : String} (plain : ∀ ch ∈ value.toList, Plain ch)
    (ends : text = [] ∨ text.head? = some ',') :
    ∀ next ∈ (value.toList ++ text).head?, next ≠ '=' := by
  intro next member
  cases shape : value.toList with
  | nil =>
    rcases ends with rfl | comma
    · simp [shape] at member
    · rw [shape, List.nil_append, comma] at member
      cases member
      decide
  | cons ch rest =>
    obtain rfl : ch = next := by simpa [shape] using member
    have first := plain ch (shape ▸ List.mem_cons_self)
    rintro rfl
    exact absurd first.noSymbol (by decide)

/-- A comma ends a word, and so does the end of the text. -/
theorem endsWord (ends : text = [] ∨ text.head? = some ',') : EndsWord text := by
  rcases ends with rfl | comma
  · simp [EndsWord]
  · simp [EndsWord, comma, isSpecialSymbol]

section

variable (lexes : Lexes text items)

include lexes

theorem closedPar : Lexes (')' :: text) (⟨.closedPar, [')']⟩ :: items) :=
  lexes.symbol rfl rfl fun _ _ => rfl

theorem openPar : Lexes ('(' :: text) (⟨.openPar, ['(']⟩ :: items) :=
  lexes.symbol rfl rfl fun _ _ => rfl

/-- The values in parentheses. -/
theorem valueSet {values : List String} (plain : ∀ value ∈ values, ∀ ch ∈ value.toList, Plain ch) :
    Lexes ('(' :: (joinComma (values.map String.toList) ++ ')' :: text))
      (⟨.openPar, ['(']⟩ :: (valueItems values ++ ⟨.closedPar, [')']⟩ :: items)) :=
  (lexes.closedPar.values plain (by simp [EndsWord, isSpecialSymbol])).openPar

/-- An operator between a key and one value. -/
theorem operator {op : Operator} {value : String} (plain : ∀ ch ∈ value.toList, Plain ch)
    (ends : text = [] ∨ text.head? = some ',')
    (exact : op = .equals ∨ op = .doubleEquals ∨ op = .notEquals ∨ op = .greaterThan ∨
      op = .lessThan) :
    Lexes (op.text ++ (value.toList ++ text)) (op.item :: (valueItem value ++ items)) := by
  have rest := lexes.value plain (endsWord ends)
  rcases exact with rfl | rfl | rfl | rfl | rfl
  · refine rest.symbol rfl rfl fun next member => ?_
    exact string2token_pair rfl (equals_stops plain ends next member)
  · exact rest.doubleSymbol (.inl ⟨rfl, rfl⟩)
  · exact rest.doubleSymbol (.inr ⟨rfl, rfl⟩)
  · exact rest.symbol rfl rfl fun _ _ => rfl
  · exact rest.symbol rfl rfl fun _ _ => rfl

end

end Lexes

namespace Requirement

variable {r : Requirement}

theorem plain_key (valid : r.isValid = true) :
    r.key.toList ≠ [] ∧ ∀ ch ∈ r.key.toList, Plain ch := by
  simp only [isValid, Bool.and_eq_true] at valid
  have ⟨nonempty, chars⟩ := isLabelChar_of_key valid.1.1
  exact ⟨nonempty, fun ch member => plain_of_isLabelChar (chars ch member)⟩

theorem plain_values (valid : r.isValid = true) :
    ∀ value ∈ r.strValues, ∀ ch ∈ value.toList, Plain ch := by
  simp only [isValid, Bool.and_eq_true, List.all_eq_true] at valid
  intro value member ch inside
  exact plain_of_isLabelChar (isLabelChar_of_value (valid.2 value member) ch inside)

/-- One value is written as many are. -/
theorem valueText_eq (values : List String) :
    valueText values = joinComma ((sortStrings values).map String.toList) := by
  match values with
  | [] => rfl
  | [value] => simp [valueText, sortStrings, joinComma, List.intercalate]
  | first :: second :: values => rfl

end Requirement

/-- A requirement that compares with one value. -/
def Operator.Exact (op : Operator) : Prop :=
  op = .equals ∨ op = .doubleEquals ∨ op = .notEquals ∨ op = .greaterThan ∨ op = .lessThan

theorem Requirement.exact_values (valid : r.isValid = true) (exact : r.operator.Exact) :
    ∃ value, r.strValues = [value] := by
  simp only [isValid, Bool.and_eq_true] at valid
  have admitted := valid.1.2
  have count : r.strValues.length = 1 := by
    rcases exact with same | same | same | same | same <;>
      simp only [same, Operator.admits, Bool.and_eq_true, beq_iff_eq] at admitted
    case inr.inr.inr.inl | inr.inr.inr.inr => exact admitted.1
    all_goals exact admitted
  exact List.length_eq_one_iff.mp count

namespace Lexes

variable {r : Requirement} {text : List Char} {items : List ScannedItem}

theorem exactRequirement (lexes : Lexes text items) (ends : text = [] ∨ text.head? = some ',')
    (valid : r.isValid = true) (exact : r.operator.Exact) :
    Lexes (r.key.toList ++ r.operator.text ++
        joinComma ((sortStrings r.strValues).map String.toList) ++ text)
      (wordItem r.key.toList :: r.operator.item :: valueItems (sortStrings r.strValues) ++
        items) := by
  have ⟨nonempty, plainKey⟩ := Requirement.plain_key valid
  have plainValues := Requirement.plain_values valid
  obtain ⟨value, only⟩ := Requirement.exact_values valid exact
  rw [only] at plainValues ⊢
  have rest := lexes.operator (plainValues value (by simp)) ends exact
  have starts : EndsWord (r.operator.text ++ (value.toList ++ text)) := by
    rcases exact with same | same | same | same | same <;> rw [same] <;>
      simp [EndsWord, Operator.text, isSpecialSymbol]
  simpa [sortStrings, joinComma, List.intercalate, valueItems] using
    rest.ofWord nonempty plainKey starts

theorem setRequirement (lexes : Lexes text items) (valid : r.isValid = true)
    (set : r.operator = .in_ ∨ r.operator = .notIn) :
    Lexes (r.key.toList ++ r.operator.text ++
        '(' :: joinComma ((sortStrings r.strValues).map String.toList) ++ [')'] ++ text)
      (wordItem r.key.toList :: r.operator.item :: ⟨.openPar, ['(']⟩ ::
        (valueItems (sortStrings r.strValues) ++ [⟨.closedPar, [')']⟩]) ++ items) := by
  have ⟨nonempty, plainKey⟩ := Requirement.plain_key valid
  have plainValues : ∀ value ∈ sortStrings r.strValues, ∀ ch ∈ value.toList, Plain ch :=
    fun value member => Requirement.plain_values valid value (mem_sortStrings.mp member)
  have rest := (lexes.valueSet plainValues).space
  have blank : ∀ text, EndsWord (' ' :: text) := by simp [EndsWord, isWhitespace]
  have whole (word : List Char) (some : word ≠ []) (labels : word.all isLabelChar = true) :=
    (rest.ofWord some (fun ch member => plain_of_isLabelChar (List.all_eq_true.mp labels ch member))
      (blank _)).space.ofWord nonempty plainKey (blank _)
  rcases set with same | same <;> rw [same]
  · have known : string2token ['i', 'n'] = some .in_ := rfl
    simpa [Operator.text, Operator.item, wordItem, known] using whole ['i', 'n'] nofun (by decide)
  · have known : string2token ['n', 'o', 't', 'i', 'n'] = some .notIn := rfl
    simpa [Operator.text, Operator.item, wordItem, known] using
      whole ['n', 'o', 't', 'i', 'n'] nofun (by decide)

/-- The text of a valid requirement, before a comma or the end. -/
theorem requirement (lexes : Lexes text items) (ends : text = [] ∨ text.head? = some ',')
    (valid : r.isValid = true) : Lexes (r.text ++ text) (r.items ++ items) := by
  have ⟨nonempty, plainKey⟩ := Requirement.plain_key valid
  have word := endsWord ends
  simp only [Requirement.text, Requirement.valueText_eq, Requirement.items]
  have exactly := @exactRequirement r text items lexes ends valid
  have sets := @setRequirement r text items lexes valid
  cases same : r.operator with
  | exists_ => exact lexes.ofWord nonempty plainKey word
  | doesNotExist =>
    refine (lexes.ofWord nonempty plainKey word).symbol rfl rfl fun next member => ?_
    exact string2token_pair rfl (equals_stops plainKey ends next member)
  | in_ => simpa [same] using sets (.inl same)
  | notIn => simpa [same] using sets (.inr same)
  | _ => simpa [same] using exactly (by simp [same, Operator.Exact])

end Lexes

section Parser

variable {word : List Char} {rest : List ScannedItem}

theorem inValues_wordItem (plain : ∀ ch ∈ word, Plain ch) :
    (wordItem word).tok.inValues = .identifier := by
  unfold wordItem string2token
  split <;> try rfl
  all_goals
    have symbol := (plain _ List.mem_cons_self).noSymbol
    revert symbol
    decide

/-- The values that are no empty text. -/
def Words (values : List String) : Prop :=
  ∀ value ∈ values, value.toList ≠ [] ∧ ∀ ch ∈ value.toList, Plain ch

theorem valueItems_cons {value : String} (nonempty : value.toList ≠ []) {values : List String} :
    ∃ more, valueItems (value :: values) = wordItem value.toList :: more := by
  cases values with
  | nil => exact ⟨[], by simp [valueItems, valueItem, nonempty]⟩
  | cons second values =>
    exact ⟨⟨.comma, [',']⟩ :: valueItems (second :: values),
      by simp [valueItems, valueItem, nonempty]⟩

/-- After a comma the list goes on with the next word. -/
theorem parseIdentifiersList_comma {value : String} {values : List String} (acc : List String)
    (words : Words (value :: values)) (rest : List ScannedItem) :
    parseIdentifiersList acc (⟨.comma, [',']⟩ :: (valueItems (value :: values) ++ rest)) =
      parseIdentifiersList (if acc = [] then [""] else acc)
        (valueItems (value :: values) ++ rest) := by
  have ⟨first, plain⟩ := words value List.mem_cons_self
  have identifier := inValues_wordItem plain
  obtain ⟨more, items⟩ := valueItems_cons first
  rw [items, List.cons_append]
  generalize wordItem value.toList = item at identifier
  obtain ⟨tok, literal⟩ := item
  rw [parseIdentifiersList]
  cases tok <;> simp_all [Token.inValues]

theorem parseIdentifiersList_words {value : String} {values : List String} (acc : List String)
    (literal : List Char) (words : Words (value :: values)) :
    parseIdentifiersList acc (valueItems (value :: values) ++ ⟨.closedPar, literal⟩ :: rest) =
      some ((value :: values).foldl (fun set value => set.insert value) acc,
        ⟨.closedPar, literal⟩ :: rest) := by
  induction values generalizing value acc with
  | nil =>
    have ⟨first, plain⟩ := words value List.mem_cons_self
    have identifier := inValues_wordItem plain
    simp only [valueItems, valueItem, first, if_false, List.cons_append, List.nil_append]
    rw [parseIdentifiersList, identifier]
    simp [lookahead, Token.inValues, wordItem, String.ofList_toList]
  | cons second values ih =>
    have ⟨⟨first, plain⟩, later⟩ := List.forall_mem_cons.mp words
    have identifier := inValues_wordItem plain
    simp only [valueItems, valueItem, first, if_false, List.cons_append, List.nil_append]
    rw [parseIdentifiersList, identifier]
    have inserted : acc.insert value ≠ [] := List.ne_nil_of_mem List.mem_insert_self
    simp only [lookahead, Token.inValues, wordItem, String.ofList_toList]
    rw [parseIdentifiersList_comma _ later, if_neg inserted, ih _ later]
    rfl

theorem mem_foldl_insert {value : String} {values acc : List String} :
    value ∈ values.foldl (fun set value => set.insert value) acc ↔
      value ∈ values ∨ value ∈ acc := by
  induction values generalizing acc with
  | nil => simp
  | cons first values ih =>
    rw [List.foldl_cons, ih, List.mem_insert_iff, List.mem_cons]
    tauto

theorem eq_empty_of_le_empty {value : String} (below : value ≤ "") : value = "" := by
  by_contra nonempty
  have above : "" < value := by
    rw [String.lt_iff_toList_lt]
    cases shape : value.toList with
    | nil => exact absurd (String.toList_eq_nil_iff.mp shape) nonempty
    | cons ch text => exact List.nil_lt_cons ch text
  exact absurd below (not_le.mpr above)

/-- Sorted values with at most one empty text have it in front. -/
theorem words_of_sorted {value : String} {values : List String}
    (sorted : (value :: values).Pairwise (· ≤ ·)) (few : (value :: values).count "" ≤ 1)
    (plain : ∀ value' ∈ value :: values, ∀ ch ∈ value'.toList, Plain ch) : Words values := by
  intro other member
  refine ⟨fun empty => ?_, plain other (.tail _ member)⟩
  obtain rfl : other = "" := String.toList_eq_nil_iff.mp empty
  have first : value = "" := eq_empty_of_le_empty ((List.pairwise_cons.mp sorted).1 "" member)
  have again : 0 < values.count "" := List.count_pos_iff.mpr member
  rw [first, List.count_cons_self] at few
  omega

/-- The values between parentheses are read as a set. -/
theorem parseValues_items {values : List String} (nonempty : values ≠ [])
    (sorted : values.Pairwise (· ≤ ·)) (few : values.count "" ≤ 1)
    (plain : ∀ value ∈ values, ∀ ch ∈ value.toList, Plain ch) :
    ∃ set, parseValues (⟨.openPar, ['(']⟩ :: (valueItems values ++ ⟨.closedPar, [')']⟩ :: rest)) =
      some (set, rest) ∧ ∀ value, value ∈ set ↔ value ∈ values := by
  cases values with
  | nil => exact absurd rfl nonempty
  | cons value values =>
    have later := words_of_sorted sorted few plain
    by_cases empty : value.toList = []
    · obtain rfl : value = "" := String.toList_eq_nil_iff.mp empty
      cases values with
      | nil => exact ⟨[""], rfl, fun value => .rfl⟩
      | cons second values =>
        have parsed := @parseIdentifiersList_words rest second values [""] [')'] later
        have comma := parseIdentifiersList_comma [] later (⟨.closedPar, [')']⟩ :: rest)
        rw [if_pos rfl, parsed] at comma
        refine ⟨(second :: values).foldl (fun set value => set.insert value) [""], ?_,
          fun value => ?_⟩
        · have items : valueItems ("" :: second :: values) =
              ⟨.comma, [',']⟩ :: valueItems (second :: values) := by simp [valueItems, valueItem]
          rw [items, List.cons_append, parseValues]
          simp only [lookahead, Token.inValues, comma]
          rfl
        · rw [mem_foldl_insert]
          simp [or_comm]
    · have words : Words (value :: values) :=
        List.forall_mem_cons.mpr ⟨⟨empty, plain value List.mem_cons_self⟩, later⟩
      have parsed := @parseIdentifiersList_words rest value values [] [')'] words
      have identifier := inValues_wordItem (plain value List.mem_cons_self)
      obtain ⟨more, items⟩ := valueItems_cons empty
      refine ⟨(value :: values).foldl (fun set value => set.insert value) [], ?_, fun value => ?_⟩
      · rw [parseValues]
        have ahead : lookahead (valueItems (value :: values) ++ ⟨.closedPar, [')']⟩ :: rest) =
            .identifier := by rw [items]; exact identifier
        simp only [ahead, parsed]
        rfl
      · rw [mem_foldl_insert]
        simp

/-- The items begin with the end of the text or a comma. -/
def EndsRequirement (rest : List ScannedItem) : Prop :=
  lookahead rest = .endOfString ∨ lookahead rest = .comma

theorem parseExactValue_items {value : String} (plain : ∀ ch ∈ value.toList, Plain ch)
    (ends : EndsRequirement rest) :
    parseExactValue (valueItem value ++ rest) = some ([value], rest) := by
  by_cases empty : value.toList = []
  · obtain rfl : value = "" := String.toList_eq_nil_iff.mp empty
    cases rest with
    | nil => simp [EndsRequirement, lookahead] at ends
    | cons item rest =>
      simp only [valueItem, empty, if_true, List.nil_append, parseExactValue]
      rcases ends with last | comma
      · rw [show item.tok.inValues = .endOfString from last]
      · rw [show item.tok.inValues = .comma from comma]
  · have identifier := inValues_wordItem plain
    simp only [valueItem, empty, if_false, List.cons_append, List.nil_append, parseExactValue]
    rw [identifier]
    simp [wordItem, String.ofList_toList]

theorem inferOperator_word {negated : Bool} (valid : isQualifiedName key = true) :
    inferOperator negated (wordItem key.toList :: rest) =
      some (key, if negated then some .doesNotExist
        else if lookahead rest = .endOfString ∨ lookahead rest = .comma then some .exists_
        else none, rest) := by
  have plain := fun ch member => plain_of_isLabelChar ((isLabelChar_of_key valid).2 ch member)
  have identifier := inValues_wordItem plain
  have literal : String.ofList (wordItem key.toList).literal = key := String.ofList_toList
  simp [inferOperator, identifier, literal, valid]

theorem parseKey_word (valid : isQualifiedName key = true) :
    parseKeyAndInferOperator (wordItem key.toList :: rest) =
      some (key, if lookahead rest = .endOfString ∨ lookahead rest = .comma then some .exists_
        else none, rest) := by
  have plain := fun ch member => plain_of_isLabelChar ((isLabelChar_of_key valid).2 ch member)
  have other : (wordItem key.toList).tok ≠ .doesNotExist := by
    intro same
    have identifier := inValues_wordItem plain
    rw [same] at identifier
    cases identifier
  rw [parseKeyAndInferOperator, if_neg other, inferOperator_word valid]
  simp

section Requirement

variable {r : Requirement}

theorem Requirement.isValid_iff : r.isValid = true ↔ isQualifiedName r.key = true ∧
    r.operator.admits r.strValues = true ∧
      ∀ value ∈ r.strValues, isValidLabelValue value = true := by
  simp [Requirement.isValid, and_assoc]

theorem Operator.admits_set {op : Operator} (set : op = .in_ ∨ op = .notIn) (values : List String) :
    op.admits values = true ↔ values ≠ [] := by
  rcases set with rfl | rfl <;> cases values <;> simp [admits]

section

variable (valid : r.isValid = true)

include valid

theorem parseRequirement_exact (exact : r.operator.Exact) (ends : EndsRequirement rest) :
    parseRequirement (wordItem r.key.toList :: r.operator.item ::
      valueItems (sortStrings r.strValues) ++ rest) = some (r, rest) := by
  have fields := Requirement.isValid_iff.mp valid
  have accepted : r.checked = some r := by simp [Requirement.checked, valid]
  obtain ⟨value, only⟩ := Requirement.exact_values valid exact
  have plain := Requirement.plain_values valid value (by simp [only])
  have parsed := parseExactValue_items plain ends
  rw [parseRequirement, List.cons_append, parseKey_word fields.1]
  obtain ⟨key, op, values⟩ := r
  obtain rfl : values = [value] := only
  rcases exact with same | same | same | same | same <;> obtain rfl : op = _ := same <;>
    simp [lookahead, Operator.item, Token.inValues, parseOperatorAndValues, parseOperands,
      Token.binaryOperator, sortStrings, valueItems, parsed, accepted]

/-- A requirement with a set of values comes back with its values as a sorted set. -/
theorem parseRequirement_set (set : r.operator = .in_ ∨ r.operator = .notIn)
    (few : r.strValues.count "" ≤ 1) :
    ∃ values, parseRequirement (wordItem r.key.toList :: r.operator.item :: ⟨.openPar, ['(']⟩ ::
        (valueItems (sortStrings r.strValues) ++ ⟨.closedPar, [')']⟩ :: rest)) =
      some (⟨r.key, r.operator, values⟩, rest) ∧ ∀ value, value ∈ values ↔ value ∈ r.strValues := by
  have ⟨named, admitted, valued⟩ := Requirement.isValid_iff.mp valid
  have nonempty := (Operator.admits_set set _).mp admitted
  have same := perm_sortStrings r.strValues
  obtain ⟨values, parsed, members⟩ := @parseValues_items rest (sortStrings r.strValues)
    (fun empty => nonempty (same.symm.trans (.of_eq empty)).eq_nil)
    (List.pairwise_insertionSort _ _) (by rw [same.count_eq]; exact few)
    fun value member => Requirement.plain_values valid value (mem_sortStrings.mp member)
  have back : ∀ value, value ∈ sortStrings values ↔ value ∈ r.strValues := fun value => by
    rw [mem_sortStrings, members, mem_sortStrings]
  have accepted : (Requirement.mk r.key r.operator (sortStrings values)).isValid = true := by
    refine Requirement.isValid_iff.mpr ⟨named, ?_, fun value member => ?_⟩
    · obtain ⟨value, member⟩ := List.exists_mem_of_ne_nil _ nonempty
      exact (Operator.admits_set set _).mpr (List.ne_nil_of_mem ((back value).mpr member))
    · exact valued value ((back value).mp member)
  refine ⟨sortStrings values, ?_, back⟩
  rw [parseRequirement, parseKey_word named]
  rcases set with same | same <;> rw [same] at accepted ⊢ <;>
    simp [lookahead, Operator.item, Token.inValues, parseOperatorAndValues, parseOperands,
      Token.binaryOperator, parsed, Requirement.checked, accepted]

/-- The items of a valid requirement are read to one that matches the same label maps. -/
theorem parseRequirement_items (few : r.strValues.count "" ≤ 1) (ends : EndsRequirement rest) :
    ∃ r', parseRequirement (r.items ++ rest) = some (r', rest) ∧
      ∀ ls, r'.matchesLabels ls = r.matchesLabels ls := by
  obtain ⟨named, admitted, -⟩ := Requirement.isValid_iff.mp valid
  have accepted : r.checked = some r := by simp [Requirement.checked, valid]
  have exactly := @parseRequirement_exact rest r valid
  have sets := @parseRequirement_set rest r valid
  obtain ⟨key, op, values⟩ := r
  cases op with
  | exists_ =>
    obtain rfl : values = [] := by simpa [Operator.admits] using admitted
    refine ⟨⟨key, .exists_, []⟩, ?_, fun ls => rfl⟩
    change parseRequirement (wordItem key.toList :: rest) = _
    have last : lookahead rest = .endOfString ∨ lookahead rest = .comma := ends
    rw [parseRequirement, parseKey_word named, if_pos last]
    simp [accepted]
  | doesNotExist =>
    obtain rfl : values = [] := by simpa [Operator.admits] using admitted
    refine ⟨⟨key, .doesNotExist, []⟩, ?_, fun ls => rfl⟩
    change parseRequirement (⟨.doesNotExist, ['!']⟩ :: wordItem key.toList :: rest) = _
    rw [parseRequirement, parseKeyAndInferOperator, if_pos rfl, inferOperator_word named]
    simp [accepted]
  | in_ =>
    obtain ⟨values', parsed, members⟩ := sets (.inl rfl) few
    refine ⟨⟨key, .in_, values'⟩, by simpa [Requirement.items] using parsed, fun ls => ?_⟩
    simp [Requirement.matchesLabels, Requirement.hasValue, List.contains_eq_mem, members]
  | notIn =>
    obtain ⟨values', parsed, members⟩ := sets (.inr rfl) few
    refine ⟨⟨key, .notIn, values'⟩, by simpa [Requirement.items] using parsed, fun ls => ?_⟩
    simp [Requirement.matchesLabels, Requirement.hasValue, List.contains_eq_mem, members]
  | _ => exact ⟨_, exactly (by simp [Operator.Exact]) ends, fun ls => rfl⟩

/-- The items of a requirement begin with its key or an exclamation mark. -/
theorem lookahead_items (rest : List ScannedItem) :
    lookahead (r.items ++ rest) = .identifier ∨ lookahead (r.items ++ rest) = .doesNotExist := by
  have identifier := inValues_wordItem (Requirement.plain_key valid).2
  cases same : r.operator with
  | doesNotExist =>
    right
    simp only [Requirement.items, same]
    rfl
  | _ =>
    left
    simp only [Requirement.items, same]
    exact identifier

end

end Requirement

/-- The items of the text of a selector. -/
def selectorItems : List Requirement → List ScannedItem
  | [] => [⟨.endOfString, []⟩]
  | [r] => r.items ++ [⟨.endOfString, []⟩]
  | r :: second :: reqs => r.items ++ ⟨.comma, [',']⟩ :: selectorItems (second :: reqs)

theorem Lexes.requirements (valid : ∀ r ∈ reqs, r.isValid = true) :
    Lexes (joinComma (reqs.map Requirement.text)) (selectorItems reqs) := by
  induction reqs with
  | nil => exact Lexes.nil
  | cons r reqs ih =>
    have ⟨validFirst, validRest⟩ := List.forall_mem_cons.mp valid
    cases reqs with
    | nil =>
      have single := Lexes.nil.requirement (.inl rfl) validFirst
      simpa [joinComma, List.intercalate, selectorItems] using single
    | cons second reqs =>
      rw [List.map_cons, List.map_cons, joinComma_cons_cons, selectorItems]
      exact (ih validRest).comma.requirement (.inr rfl) validFirst

variable {fuel : Nat} {sorter : Sorter} {items : List ScannedItem} {r : Requirement}

theorem parseItems_selectorItems (valid : ∀ r ∈ reqs, r.isValid = true ∧ r.strValues.count "" ≤ 1)
    (enough : reqs.length < fuel) :
    ∃ reqs', parseItems fuel (selectorItems reqs) = some reqs' ∧
      ∀ ls, (∀ r ∈ reqs', r.matchesLabels ls = true) ↔ ∀ r ∈ reqs, r.matchesLabels ls = true := by
  induction reqs generalizing fuel with
  | nil =>
    obtain ⟨fuel, rfl⟩ : ∃ n, fuel = n + 1 := ⟨fuel - 1, by omega⟩
    exact ⟨[], rfl, fun ls => .rfl⟩
  | cons r reqs ih =>
    have ⟨⟨validFirst, few⟩, validRest⟩ := List.forall_mem_cons.mp valid
    obtain ⟨fuel, rfl⟩ : ∃ n, fuel = n + 1 := ⟨fuel - 1, by omega⟩
    rw [List.length_cons] at enough
    cases reqs with
    | nil =>
      obtain ⟨r', parsed, same⟩ := @parseRequirement_items [⟨.endOfString, []⟩] r validFirst few
        (.inl rfl)
      refine ⟨[r'], ?_, fun ls => by simp [same]⟩
      rw [selectorItems, parseItems]
      rcases lookahead_items validFirst [⟨.endOfString, []⟩] with ahead | ahead <;>
        simp [ahead, parsed]
    | cons second reqs =>
      obtain ⟨reqs', later, matching⟩ := ih validRest (Nat.lt_of_succ_lt_succ enough)
      obtain ⟨r', parsed, same⟩ := @parseRequirement_items
        (⟨.comma, [',']⟩ :: selectorItems (second :: reqs)) r validFirst few (.inr rfl)
      refine ⟨r' :: reqs', ?_, fun ls => by
        rw [List.forall_mem_cons, List.forall_mem_cons, same, matching]⟩
      have next : lookahead (selectorItems (second :: reqs)) = .identifier ∨
          lookahead (selectorItems (second :: reqs)) = .doesNotExist := by
        have validSecond := (validRest second List.mem_cons_self).1
        cases reqs with
        | nil => exact lookahead_items validSecond _
        | cons third reqs => exact lookahead_items validSecond _
      rw [selectorItems, parseItems]
      rcases lookahead_items validFirst (⟨.comma, [',']⟩ :: selectorItems (second :: reqs)) with
        ahead | ahead <;> rcases next with next | next <;> simp [ahead, parsed, next, later]

theorem length_selectorItems : reqs.length < (selectorItems reqs).length := by
  induction reqs with
  | nil => simp [selectorItems]
  | cons r reqs ih =>
    cases reqs with
    | nil =>
      have some : 0 < r.items.length := by
        cases same : r.operator <;> simp [Requirement.items, same]
      simp only [selectorItems, List.length_append, List.length_cons, List.length_nil]
      omega
    | cons second reqs =>
      simp only [selectorItems, List.length_append, List.length_cons] at ih ⊢
      omega

/-- The text of a selector of valid requirements is parsed to a selector that matches the same label
maps. -/
theorem parse_text (valid : ∀ r ∈ reqs, r.isValid = true ∧ r.strValues.count "" ≤ 1) :
    ∃ reqs', parseToRequirements sorter (Selector.requirements reqs).text = some reqs' ∧
      ∀ ls, (∀ r ∈ reqs', r.matchesLabels ls = true) ↔ ∀ r ∈ reqs, r.matchesLabels ls = true := by
  have lexes := Lexes.requirements fun r member => (valid r member).1
  have scanned := lexes.scan_eq _ (Nat.lt_succ_self _)
  obtain ⟨reqs', parsed, same⟩ := parseItems_selectorItems valid length_selectorItems
  refine ⟨sorter.sort reqs', ?_, fun ls => ?_⟩
  · simp only [parseToRequirements, Selector.text, scanned, parsed, Option.map_some]
  · rw [← same]
    simp only [(sorter.perm reqs').mem_iff]

theorem nodup_parseIdentifiersList {acc values : List String} (distinct : acc.Nodup)
    (parsed : parseIdentifiersList acc items = some (values, rest)) : values.Nodup := by
  have started : ∀ acc : List String, acc.Nodup → (if acc = [] then [""] else acc).Nodup := by
    intro acc distinct
    split
    · simp
    · exact distinct
  fun_induction parseIdentifiersList acc items with
  | case1 => cases parsed
  | case2 acc item rest' isWord acc' ahead ih => exact ih distinct.insert parsed
  | case3 acc item rest' isWord acc' ahead =>
    obtain ⟨rfl, -⟩ := Prod.mk.inj (Option.some.inj parsed)
    exact distinct.insert
  | case4 => cases parsed
  | case5 acc item isComma acc' =>
    obtain ⟨rfl, -⟩ := Prod.mk.inj (Option.some.inj parsed)
    exact (started acc distinct).insert
  | case6 acc item isComma acc' literal rest' ih => exact ih (started acc distinct).insert parsed
  | case7 acc item rest' isComma acc' _ _ ih => exact ih (started acc distinct) parsed
  | case8 => cases parsed

theorem nodup_parseValues {values : List String}
    (parsed : parseValues items = some (values, rest)) : values.Nodup := by
  unfold parseValues at parsed
  split at parsed
  · split at parsed
    case h_1 | h_2 =>
      -- a list, which starts with an identifier or with a comma
      simp only [Option.bind_eq_bind, Option.bind_eq_some_iff] at parsed
      obtain ⟨⟨values', rest'⟩, list, closing⟩ := parsed
      dsimp only at closing
      split at closing
      · obtain ⟨rfl, -⟩ := Prod.mk.inj (Option.some.inj closing)
        exact nodup_parseIdentifiersList List.nodup_nil list
      · cases closing
    · obtain ⟨rfl, -⟩ := Prod.mk.inj (Option.some.inj parsed)
      simp
    · cases parsed
  · cases parsed

theorem nodup_parseExactValue {values : List String}
    (parsed : parseExactValue items = some (values, rest)) : values.Nodup := by
  unfold parseExactValue at parsed
  split at parsed
  · cases parsed
  · split at parsed
    case h_4 => cases parsed
    all_goals
      obtain ⟨rfl, -⟩ := Prod.mk.inj (Option.some.inj parsed)
      simp

theorem Requirement.checked_eq {r' : Requirement} (accepted : r.checked = some r') :
    r' = r ∧ r.isValid = true := by
  unfold Requirement.checked at accepted
  split at accepted
  · next valid => exact ⟨(Option.some.inj accepted).symm, valid⟩
  · cases accepted

/-- A valid requirement whose values are a set. -/
def Requirement.Proper (r : Requirement) : Prop := r.isValid = true ∧ r.strValues.Nodup

theorem proper_parseRequirement (parsed : parseRequirement items = some (r, rest)) : r.Proper := by
  simp only [parseRequirement, Option.bind_eq_bind, Option.bind_eq_some_iff] at parsed
  obtain ⟨⟨key, operator, rest'⟩, -, parsed⟩ := parsed
  dsimp only at parsed
  split at parsed
  · obtain ⟨r', accepted, same⟩ := Option.map_eq_some_iff.mp parsed
    obtain ⟨rfl, -⟩ := Prod.mk.inj same
    obtain ⟨rfl, valid⟩ := Requirement.checked_eq accepted
    exact ⟨valid, List.nodup_nil⟩
  · cases rest' with
    | nil => cases parsed
    | cons item rest' =>
      simp only [parseOperatorAndValues, Option.bind_eq_bind, Option.bind_eq_some_iff] at parsed
      obtain ⟨op, -, ⟨values, rest''⟩, read, r', accepted, same⟩ := parsed
      obtain ⟨rfl, -⟩ := Prod.mk.inj (Option.some.inj same)
      obtain ⟨rfl, valid⟩ := Requirement.checked_eq accepted
      refine ⟨valid, (perm_sortStrings values).nodup_iff.mpr ?_⟩
      cases op with
      | in_ => exact nodup_parseValues read
      | notIn => exact nodup_parseValues read
      | _ => exact nodup_parseExactValue read

theorem proper_parseItems (parsed : parseItems fuel items = some reqs) : ∀ r ∈ reqs, r.Proper := by
  induction fuel generalizing items reqs with
  | zero => cases parsed
  | succ fuel ih =>
    unfold parseItems at parsed
    split at parsed
    case h_1 | h_2 =>
      obtain ⟨⟨r, rest⟩, first, parsed⟩ := Option.bind_eq_some_iff.mp parsed
      have proper := proper_parseRequirement first
      dsimp only at parsed
      split at parsed
      · cases parsed
        simpa using proper
      · split at parsed
        case h_3 => cases parsed
        all_goals
          obtain ⟨later, read, rfl⟩ := Option.map_eq_some_iff.mp parsed
          exact List.forall_mem_cons.mpr ⟨proper, ih read⟩
      · cases parsed
    case h_3 =>
      cases parsed
      simp
    case h_4 => cases parsed

/-- Whatever the parser accepts is valid. -/
theorem proper_of_parse {text : List Char} (parsed : parseToRequirements sorter text = some reqs) :
    ∀ r ∈ reqs, r.Proper := by
  obtain ⟨items, read, rfl⟩ := Option.map_eq_some_iff.mp parsed
  intro r member
  exact proper_parseItems read r ((sorter.perm items).mem_iff.mp member)

end Parser

end CtrlMesh.Labels
