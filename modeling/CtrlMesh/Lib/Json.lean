import CtrlMesh.Lib.Decimal
import Mathlib.Data.List.Basic
import Mathlib.Data.List.TakeWhile
import Mathlib.Logic.Function.Basic

/-!
# JSON texts

JSON values without booleans, and the text that `encoding/json` writes for them. The text of a
value is not the beginning of the text of another one, unless a number goes on; so a text
determines its value. The object of a structure has its fields in their order and leaves out those
that are empty; it determines every field.
-/

namespace CtrlMesh.Lib

/-- A character of a number. -/
def isNumberChar (ch : Char) : Bool :=
  ch.isDigit || ch == '-' || ch == '+' || ch == '.' || ch == 'e'

namespace Json

/-- A number as it is written. -/
structure Literal where
  chars : List Char
  nonempty : chars ≠ []
  numeric : ∀ ch ∈ chars, isNumberChar ch = true

/-- The decimal text of an integer. -/
def Literal.ofInt (n : Int) : Literal where
  chars := decimal n
  nonempty := decimal_ne_nil
  numeric := by
    intro ch member
    rcases mem_decimal member with digit | rfl
    · simp [isNumberChar, digit]
    · decide

/-- It determines the integer. -/
theorem Literal.ofInt_injective : Function.Injective Literal.ofInt :=
  fun _ _ same => decimal_injective (congrArg Literal.chars same)

end Json

/-- A JSON value. -/
inductive Json where
  | null
  | number (literal : Json.Literal)
  | string (text : String)
  | array (items : List Json)
  | object (fields : List (String × Json))

variable {x y lead : List Char} {fields : List (String × Option Json)}

namespace Json

/-- Induction over the items of an array and the values of an object. -/
theorem induct {P : Json → Prop} (null : P .null) (number : ∀ literal, P (.number literal))
    (string : ∀ text, P (.string text))
    (array : ∀ items, (∀ item ∈ items, P item) → P (.array items))
    (object : ∀ fields, (∀ field ∈ fields, P field.2) → P (.object fields)) (json : Json) :
    P json :=
  @Json.rec P (fun items => ∀ item ∈ items, P item) (fun fields => ∀ field ∈ fields, P field.2)
    (fun field => P field.2) null number string array object (by simp)
    (fun _ _ head tail => List.forall_mem_cons.mpr ⟨head, tail⟩) (by simp)
    (fun _ _ head tail => List.forall_mem_cons.mpr ⟨head, tail⟩) (fun _ _ value => value) json

/-- A hexadecimal digit. -/
def hexDigit (n : Nat) : Char := Char.ofNat (if n < 10 then 48 + n else 87 + n)

/-- The value of a hexadecimal digit. -/
def hexValue (ch : Char) : Nat := if ch.toNat < 58 then ch.toNat - 48 else ch.toNat - 87

/-- The value of a written digit is the one written. -/
theorem hexValue_hexDigit : ∀ n < 16, hexValue (hexDigit n) = n := by decide

/-- A character that is written by its number. -/
def isEscaped (ch : Char) : Bool :=
  ch.toNat < 0x20 || ch == '<' || ch == '>' || ch == '&' || ch.toNat == 0x2028 ||
    ch.toNat == 0x2029

/-- A character as it stands between quotes. -/
def escapeChar (ch : Char) : List Char :=
  if ch = '"' ∨ ch = '\\' then ['\\', ch]
  else if ch = '\n' then ['\\', 'n']
  else if ch = '\r' then ['\\', 'r']
  else if ch = '\t' then ['\\', 't']
  else if isEscaped ch then
    ['\\', 'u', hexDigit (ch.toNat / 4096), hexDigit (ch.toNat / 256 % 16),
      hexDigit (ch.toNat / 16 % 16), hexDigit (ch.toNat % 16)]
  else [ch]

/-- A string between quotes. -/
def renderString (text : String) : List Char :=
  '"' :: text.toList.flatMap escapeChar ++ ['"']

mutual

/-- The text of a value. -/
def render : Json → List Char
  | .null => ['n', 'u', 'l', 'l']
  | .number literal => literal.chars
  | .string text => renderString text
  | .array items => '[' :: renderItems [] items
  | .object fields => '{' :: renderFields [] fields

/-- The items of an array and its end; the first stands behind `lead`, the others behind commas. -/
def renderItems (lead : List Char) : List Json → List Char
  | [] => [']']
  | item :: items => lead ++ (item.render ++ renderItems [','] items)

/-- The fields of an object and its end. -/
def renderFields (lead : List Char) : List (String × Json) → List Char
  | [] => ['}']
  | (key, value) :: fields =>
    lead ++ (renderString key ++ ':' :: (value.render ++ renderFields [','] fields))

end

/-- `DumpJSON`: the text of a value, or an empty one if there is no value. -/
def dump : Option Json → String
  | none => ""
  | some json => String.ofList json.render

example : dump (some (.array [.number (.ofInt (-12)), .string "a\n<", .null])) =
    "[-12,\"a\\n\\u003c\",null]" := by decide

/-- The character for a mark behind a backslash. -/
def unescapeMark (mark : Char) : Char :=
  if mark = 'n' then '\n' else if mark = 'r' then '\r' else if mark = 't' then '\t' else mark

/-- The character for four hexadecimal digits. -/
def readHex : List Char → Option (Option Char × List Char)
  | a :: b :: c :: d :: rest =>
    some (some (Char.ofNat
      (hexValue a * 4096 + hexValue b * 256 + hexValue c * 16 + hexValue d)), rest)
  | _ => none

/-- The character behind a backslash. -/
def readMark : List Char → Option (Option Char × List Char)
  | [] => none
  | mark :: rest => if mark = 'u' then readHex rest else some (some (unescapeMark mark), rest)

/-- The next character of a string, or its end. -/
def readChar : List Char → Option (Option Char × List Char)
  | [] => none
  | ch :: rest =>
    if ch = '"' then some (none, rest)
    else if ch = '\\' then readMark rest
    else some (some ch, rest)

/-- Four written digits are read back. -/
theorem readHex_hexDigit {n : Nat} (small : n < 65536) (rest : List Char) :
    readHex (hexDigit (n / 4096) :: hexDigit (n / 256 % 16) :: hexDigit (n / 16 % 16) ::
      hexDigit (n % 16) :: rest) = some (some (Char.ofNat n), rest) := by
  have sum : n / 4096 * 4096 + n / 256 % 16 * 256 + n / 16 % 16 * 16 + n % 16 = n := by omega
  rw [readHex, hexValue_hexDigit _ (by omega), hexValue_hexDigit _ (by omega),
    hexValue_hexDigit _ (by omega), hexValue_hexDigit _ (by omega), sum]

/-- Four digits are enough for an escaped character. -/
theorem isEscaped_small {ch : Char} (escaped : isEscaped ch = true) : ch.toNat < 65536 := by
  simp only [isEscaped, Bool.or_eq_true, decide_eq_true_eq, beq_iff_eq] at escaped
  rcases escaped with ((((low | rfl) | rfl) | rfl) | line) | paragraph
  · omega
  · decide
  · decide
  · decide
  · omega
  · omega

/-- An escaped character is read back. -/
theorem readChar_escapeChar (ch : Char) (rest : List Char) :
    readChar (escapeChar ch ++ rest) = some (some ch, rest) := by
  unfold escapeChar
  split_ifs with marked isNewline isReturn isTab escaped
  · rcases marked with rfl | rfl <;> rfl
  · rw [isNewline]
    rfl
  · rw [isReturn]
    rfl
  · rw [isTab]
    rfl
  · have read := readHex_hexDigit (isEscaped_small escaped) rest
    rw [Char.ofNat_toNat] at read
    exact read
  · obtain ⟨noQuote, noBackslash⟩ := not_or.mp marked
    simp [readChar, noQuote, noBackslash]

/-- A string ends at its closing quote. -/
theorem renderString_append_inj {s t : String} (same : renderString s ++ x = renderString t ++ y) :
    s = t ∧ x = y := by
  have chars : ∀ (a b : List Char), a.flatMap escapeChar ++ '"' :: x =
      b.flatMap escapeChar ++ '"' :: y → a = b ∧ x = y := by
    intro a
    induction a with
    | nil =>
      intro b equal
      have read := congrArg readChar equal
      cases b with
      | nil => exact ⟨rfl, (List.cons.inj equal).2⟩
      | cons ch b =>
        rw [List.flatMap_cons, List.append_assoc, readChar_escapeChar] at read
        simp [readChar] at read
    | cons first a ih =>
      intro b equal
      have read := congrArg readChar equal
      rw [List.flatMap_cons, List.append_assoc, readChar_escapeChar] at read
      cases b with
      | nil => simp [readChar] at read
      | cons ch b =>
        rw [List.flatMap_cons, List.append_assoc, readChar_escapeChar] at read
        simp only [Option.some.injEq, Prod.mk.injEq] at read
        obtain ⟨rfl, later⟩ := read
        obtain ⟨rfl, rest⟩ := ih b later
        exact ⟨rfl, rest⟩
  simp only [renderString, List.cons_append, List.append_assoc, List.nil_append, List.cons.injEq,
    true_and] at same
  obtain ⟨text, rest⟩ := chars _ _ same
  exact ⟨String.toList_inj.mp text, rest⟩

/-- What may stand behind a value: a number does not go on. -/
def Ends (rest : List Char) : Prop := ∀ ch, rest.head? = some ch → isNumberChar ch = false

/-- A number does not go on there. -/
theorem Ends.takeWhile {rest : List Char} (ends : Ends rest) :
    rest.takeWhile isNumberChar = [] := by
  cases rest with
  | nil => rfl
  | cons ch rest => exact List.takeWhile_cons_of_neg (by simp [ends ch rfl])

/-- A number ends where its characters end. -/
theorem Literal.append_inj {a b : Literal} (left : Ends x) (right : Ends y)
    (same : a.chars ++ x = b.chars ++ y) : a = b ∧ x = y := by
  have chars : a.chars = b.chars := by
    have taken := congrArg (List.takeWhile isNumberChar) same
    rwa [List.takeWhile_append_of_pos a.numeric, List.takeWhile_append_of_pos b.numeric,
      left.takeWhile, right.takeWhile, List.append_nil, List.append_nil] at taken
  rw [chars] at same
  refine ⟨?_, List.append_cancel_left same⟩
  cases a
  cases b
  cases chars
  rfl

/-- The kinds of values. -/
inductive Kind where
  | null
  | number
  | string
  | array
  | object
  deriving DecidableEq

/-- The kind of a value. -/
def kind : Json → Kind
  | .null => .null
  | .number _ => .number
  | .string _ => .string
  | .array _ => .array
  | .object _ => .object

/-- The kind of value that starts with a character. -/
def kindOf (ch : Char) : Kind :=
  if isNumberChar ch then .number
  else if ch = '"' then .string
  else if ch = '[' then .array
  else if ch = '{' then .object
  else .null

/-- A value is told by its first character. -/
theorem exists_render (json : Json) :
    ∃ first rest, json.render = first :: rest ∧ kindOf first = json.kind := by
  cases json with
  | null => exact ⟨_, _, rfl, by decide⟩
  | number literal =>
    obtain ⟨first, rest, chars⟩ := List.exists_cons_of_ne_nil literal.nonempty
    have numeric := literal.numeric first (chars ▸ List.mem_cons_self)
    exact ⟨first, rest, by rw [render, chars], if_pos numeric⟩
  | string text => exact ⟨_, _, rfl, rfl⟩
  | array items => exact ⟨_, _, by rw [render], rfl⟩
  | object fields => exact ⟨_, _, by rw [render], rfl⟩

/-- Texts that begin alike are of values of one kind. -/
theorem kind_eq {j k : Json} (same : j.render ++ x = k.render ++ y) : j.kind = k.kind := by
  obtain ⟨first, rest, isFirst, left⟩ := exists_render j
  obtain ⟨other, rest', isOther, right⟩ := exists_render k
  rw [isFirst, isOther] at same
  rw [← left, ← right, (List.cons.inj same).1]

/-- The text of a value is not the beginning of another text. -/
def Delimited (json : Json) : Prop :=
  ∀ (other : Json) (x y : List Char), Ends x → Ends y → json.render ++ x = other.render ++ y →
    json = other ∧ x = y

variable {items : List Json} {others : List (String × Option Json)} {field : String × Json}

/-- No number goes on behind an item. -/
theorem ends_renderItems : Ends (renderItems [','] items ++ x) := by
  intro ch isFirst
  cases items <;> cases isFirst <;> rfl

/-- No number goes on behind a field. -/
theorem ends_renderFields {fields : List (String × Json)} (x : List Char) :
    Ends (renderFields [','] fields ++ x) := by
  intro ch isFirst
  cases fields <;> cases isFirst <;> rfl

/-- What stands before the first item and what stands before the others. -/
def IsLead (lead : List Char) : Prop := lead = [] ∨ lead = [',']

/-- An array does not end where an item starts. -/
theorem renderItems_cons_ne (isLead : IsLead lead) {item : Json} :
    renderItems lead (item :: items) ++ x ≠ renderItems lead [] ++ y := by
  intro same
  rcases isLead with rfl | rfl
  · obtain ⟨first, rest, isFirst, kind⟩ := exists_render item
    simp only [renderItems, isFirst, List.nil_append, List.cons_append, List.cons.injEq] at same
    obtain ⟨rfl, -⟩ := same
    cases item with
    | number literal => cases kind
    | _ => cases isFirst
  · simp [renderItems] at same

/-- The text of an array's items determines them. -/
theorem renderItems_append_inj (delimited : ∀ item ∈ items, item.Delimited) (isLead : IsLead lead)
    {others : List Json} (same : renderItems lead items ++ x = renderItems lead others ++ y) :
    items = others ∧ x = y := by
  induction items generalizing lead others with
  | nil =>
    cases others with
    | nil => exact ⟨rfl, (List.cons.inj same).2⟩
    | cons other others => exact absurd same.symm (renderItems_cons_ne isLead)
  | cons item items ih =>
    cases others with
    | nil => exact absurd same (renderItems_cons_ne isLead)
    | cons other others =>
      rw [List.forall_mem_cons] at delimited
      simp only [renderItems, List.append_assoc] at same
      obtain ⟨rfl, later⟩ := delimited.1 other _ _ ends_renderItems
        ends_renderItems (List.append_cancel_left same)
      obtain ⟨rfl, rest⟩ := ih delimited.2 (.inr rfl) later
      exact ⟨rfl, rest⟩

/-- An object does not end where a field starts. -/
theorem renderFields_cons_ne (isLead : IsLead lead) {fields : List (String × Json)}
    (x y : List Char) : renderFields lead (field :: fields) ++ x ≠ renderFields lead [] ++ y := by
  intro same
  rcases isLead with rfl | rfl
  · simp [renderFields, renderString] at same
  · simp [renderFields] at same

/-- The text of an object's fields determines them. -/
theorem renderFields_append_inj {fields : List (String × Json)}
    (delimited : ∀ field ∈ fields, field.2.Delimited) (isLead : IsLead lead)
    {others : List (String × Json)}
    (same : renderFields lead fields ++ x = renderFields lead others ++ y) :
    fields = others ∧ x = y := by
  induction fields generalizing lead others with
  | nil =>
    cases others with
    | nil => exact ⟨rfl, (List.cons.inj same).2⟩
    | cons other others => exact absurd same.symm (renderFields_cons_ne isLead y x)
  | cons field fields ih =>
    cases others with
    | nil => exact absurd same (renderFields_cons_ne isLead x y)
    | cons other others =>
      rw [List.forall_mem_cons] at delimited
      obtain ⟨key, value⟩ := field
      obtain ⟨otherKey, otherValue⟩ := other
      simp only [renderFields, List.append_assoc, List.cons_append] at same
      obtain ⟨rfl, values⟩ := renderString_append_inj (List.append_cancel_left same)
      obtain ⟨rfl, later⟩ := delimited.1 otherValue _ _ (ends_renderFields x)
        (ends_renderFields y) (List.cons.inj values).2
      obtain ⟨rfl, rest⟩ := ih delimited.2 (.inr rfl) later
      exact ⟨rfl, rest⟩

/-- No text of a value is the beginning of another one. -/
theorem delimited (json : Json) : json.Delimited := by
  induction json using induct with
  | null =>
    intro other x y _ _ same
    have kinds := kind_eq same
    cases other with
    | null => exact ⟨rfl, List.append_cancel_left same⟩
    | _ => cases kinds
  | number literal =>
    intro other x y left right same
    have kinds := kind_eq same
    cases other with
    | number otherLiteral =>
      obtain ⟨rfl, rest⟩ := Literal.append_inj left right same
      exact ⟨rfl, rest⟩
    | _ => cases kinds
  | string text =>
    intro other x y _ _ same
    have kinds := kind_eq same
    cases other with
    | string otherText =>
      obtain ⟨rfl, rest⟩ := renderString_append_inj same
      exact ⟨rfl, rest⟩
    | _ => cases kinds
  | array items ih =>
    intro other x y _ _ same
    have kinds := kind_eq same
    cases other with
    | array others =>
      simp only [render, List.cons_append, List.cons.injEq, true_and] at same
      obtain ⟨rfl, rest⟩ := renderItems_append_inj ih (.inl rfl) same
      exact ⟨rfl, rest⟩
    | _ => cases kinds
  | object fields ih =>
    intro other x y _ _ same
    have kinds := kind_eq same
    cases other with
    | object others =>
      simp only [render, List.cons_append, List.cons.injEq, true_and] at same
      obtain ⟨rfl, rest⟩ := renderFields_append_inj ih (.inl rfl) same
      exact ⟨rfl, rest⟩
    | _ => cases kinds

/-- A text determines its value. -/
theorem render_injective : Function.Injective render := by
  intro json other same
  have nothing : Ends [] := by
    intro ch isFirst
    cases isFirst
  exact (delimited json other [] [] nothing nothing (congrArg (· ++ []) same)).1

/-- No text is empty. -/
theorem render_ne_nil {json : Json} : json.render ≠ [] := by
  obtain ⟨first, rest, isFirst, -⟩ := exists_render json
  exact isFirst ▸ List.cons_ne_nil first rest

/-- A dump determines the value, and whether there is one. -/
theorem dump_injective : Function.Injective dump := by
  intro json other same
  cases json with
  | none =>
    cases other with
    | none => rfl
    | some other => exact absurd (String.ofList_inj.mp same).symm render_ne_nil
  | some json =>
    cases other with
    | none => exact absurd (String.ofList_inj.mp same) render_ne_nil
    | some other => rw [render_injective (String.ofList_inj.mp same)]

/-- The fields that are not left out. -/
def present (fields : List (String × Option Json)) : List (String × Json) :=
  fields.filterMap fun field => field.2.map fun value => (field.1, value)

/-- An empty field is left out. -/
theorem present_cons_none (key : String) (fields : List (String × Option Json)) :
    present ((key, none) :: fields) = present fields := rfl

/-- A field with a value is there. -/
theorem present_cons_some (key : String) (value : Json) (fields : List (String × Option Json)) :
    present ((key, some value) :: fields) = (key, value) :: present fields := rfl

/-- Only fields of the structure are written. -/
theorem key_mem_of_mem_present (member : field ∈ present fields) :
    field.1 ∈ fields.map Prod.fst := by
  obtain ⟨source, isSource, written⟩ := List.mem_filterMap.mp member
  obtain ⟨value, -, rfl⟩ := Option.map_eq_some_iff.mp written
  exact List.mem_map_of_mem isSource

/-- With different keys, the fields that are present determine all. -/
theorem present_inj (keys : fields.map Prod.fst = others.map Prod.fst)
    (distinct : (fields.map Prod.fst).Nodup) (same : present fields = present others) :
    fields = others := by
  induction fields generalizing others with
  | nil => exact (List.map_eq_nil_iff.mp keys.symm).symm
  | cons field fields ih =>
    cases others with
    | nil => cases keys
    | cons other others =>
      obtain ⟨key, value⟩ := field
      obtain ⟨otherKey, otherValue⟩ := other
      simp only [List.map_cons, List.cons.injEq] at keys
      obtain ⟨rfl, keys⟩ := keys
      obtain ⟨fresh, later⟩ := List.nodup_cons.mp distinct
      cases value with
      | none =>
        cases otherValue with
        | none => rw [ih keys later same]
        | some otherValue =>
          rw [present_cons_none, present_cons_some] at same
          exact absurd (key_mem_of_mem_present (same ▸ List.mem_cons_self)) fresh
      | some value =>
        cases otherValue with
        | none =>
          rw [present_cons_none, present_cons_some] at same
          exact absurd (keys ▸ key_mem_of_mem_present (same ▸ List.mem_cons_self)) fresh
        | some otherValue =>
          rw [present_cons_some, present_cons_some] at same
          obtain ⟨first, rest⟩ := List.cons.inj same
          rw [(Prod.mk.inj first).2, ih keys later rest]

/-- The object of a structure with some fields left out. -/
def struct (fields : List (String × Option Json)) : Json := .object (present fields)

/-- The object determines every field. -/
@[simp] theorem struct_inj (keys : fields.map Prod.fst = others.map Prod.fst)
    (distinct : (fields.map Prod.fst).Nodup) : struct fields = struct others ↔ fields = others :=
  ⟨fun same => present_inj keys distinct (Json.object.inj same), congrArg struct⟩

/-- A field with `omitempty`. -/
def omitEmpty {α : Type} (empty : α → Bool) (write : α → Json) (value : α) : Option Json :=
  if empty value then none else some (write value)

/-- If there is one empty value, the field is determined. -/
theorem omitEmpty_injective {α : Type} {empty : α → Bool} {write : α → Json}
    (unique : ∀ a b, empty a = true → empty b = true → a = b)
    (injective : Function.Injective write) : Function.Injective (omitEmpty empty write) := by
  intro a b same
  unfold omitEmpty at same
  split_ifs at same with first second
  · exact unique a b first second
  · exact injective (Option.some.inj same)

/-- A string with `omitempty`. -/
def omitString : String → Option Json := omitEmpty (· == "") .string

/-- A list with `omitempty`. -/
def omitList {α : Type} (write : α → Json) : List α → Option Json :=
  omitEmpty List.isEmpty fun items => .array (items.map write)

/-- An integer. -/
def int (n : Int) : Json := .number (.ofInt n)

/-- An integer with `omitempty`. -/
def omitInt : Int → Option Json := omitEmpty (· == 0) int

/-- Strings are determined. -/
theorem string_injective : Function.Injective Json.string := fun _ _ => Json.string.inj

/-- So are strings with `omitempty`. -/
theorem omitString_injective : Function.Injective omitString :=
  omitEmpty_injective (fun a b first second => by simp_all) string_injective

/-- So are lists with `omitempty`. -/
theorem omitList_injective {α : Type} {write : α → Json} (injective : Function.Injective write) :
    Function.Injective (omitList write) :=
  omitEmpty_injective (fun a b first second => by simp_all) fun _ _ same =>
    List.map_injective_iff.mpr injective (Json.array.inj same)

/-- So are integers. -/
theorem int_injective : Function.Injective int :=
  fun _ _ same => Literal.ofInt_injective (Json.number.inj same)

/-- So are integers with `omitempty`. -/
theorem omitInt_injective : Function.Injective omitInt :=
  omitEmpty_injective (fun a b first second => by simp_all) int_injective

end Json

end CtrlMesh.Lib
