import Mathlib.Data.List.Basic
import Mathlib.Tactic.Common

/-!
# Query strings of URLs

Percent-escaping and the reading of a raw query, as `net/url` has them. A text is a list of bytes,
written as characters below 256. A part of a query that holds a semicolon, is empty or has a broken
escape is left out when the query is read.
-/

namespace CtrlMesh.Lib.Query

/-- A character that is its own escape. -/
def isUnreserved (ch : Char) : Bool :=
  ('a' ≤ ch && ch ≤ 'z') || ('A' ≤ ch && ch ≤ 'Z') || ('0' ≤ ch && ch ≤ '9') ||
    ch == '-' || ch == '_' || ch == '.' || ch == '~'

/-- An upper-case hexadecimal digit. -/
def hexDigit (n : Nat) : Char := Char.ofNat (if n < 10 then 48 + n else 55 + n)

/-- The value of a hexadecimal digit. -/
def hexValue (ch : Char) : Option Nat :=
  if '0' ≤ ch ∧ ch ≤ '9' then some (ch.toNat - 48)
  else if 'a' ≤ ch ∧ ch ≤ 'f' then some (ch.toNat - 87)
  else if 'A' ≤ ch ∧ ch ≤ 'F' then some (ch.toNat - 55)
  else none

/-- `QueryEscape` of a character. -/
def escapeChar (ch : Char) : List Char :=
  if isUnreserved ch then [ch]
  else if ch = ' ' then ['+']
  else ['%', hexDigit (ch.toNat / 16), hexDigit (ch.toNat % 16)]

/-- `url.QueryEscape`. -/
def queryEscape (text : List Char) : List Char := text.flatMap escapeChar

/-- `url.QueryUnescape`. -/
def queryUnescape : List Char → Option (List Char)
  | [] => some []
  | '%' :: high :: low :: text => do
    let high ← hexValue high
    let low ← hexValue low
    let rest ← queryUnescape text
    some (Char.ofNat (16 * high + low) :: rest)
  | '%' :: _ => none
  | '+' :: text => (queryUnescape text).map (' ' :: ·)
  | ch :: text => (queryUnescape text).map (ch :: ·)

/-- A digit is read back. -/
theorem hexValue_hexDigit {n : Nat} (small : n < 16) : hexValue (hexDigit n) = some n := by
  have all : ∀ n : Fin 16, hexValue (hexDigit n.val) = some n.val := by decide
  exact all ⟨n, small⟩

variable {ch : Char} {text : List Char}

/-- A plain character stands for itself. -/
theorem queryUnescape_cons (percent : ch ≠ '%') (plus : ch ≠ '+') :
    queryUnescape (ch :: text) = (queryUnescape text).map (ch :: ·) := by
  rw [queryUnescape]
  · exact fun _ _ _ same => absurd same percent
  · exact fun same => percent same
  · exact fun same => plus same

/-- An escaped character is read back. -/
theorem queryUnescape_escapeChar (byte : ch.toNat < 256) :
    queryUnescape (escapeChar ch ++ text) = (queryUnescape text).map (ch :: ·) := by
  unfold escapeChar
  split
  · next unreserved =>
    apply queryUnescape_cons
    · rintro rfl
      revert unreserved
      decide
    · rintro rfl
      revert unreserved
      decide
  · split
    · next blank =>
      subst blank
      rfl
    · have high : hexValue (hexDigit (ch.toNat / 16)) = some (ch.toNat / 16) :=
        hexValue_hexDigit (by omega)
      have low : hexValue (hexDigit (ch.toNat % 16)) = some (ch.toNat % 16) :=
        hexValue_hexDigit (by omega)
      have whole : Char.ofNat (16 * (ch.toNat / 16) + ch.toNat % 16) = ch := by
        rw [Nat.div_add_mod, Char.ofNat_toNat]
      cases rest : queryUnescape text with
      | none => simp [queryUnescape, high, low, rest]
      | some value => simp [queryUnescape, high, low, rest, whole]

/-- Escaping is undone, on texts of bytes. -/
theorem queryUnescape_queryEscape (bytes : ∀ ch ∈ text, ch.toNat < 256) :
    queryUnescape (queryEscape text) = some text := by
  induction text with
  | nil => rfl
  | cons ch text ih =>
    have ⟨first, later⟩ := List.forall_mem_cons.mp bytes
    rw [queryEscape, List.flatMap_cons, queryUnescape_escapeChar first, ← queryEscape, ih later]
    rfl

/-- An escaped text holds none of the characters that structure a query. -/
theorem notMem_queryEscape (bytes : ∀ ch ∈ text, ch.toNat < 256) {mark : Char}
    (structural : mark = '&' ∨ mark = '=' ∨ mark = ';') : mark ∉ queryEscape text := by
  have digits : ∀ n, n < 16 → hexDigit n ≠ mark := by
    intro n small
    have all : ∀ n : Fin 16, hexDigit n.val ≠ '&' ∧ hexDigit n.val ≠ '=' ∧
      hexDigit n.val ≠ ';' := by
      decide
    obtain ⟨ampersand, equals, semicolon⟩ := all ⟨n, small⟩
    rcases structural with rfl | rfl | rfl
    · exact ampersand
    · exact equals
    · exact semicolon
  intro member
  obtain ⟨ch, inside, member⟩ := List.mem_flatMap.mp member
  have byte := bytes ch inside
  unfold escapeChar at member
  split at member
  · next unreserved =>
    rw [List.mem_singleton] at member
    rw [← member] at unreserved
    rcases structural with rfl | rfl | rfl <;> revert unreserved <;> decide
  · split at member
    · rw [List.mem_singleton] at member
      rcases structural with rfl | rfl | rfl <;> revert member <;> decide
    · simp only [List.mem_cons, List.not_mem_nil, or_false] at member
      rcases member with percent | high | low
      · rcases structural with rfl | rfl | rfl <;> revert percent <;> decide
      · exact digits _ (by omega) high.symm
      · exact digits _ (by omega) low.symm

/-- `strings.Cut(part, "=")`. -/
def cutEquals (part : List Char) : List Char × List Char :=
  (part.takeWhile (· ≠ '='), (part.dropWhile (· ≠ '=')).tail)

/-- A part of a query, if it can be read. -/
def readPart (part : List Char) : Option (List Char × List Char) :=
  if ';' ∈ part ∨ part = [] then none
  else do
    let key ← queryUnescape (cutEquals part).1
    let value ← queryUnescape (cutEquals part).2
    some (key, value)

/-- `url.ParseQuery`, as the pairs it collects. -/
def parseQuery (raw : List Char) : List (List Char × List Char) :=
  (raw.splitOn '&').filterMap readPart

/-- `Values.Get`: the first value of a key. -/
def firstValue (raw key : List Char) : Option (List Char) :=
  ((parseQuery raw).find? (·.1 = key)).map (·.2)

/-- All values of a key. -/
def values (raw key : List Char) : List (List Char) :=
  (parseQuery raw).filterMap fun pair => if pair.1 = key then some pair.2 else none

/-- `url.ParseQuery` returns no error; it passes over empty parts. -/
def Accepts (raw : List Char) : Prop :=
  ∀ part ∈ raw.splitOn '&', part ≠ [] → (readPart part).isSome = true

/-- A pair as a part of a query. -/
def writePart (pair : List Char × List Char) : List Char := pair.1 ++ '=' :: pair.2

/-- The parts of a query, joined. -/
def writeQuery (pairs : List (List Char × List Char)) : List Char :=
  ['&'].intercalate (pairs.map writePart)

section Reading

variable {raw key value part : List Char}

/-- A pair is taken apart again. -/
theorem cutEquals_writePart (free : '=' ∉ key) (value : List Char) :
    cutEquals (writePart (key, value)) = (key, value) := by
  have all : ∀ ch ∈ key, decide (ch ≠ '=') = true := fun ch member =>
    decide_eq_true fun same => free (same ▸ member)
  simp only [cutEquals, writePart]
  rw [List.takeWhile_append_of_pos all, List.dropWhile_append_of_pos all]
  simp

/-- No part of a split text holds the separator. -/
theorem notMem_of_mem_splitOn {separator : Char} {text : List Char}
    (member : part ∈ text.splitOn separator) : separator ∉ part := by
  induction text generalizing part with
  | nil =>
    rw [List.splitOn_nil, List.mem_singleton] at member
    simp [member]
  | cons ch text ih =>
    rw [List.splitOn, List.splitOnP_cons_eq_if_modifyHead, ← List.splitOn] at member
    split at member
    · rcases List.mem_cons.mp member with rfl | later
      · simp
      · exact ih later
    · next other =>
      cases shape : text.splitOn separator with
      | nil => exact absurd shape (List.splitOn_ne_nil _ _)
      | cons first parts =>
        rw [shape, List.modifyHead_cons, List.mem_cons] at member
        rcases member with rfl | later
        · have fresh := ih (shape ▸ List.mem_cons_self)
          simp only [beq_iff_eq] at other
          simp only [List.mem_cons, not_or]
          exact ⟨fun same => other same.symm, fresh⟩
        · exact ih (shape ▸ .tail _ later)

variable {pairs : List (List Char × List Char)}

/-- Parts that hold no separator are found again. -/
theorem splitOn_writeQuery (some : pairs ≠ [])
    (free : ∀ pair ∈ pairs, '&' ∉ pair.1 ∧ '&' ∉ pair.2) :
    (writeQuery pairs).splitOn '&' = pairs.map writePart := by
  apply List.splitOn_intercalate
  · simp only [List.forall_mem_map, writePart, List.mem_append, List.mem_cons]
    rintro pair member (left | same | right)
    · exact (free pair member).1 left
    · exact absurd same (by decide)
    · exact (free pair member).2 right
  · simpa using some

/-- The pairs that name a key. -/
def named (key : List Char) (pairs : List (List Char × List Char)) :
    List (List Char × List Char) :=
  pairs.filter fun pair => queryUnescape pair.1 = some key

/-- A pair that a query can hold as it stands. -/
structure Clean (pair : List Char × List Char) : Prop where
  equals : '=' ∉ pair.1
  ampersand : '&' ∉ pair.1 ∧ '&' ∉ pair.2
  semicolon : ';' ∉ pair.1 ∧ ';' ∉ pair.2

/-- A written pair is read as the pair unescaped. -/
theorem readPart_writePart_eq {pair : List Char × List Char} (equals : '=' ∉ pair.1)
    (semicolon : ';' ∉ pair.1 ∧ ';' ∉ pair.2) : readPart (writePart pair) =
      (queryUnescape pair.1).bind fun key => (queryUnescape pair.2).map ((key, ·)) := by
  have whole : ¬(';' ∈ writePart pair ∨ writePart pair = []) := by
    simp [writePart, semicolon]
  rw [readPart, if_neg whole, cutEquals_writePart equals pair.2]
  cases queryUnescape pair.1 <;> cases queryUnescape pair.2 <;> rfl

/-- The values of a written query are those of its pairs. -/
theorem values_writeQuery (clean : ∀ pair ∈ pairs, Clean pair) :
    values (writeQuery pairs) key =
      (named key pairs).filterMap fun pair => queryUnescape pair.2 := by
  by_cases none : pairs = []
  · subst none
    rfl
  · have parts := splitOn_writeQuery none fun pair member => (clean pair member).ampersand
    rw [values, parseQuery, parts, List.filterMap_map, List.filterMap_filterMap, named,
      List.filterMap_filter]
    refine List.filterMap_congr fun pair member => ?_
    have isClean := clean pair member
    rw [Function.comp_apply, readPart_writePart_eq isClean.equals isClean.semicolon]
    cases queryUnescape pair.1 with
    | none => simp
    | some found => cases queryUnescape pair.2 <;> simp

/-- What a part gives for a key, if it is read and names it. -/
def readAs (key part : List Char) : Option (List Char) :=
  (readPart part).bind fun pair => if pair.1 = key then some pair.2 else none

/-- A part that is read under the key. -/
theorem readAs_eq_some : readAs key part = some value ↔ readPart part = some (key, value) := by
  rw [readAs, Option.bind_eq_some_iff]
  constructor
  · rintro ⟨pair, read, named⟩
    split at named
    next same =>
      rw [read, ← same, ← Option.some.inj named]
    next => cases named
  · intro read
    exact ⟨(key, value), read, if_pos rfl⟩

/-- The first value of a key is that of the first part that names it. -/
theorem firstValue_eq : firstValue raw key = (raw.splitOn '&').findSome? (readAs key) := by
  unfold firstValue parseQuery
  induction raw.splitOn '&' with
  | nil => rfl
  | cons part parts ih =>
    rw [List.findSome?_cons, ← ih]
    cases read : readPart part with
    | none => simp [readAs, read]
    | some pair => by_cases same : pair.1 = key <;> simp [readAs, read, same]

/-- The only value of a key is its first one. -/
theorem firstValue_eq_some (member : part ∈ raw.splitOn '&')
    (reads : readPart part = some (key, value))
    (unique : ∀ other ∈ raw.splitOn '&', ∀ value', readPart other = some (key, value') →
      value' = value) : firstValue raw key = some value := by
  rw [firstValue_eq]
  have found : ((raw.splitOn '&').findSome? (readAs key)).isSome = true :=
    List.findSome?_isSome_iff.mpr ⟨part, member, by simp [readAs_eq_some.mpr reads]⟩
  obtain ⟨value', first⟩ := Option.isSome_iff_exists.mp found
  obtain ⟨other, inside, read⟩ := List.exists_of_findSome?_eq_some first
  rw [first, unique other inside value' (readAs_eq_some.mp read)]

/-- A key that no part is read under has no value. -/
theorem firstValue_eq_none
    (absent : ∀ part ∈ raw.splitOn '&', ∀ value, readPart part ≠ some (key, value)) :
    firstValue raw key = none := by
  rw [firstValue_eq, List.findSome?_eq_none_iff]
  intro part member
  rw [Option.eq_none_iff_forall_ne_some]
  exact fun value read => absent part member value (readAs_eq_some.mp read)

end Reading

end CtrlMesh.Lib.Query
