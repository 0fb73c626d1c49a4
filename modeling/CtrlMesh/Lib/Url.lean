import CtrlMesh.Lib.Query
import Mathlib.Data.List.TakeWhile

/-!
# URL references with an absolute path

`url.Parse` of `net/url` on a text that is empty or starts with one slash: such a text has neither
a scheme nor an authority, and falls into a path, a query and a fragment. A text is a list of
bytes, written as characters below 256.
-/

namespace CtrlMesh.Lib.Url

open Lib.Query

/-- `escape`, in a mode that keeps some of the reserved characters. -/
def percentEncode (keeps : Char → Bool) (text : List Char) : List Char :=
  text.flatMap fun ch =>
    if isUnreserved ch || keeps ch then [ch]
    else ['%', hexDigit (ch.toNat / 16), hexDigit (ch.toNat % 16)]

/-- `unescape`, in a mode for which a plus sign is one. -/
def percentDecode : List Char → Option (List Char)
  | [] => some []
  | '%' :: high :: low :: text => do
    let high ← hexValue high
    let low ← hexValue low
    let rest ← percentDecode text
    some (Char.ofNat (16 * high + low) :: rest)
  | '%' :: _ => none
  | ch :: text => (percentDecode text).map (ch :: ·)

/-- A plain character stands for itself. -/
theorem percentDecode_cons {ch : Char} (plain : ch ≠ '%') (text : List Char) :
    percentDecode (ch :: text) = (percentDecode text).map (ch :: ·) := by
  rw [percentDecode]
  · exact fun _ _ _ same => absurd same plain
  · exact fun same => plain same

/-- A text without escapes is its own decoding. -/
theorem percentDecode_of_notMem {text : List Char} (plain : '%' ∉ text) :
    percentDecode text = some text := by
  induction text with
  | nil => rfl
  | cons ch text ih =>
    simp only [List.mem_cons, not_or] at plain
    rw [percentDecode_cons (Ne.symm plain.1), ih plain.2]
    rfl

/-- Decoding makes a text shorter unless nothing is escaped. -/
theorem length_percentDecode {text decoded : List Char}
    (decodes : percentDecode text = some decoded) :
    decoded.length ≤ text.length ∧ (decoded.length = text.length → '%' ∉ text) := by
  induction text using percentDecode.induct generalizing decoded with
  | case1 =>
    cases decodes
    simp
  | case2 high low text ih =>
    obtain ⟨_, -, decodes⟩ := Option.bind_eq_some_iff.mp decodes
    obtain ⟨_, -, decodes⟩ := Option.bind_eq_some_iff.mp decodes
    obtain ⟨rest, later, same⟩ := Option.bind_eq_some_iff.mp decodes
    cases same
    have shorter := (ih later).1
    simp only [List.length_cons]
    omega
  | case3 text short => simp [percentDecode] at decodes
  | case4 ch text _ escape ih =>
    have plain : ch ≠ '%' := fun same => escape same
    rw [percentDecode_cons plain] at decodes
    obtain ⟨rest, later, rfl⟩ := Option.map_eq_some_iff.mp decodes
    obtain ⟨shorter, equal⟩ := ih later
    refine ⟨by simpa using shorter, fun same => ?_⟩
    have free := equal (by simpa using same)
    simp [Ne.symm plain, free]

/-- `strings.Cut`. -/
def cut (separator : Char) (text : List Char) : List Char × List Char :=
  (text.takeWhile (· ≠ separator), (text.dropWhile (· ≠ separator)).tail)

/-- A text without the separator is not cut. -/
theorem cut_of_notMem {separator : Char} {text : List Char} (absent : separator ∉ text) :
    cut separator text = (text, []) := by
  have all : ∀ ch ∈ text, decide (ch ≠ separator) = true := fun ch member =>
    decide_eq_true fun same => absent (same ▸ member)
  rw [cut, List.takeWhile_eq_self_iff.mpr all, List.dropWhile_eq_nil_iff.mpr all]
  rfl

/-- What stands before a separator is shorter than the text. -/
theorem length_cut (separator : Char) (text : List Char) :
    (cut separator text).1.length ≤ text.length ∧
      ((cut separator text).1.length = text.length → separator ∉ text) := by
  have initial : (cut separator text).1 <+: text := List.takeWhile_prefix _
  refine ⟨initial.length_le, fun same member => ?_⟩
  have whole : (cut separator text).1 = text := initial.eq_of_length same
  have all := List.takeWhile_eq_self_iff.mp whole separator member
  simp at all

/-- The parts of a URL that a text without scheme and authority fills. -/
structure Reference where
  path : List Char := []
  rawPath : List Char := []
  forceQuery : Bool := false
  rawQuery : List Char := []
  fragment : List Char := []
  rawFragment : List Char := []
  deriving DecidableEq

/-- The reserved characters that are kept in a path. -/
def keptInPath (ch : Char) : Bool :=
  ['$', '&', '+', ',', '/', ':', ';', '=', '@'].contains ch

/-- The reserved characters that are kept in a fragment. -/
def keptInFragment (ch : Char) : Bool := keptInPath ch || ['?', '!', '(', ')', '*'].contains ch

/-- `setPath`; the raw path is kept only if it is not the usual encoding. -/
def Reference.setPath (url : Reference) (text : List Char) : Option Reference :=
  (percentDecode text).map fun path =>
    { url with path, rawPath := if text = percentEncode keptInPath path then [] else text }

/-- `setFragment`. -/
def Reference.setFragment (url : Reference) (text : List Char) : Option Reference :=
  (percentDecode text).map fun fragment =>
    { url with fragment,
               rawFragment := if text = percentEncode keptInFragment fragment then [] else text }

/-- A byte that `stringContainsCTLByte` looks for. -/
def isControl (ch : Char) : Bool := decide (ch.toNat < 32) || ch.toNat == 127

/-- `parse`, on a text without a fragment. -/
def parseReference (text : List Char) : Option Reference :=
  if text.any isControl then none
  else if text.getLast? = some '?' ∧ text.count '?' = 1 then
    Reference.setPath { forceQuery := true } text.dropLast
  else Reference.setPath { rawQuery := (cut '?' text).2 } (cut '?' text).1

/-- `url.Parse`. -/
def parse (text : List Char) : Option Reference := do
  let url ← parseReference (cut '#' text).1
  if (cut '#' text).2 = [] then some url else url.setFragment (cut '#' text).2

/-- A byte that means itself wherever it stands. -/
def isPlain (ch : Char) : Bool := !isControl ch && ch != '%' && ch != '?' && ch != '#'

section Parse

variable {text : List Char} {url : Reference}

/-- A plain text is parsed as a path. -/
theorem parse_plain (plain : ∀ ch ∈ text, isPlain ch = true) :
    ∃ url, parse text = some url ∧ url.path = text ∧ url.rawQuery = [] := by
  have absent (mark : Char) (special : isPlain mark = false) : mark ∉ text := by
    intro member
    rw [plain mark member] at special
    cases special
  have noControl : text.any isControl = false := by
    rw [List.any_eq_false]
    intro ch member control
    simpa [isPlain, control] using plain ch member
  have noQuery : ¬(text.getLast? = some '?' ∧ text.count '?' = 1) := by
    rintro ⟨last, -⟩
    exact absent '?' rfl (List.mem_of_mem_getLast? last)
  rw [parse, cut_of_notMem (absent '#' rfl), parseReference, noControl, if_neg Bool.false_ne_true,
    if_neg noQuery, cut_of_notMem (absent '?' rfl), Reference.setPath,
    percentDecode_of_notMem (absent '%' rfl)]
  exact ⟨_, rfl, rfl, rfl⟩

/-- The path is the decoded text. -/
theorem setPath_path {start : Reference} (set : start.setPath text = some url) :
    percentDecode text = some url.path := by
  obtain ⟨path, decodes, rfl⟩ := Option.map_eq_some_iff.mp set
  exact decodes

/-- A path is shorter than the text unless nothing is decoded or cut off. -/
theorem length_parseReference (parsed : parseReference text = some url) :
    url.path.length ≤ text.length ∧ (url.path.length = text.length →
      ∀ ch ∈ text, isControl ch = false ∧ ch ≠ '%' ∧ ch ≠ '?') := by
  unfold parseReference at parsed
  split at parsed
  · cases parsed
  · next noControl =>
    split at parsed
    · next mark =>
      have decoded := (length_percentDecode (setPath_path parsed)).1
      have nonempty : 0 < text.length := List.length_pos_of_mem (List.mem_of_mem_getLast? mark.1)
      rw [List.length_dropLast] at decoded
      omega
    · obtain ⟨shorter, unescaped⟩ := length_percentDecode (setPath_path parsed)
      obtain ⟨initial, noQuery⟩ := length_cut '?' text
      refine ⟨le_trans shorter initial, fun same ch member => ?_⟩
      have whole := noQuery (by omega)
      have free := unescaped (by omega)
      rw [cut_of_notMem whole] at free
      refine ⟨?_, fun is => free (is ▸ member), fun is => whole (is ▸ member)⟩
      simp only [Bool.not_eq_true, List.any_eq_false] at noControl
      exact noControl ch member

/-- A text is its own path only if every byte means itself. -/
theorem plain_of_parse (parsed : parse text = some url) (same : url.path = text) :
    ∀ ch ∈ text, isPlain ch = true := by
  obtain ⟨before, reference, rest⟩ := Option.bind_eq_some_iff.mp parsed
  have path : before.path = url.path := by
    split at rest
    · cases rest
      rfl
    · obtain ⟨fragment, -, rfl⟩ := Option.map_eq_some_iff.mp rest
      rfl
  obtain ⟨shorter, unchanged⟩ := length_parseReference reference
  obtain ⟨initial, noFragment⟩ := length_cut '#' text
  rw [path, same] at shorter unchanged
  have whole := noFragment (by omega)
  rw [cut_of_notMem whole] at unchanged
  intro ch member
  obtain ⟨control, percent, query⟩ := unchanged rfl ch member
  have hash : ch ≠ '#' := fun is => whole (is ▸ member)
  simp [isPlain, control, percent, query, hash]

end Parse

end CtrlMesh.Lib.Url
