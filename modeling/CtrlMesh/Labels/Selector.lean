import Mathlib.Algebra.Group.Int.Defs
import Mathlib.Data.List.AList
import Mathlib.Data.List.Sort
import Mathlib.Data.String.Basic

/-!
# Label selectors

The `labels` and `meta/v1` packages of apimachinery, as far as the mesh uses them: requirements
over a label map, the selectors built from them, and the API object `LabelSelector` that is
converted into a selector. A Go map is an association list with distinct keys. `sort.Sort` is not
stable and map iteration has no order, so whatever depends on either is a `Sorter`.
-/

namespace CtrlMesh.Labels

/-- A Go map from strings to values of one type. -/
abbrev StringMap (α : Type) := AList (fun _ : String => α)

/-- `labels.Set`: the labels of one object. -/
abbrev LabelSet := StringMap String

/-- `selection.Operator`. -/
inductive Operator where
  | doesNotExist
  | equals
  | doubleEquals
  | in_
  | notEquals
  | notIn
  | exists_
  | greaterThan
  | lessThan
  deriving DecidableEq

/-- `labels.Requirement`: a key, an operator and the values the operator compares with. -/
structure Requirement where
  /-- The label key. -/
  key : String
  /-- How the label is compared. -/
  operator : Operator
  /-- The values, in the order they were given. -/
  strValues : List String
  deriving DecidableEq

/-- The digits of a decimal numeral, most significant first; anything else is refused. -/
def parseDigits : List Char → Nat → Option Nat
  | [], value => some value
  | digit :: rest, value =>
    if digit.isDigit then parseDigits rest (10 * value + (digit.toNat - '0'.toNat)) else none

/-- `strconv.ParseInt(text, 10, 64)`: an optional sign, at least one digit, in the range of an
`int64`. -/
def parseInt64 (text : String) : Option Int := do
  let (negative, digits) := match text.toList with
    | '-' :: rest => (true, rest)
    | '+' :: rest => (false, rest)
    | rest => (false, rest)
  if digits.isEmpty then none
  let magnitude ← parseDigits digits 0
  let value : Int := if negative then -(magnitude : Int) else magnitude
  if -(2 ^ 63 : Int) ≤ value ∧ value < 2 ^ 63 then some value else none

namespace Requirement

/-- `Requirement.hasValue`. -/
def hasValue (r : Requirement) (value : String) : Bool := r.strValues.contains value

/-- `Requirement.Matches`. -/
def matchesLabels (r : Requirement) (ls : LabelSet) : Bool :=
  match r.operator with
  | .in_ | .equals | .doubleEquals =>
    match ls.lookup r.key with
    | none => false
    | some value => r.hasValue value
  | .notIn | .notEquals =>
    match ls.lookup r.key with
    | none => true
    | some value => !r.hasValue value
  | .exists_ => (ls.lookup r.key).isSome
  | .doesNotExist => (ls.lookup r.key).isNone
  | .greaterThan | .lessThan =>
    match ls.lookup r.key with
    | none => false
    | some value =>
      match parseInt64 value, r.strValues with
      | some lsValue, [only] =>
        match parseInt64 only with
        | some rValue =>
          (r.operator == .greaterThan && decide (lsValue > rValue)) ||
            (r.operator == .lessThan && decide (lsValue < rValue))
        | none => false
      | _, _ => false

end Requirement

/-- The freedom Go leaves to `sort.Sort(ByKey(requirements))`: the keys ascend, the order among
equal keys is not specified. -/
structure Sorter where
  /-- One possible result of the sort. -/
  sort : List Requirement → List Requirement
  /-- Sorting only rearranges. -/
  perm : ∀ reqs, (sort reqs).Perm reqs
  /-- The keys ascend. -/
  sorted : ∀ reqs, (sort reqs).Pairwise (fun left right => left.key ≤ right.key)

/-- `ByKey.Less`, as the total preorder the sort works with. -/
def KeyLe (left right : Requirement) : Prop := left.key ≤ right.key

instance : DecidableRel KeyLe := fun left right =>
  inferInstanceAs (Decidable (left.key ≤ right.key))

instance : Std.Total KeyLe := ⟨fun left right => le_total left.key right.key⟩

instance : IsTrans Requirement KeyLe := ⟨fun _ _ _ first second => le_trans first second⟩

/-- The stable sort is one admissible sort. -/
def Sorter.stable : Sorter where
  sort := List.insertionSort KeyLe
  perm := List.perm_insertionSort KeyLe
  sorted := List.pairwise_insertionSort KeyLe

/-- `labels.Selector`: the two implementations the package has. -/
inductive Selector where
  /-- `nothingSelector`. -/
  | nothing
  /-- `internalSelector`: all requirements must hold. -/
  | requirements (reqs : List Requirement)
  deriving DecidableEq

namespace Selector

/-- `labels.Everything()`. -/
def everything : Selector := .requirements []

/-- `Selector.Matches`. -/
def matchesLabels (s : Selector) (ls : LabelSet) : Bool :=
  match s with
  | .nothing => false
  | .requirements reqs => reqs.all (·.matchesLabels ls)

/-- `Selector.Add`. -/
def add (sorter : Sorter) (s : Selector) (reqs : List Requirement) : Selector :=
  match s with
  | .nothing => .nothing
  | .requirements old => .requirements (sorter.sort (old ++ reqs))

/-- `Selector.Empty`. -/
def empty (s : Selector) : Bool :=
  match s with
  | .nothing => false
  | .requirements reqs => reqs.isEmpty

end Selector

/-- `metav1.LabelSelectorOperator`: a string with four admitted values. -/
inductive LabelSelectorOperator where
  | in_
  | notIn
  | exists_
  | doesNotExist
  /-- Any other text; the API type does not exclude it. -/
  | other (text : String)
  deriving DecidableEq

/-- `metav1.LabelSelectorRequirement`. -/
structure LabelSelectorRequirement where
  /-- The label key. -/
  key : String
  /-- How the label is compared. -/
  operator : LabelSelectorOperator
  /-- The values compared with; empty for the unary operators. -/
  values : List String
  deriving DecidableEq

/-- `metav1.LabelSelector`. A nil map or list behaves as an empty one throughout. -/
structure LabelSelector where
  /-- Labels that must be present with exactly this value. -/
  matchLabels : LabelSet := ∅
  /-- Further requirements. -/
  matchExpressions : List LabelSelectorRequirement := []
  deriving DecidableEq

/-- The operator switch shared by the two conversions; the default case is their error. -/
def LabelSelectorOperator.asOperator : LabelSelectorOperator → Option Operator
  | .in_ => some .in_
  | .notIn => some .notIn
  | .exists_ => some .exists_
  | .doesNotExist => some .doesNotExist
  | .other _ => none

variable {key : String} {ls : LabelSet}

namespace LabelSelectorRequirement

/-- The requirement an expression stands for, when its operator is known. -/
def asRequirement (e : LabelSelectorRequirement) : Option Requirement :=
  e.operator.asOperator.map fun op => ⟨e.key, op, e.values⟩

/-- Whether an expression accepts a label map; one with an unknown operator accepts none. -/
def matchesLabels (e : LabelSelectorRequirement) (ls : LabelSet) : Bool :=
  match e.asRequirement with
  | none => false
  | some r => r.matchesLabels ls

/-- An `In` expression asks for the label with one of its values. -/
@[simp]
theorem in_matches (values : List String) :
    (LabelSelectorRequirement.mk key .in_ values).matchesLabels ls = true ↔
      ∃ value ∈ values, ls.lookup key = some value := by
  cases found : ls.lookup key with
  | none => simp [matchesLabels, asRequirement, LabelSelectorOperator.asOperator,
      Requirement.matchesLabels, found]
  | some actual => simp [matchesLabels, asRequirement, LabelSelectorOperator.asOperator,
      Requirement.matchesLabels, Requirement.hasValue, found]

/-- A `NotIn` expression refuses the label with one of its values; absence is accepted. -/
@[simp]
theorem notIn_matches (values : List String) :
    (LabelSelectorRequirement.mk key .notIn values).matchesLabels ls = true ↔
      ∀ value ∈ values, ls.lookup key ≠ some value := by
  cases found : ls.lookup key with
  | none => simp [matchesLabels, asRequirement, LabelSelectorOperator.asOperator,
      Requirement.matchesLabels, found]
  | some actual =>
    have absent : actual ∉ values ↔ ∀ value ∈ values, actual ≠ value :=
      ⟨fun missing value member same => missing (same ▸ member),
        fun different member => different actual member rfl⟩
    simpa [matchesLabels, asRequirement, LabelSelectorOperator.asOperator,
      Requirement.matchesLabels, Requirement.hasValue, found] using absent

end LabelSelectorRequirement

variable {ps : LabelSelector}

namespace LabelSelector

/-- Whether an API selector accepts a label map: every `MatchLabels` pair is present and every
expression holds. -/
def matchesLabels (ps : LabelSelector) (ls : LabelSet) : Bool :=
  ps.matchLabels.entries.all (fun entry => ls.lookup entry.1 == some entry.2) &&
    ps.matchExpressions.all (·.matchesLabels ls)

/-- The equality requirements of the `MatchLabels` map. -/
def labelRequirements (ps : LabelSelector) : List Requirement :=
  ps.matchLabels.entries.map fun entry => ⟨entry.1, .equals, [entry.2]⟩

/-- All requirements of an API selector in source order; `none` on an unknown operator. -/
def asRequirements (ps : LabelSelector) : Option (List Requirement) := do
  let exprs ← ps.matchExpressions.mapM (·.asRequirement)
  some (ps.labelRequirements ++ exprs)

/-- An empty selector has no requirements. -/
theorem asRequirements_empty
    (empty : ps.matchLabels.entries.length + ps.matchExpressions.length = 0) :
    ps.asRequirements = some [] := by
  have noLabels : ps.matchLabels.entries = [] := List.length_eq_zero_iff.mp (by omega)
  have noExprs : ps.matchExpressions = [] := List.length_eq_zero_iff.mp (by omega)
  simp [asRequirements, labelRequirements, noLabels, noExprs]

/-- The pairs and expressions an accepted label map satisfies. -/
theorem matches_iff (ps : LabelSelector) (ls : LabelSet) :
    ps.matchesLabels ls = true ↔
      (∀ key value, ps.matchLabels.lookup key = some value → ls.lookup key = some value) ∧
        ∀ e ∈ ps.matchExpressions, e.matchesLabels ls = true := by
  have entries : (∀ entry ∈ ps.matchLabels.entries, ls.lookup entry.1 = some entry.2) ↔
      ∀ key value, ps.matchLabels.lookup key = some value → ls.lookup key = some value := by
    constructor
    · intro all key value found
      exact all ⟨key, value⟩ (AList.mem_lookup_iff.mp found)
    · intro all entry member
      exact all entry.1 entry.2 (AList.mem_lookup_iff.mpr member)
  simp only [matchesLabels, Bool.and_eq_true, List.all_eq_true, beq_iff_eq, entries]

/-- An equality requirement with one value asks for exactly that value. -/
theorem equals_matches {value : String} :
    (Requirement.mk key .equals [value]).matchesLabels ls = true ↔ ls.lookup key = some value := by
  cases found : ls.lookup key with
  | none => simp [Requirement.matchesLabels, found]
  | some actual => simp [Requirement.matchesLabels, Requirement.hasValue, found]

variable {exprs : List LabelSelectorRequirement} {reqs : List Requirement} {P : Requirement → Prop}

/-- The converted expressions hold exactly when the expressions do. -/
theorem exprs_match (converted : exprs.mapM (·.asRequirement) = some reqs) :
    (∀ r ∈ reqs, r.matchesLabels ls = true) ↔ ∀ e ∈ exprs, e.matchesLabels ls = true := by
  induction exprs generalizing reqs with
  | nil =>
    simp only [List.mapM_nil, Option.pure_def, Option.some.injEq] at converted
    simp [← converted]
  | cons e exprs ih =>
    cases head : e.asRequirement with
    | none => simp [List.mapM_cons, head] at converted
    | some r =>
      cases tail : exprs.mapM (·.asRequirement) with
      | none => simp [List.mapM_cons, head, tail] at converted
      | some rest =>
        simp only [List.mapM_cons, head, tail, Option.bind_eq_bind, Option.bind_some,
          Option.pure_def, Option.some.injEq] at converted
        subst converted
        simp [LabelSelectorRequirement.matchesLabels, head, ih tail]

/-- The expressions can be converted into requirements of some kind. -/
theorem exists_mapM_asRequirement :
    (∃ reqs, exprs.mapM (·.asRequirement) = some reqs ∧ ∀ r ∈ reqs, P r) ↔
      ∀ e ∈ exprs, ∃ r, e.asRequirement = some r ∧ P r := by
  induction exprs with
  | nil => simp
  | cons e exprs ih =>
    rw [List.forall_mem_cons, ← ih]
    constructor
    · rintro ⟨reqs, mapped, all⟩
      rw [List.mapM_cons] at mapped
      obtain ⟨r, first, mapped⟩ := Option.bind_eq_some_iff.mp mapped
      obtain ⟨later, rest, same⟩ := Option.bind_eq_some_iff.mp mapped
      cases same
      have ⟨here, there⟩ := List.forall_mem_cons.mp all
      exact ⟨⟨r, first, here⟩, later, rest, there⟩
    · rintro ⟨⟨r, first, here⟩, later, rest, there⟩
      exact ⟨r :: later, by simp [List.mapM_cons, first, rest],
        List.forall_mem_cons.mpr ⟨here, there⟩⟩

/-- A selector can be converted into requirements of some kind. -/
theorem exists_asRequirements :
    (∃ reqs, ps.asRequirements = some reqs ∧ ∀ r ∈ reqs, P r) ↔
      (∀ r ∈ ps.labelRequirements, P r) ∧
        ∀ e ∈ ps.matchExpressions, ∃ r, e.asRequirement = some r ∧ P r := by
  rw [← exists_mapM_asRequirement]
  constructor
  · rintro ⟨reqs, converted, all⟩
    obtain ⟨exprs, mapped, same⟩ := Option.bind_eq_some_iff.mp converted
    cases same
    have ⟨labels, expressions⟩ := List.forall_mem_append.mp all
    exact ⟨labels, exprs, mapped, expressions⟩
  · rintro ⟨labels, exprs, mapped, expressions⟩
    exact ⟨ps.labelRequirements ++ exprs, by simp [asRequirements, mapped],
      List.forall_mem_append.mpr ⟨labels, expressions⟩⟩

/-- A converted API selector accepts what the API selector accepts. -/
theorem requirements_match (converted : ps.asRequirements = some reqs) :
    (∀ r ∈ reqs, r.matchesLabels ls = true) ↔ ps.matchesLabels ls = true := by
  obtain ⟨exprs, mapped, rfl⟩ : ∃ exprs, ps.matchExpressions.mapM (·.asRequirement) = some exprs ∧
      ps.labelRequirements ++ exprs = reqs := by
    simpa [asRequirements, Option.bind_eq_some_iff] using converted
  have pairs : (∀ r ∈ ps.labelRequirements, r.matchesLabels ls = true) ↔
      ps.matchLabels.entries.all (fun entry => ls.lookup entry.1 == some entry.2) = true := by
    simp only [labelRequirements, List.forall_mem_map, equals_matches, List.all_eq_true, beq_iff_eq]
  rw [matchesLabels, Bool.and_eq_true, ← pairs, List.all_eq_true, ← exprs_match mapped,
    List.forall_mem_append]

end LabelSelector

end CtrlMesh.Labels
