import CtrlMesh.Labels.TextRoundTrip
import Mathlib.Data.List.Dedup

/-!
# Merging selectors

`MergeLabelSelector` and `ValidatedLabelSelectorAsSelector` of `pkg/utils/selector.go`, and
`ParseToLabelSelector` of `meta/v1`. Merging appends the expressions of the two selectors, but
`MatchLabels` is a map: where both name a key, the second value stands and the first is lost. So a
merged selector is described by the list of all pairs that were merged into it, of which only the
last for each key counts.
-/

namespace CtrlMesh.Labels

/-- A label and the value it is asked to have. -/
abbrev Pin := String × String

/-- The value a key got last. -/
def lastValue (pins : List Pin) (key : String) : Option String :=
  (pins.reverse.find? (·.1 = key)).map (·.2)

/-- All pairs are asked for. -/
def Pinned (pins : List Pin) (ls : LabelSet) : Prop :=
  ∀ pin ∈ pins, ls.lookup pin.1 = some pin.2

/-- The last pair of each key is asked for. -/
def LastPinned (pins : List Pin) (ls : LabelSet) : Prop :=
  ∀ key value, lastValue pins key = some value → ls.lookup key = some value

/-- No key gets two values. -/
def ConflictFree (pins : List Pin) : Prop :=
  ∀ first ∈ pins, ∀ second ∈ pins, first.1 = second.1 → first.2 = second.2

instance (pins : List Pin) : Decidable (ConflictFree pins) :=
  inferInstanceAs (Decidable (∀ first ∈ pins, ∀ second ∈ pins, first.1 = second.1 →
    first.2 = second.2))

section Pins

variable {pins more : List Pin} {key value : String} {ls : LabelSet}

theorem lastValue_append (pins more : List Pin) (key : String) :
    lastValue (pins ++ more) key = (lastValue more key).or (lastValue pins key) := by
  simp only [lastValue, List.reverse_append, List.find?_append]
  cases more.reverse.find? (·.1 = key) <;> rfl

theorem mem_of_lastValue (last : lastValue pins key = some value) : (key, value) ∈ pins := by
  obtain ⟨pin, found, rfl⟩ := Option.map_eq_some_iff.mp last
  have same : pin.1 = key := by simpa using List.find?_some found
  rw [← same]
  exact List.mem_reverse.mp (List.mem_of_find?_eq_some found)

theorem exists_lastValue {pin : Pin} (member : pin ∈ pins) :
    ∃ value, lastValue pins pin.1 = some value := by
  cases found : pins.reverse.find? (·.1 = pin.1) with
  | none =>
    have absent := List.find?_eq_none.mp found pin (List.mem_reverse.mpr member)
    simp at absent
  | some last => exact ⟨last.2, by simp [lastValue, found]⟩

/-- Pairs that all come again later do not count. -/
theorem lastValue_append_of_subset (again : pins ⊆ more) :
    lastValue (pins ++ more) key = lastValue more key := by
  rw [lastValue_append]
  cases early : lastValue pins key with
  | none => exact Option.or_none
  | some value =>
    obtain ⟨value', late⟩ := exists_lastValue (again (mem_of_lastValue early))
    rw [late]
    rfl

theorem Pinned.lastPinned (pinned : Pinned pins ls) : LastPinned pins ls :=
  fun key value last => pinned (key, value) (mem_of_lastValue last)

theorem ConflictFree.pinned (free : ConflictFree pins) (last : LastPinned pins ls) :
    Pinned pins ls := by
  intro pin member
  obtain ⟨value, found⟩ := exists_lastValue member
  have same : value = pin.2 := free (pin.1, value) (mem_of_lastValue found) pin member rfl
  rw [last pin.1 value found, same]

theorem Pinned.conflictFree (pinned : Pinned pins ls) : ConflictFree pins := by
  intro first firstMember second secondMember same
  have left := pinned first firstMember
  rw [same, pinned second secondMember, Option.some.injEq] at left
  exact left.symm

theorem pinned_append : Pinned (pins ++ more) ls ↔ Pinned pins ls ∧ Pinned more ls :=
  List.forall_mem_append

/-- Asking for the last pairs, under further conditions, is asking for all of them exactly when no
key gets two values or nothing satisfies the last pairs and the conditions. -/
theorem lastPinned_iff_pinned (further : LabelSet → Prop) :
    (∀ ls, LastPinned pins ls ∧ further ls ↔ Pinned pins ls ∧ further ls) ↔
      ConflictFree pins ∨ ¬∃ ls, LastPinned pins ls ∧ further ls := by
  constructor
  · intro same
    by_cases satisfied : ∃ ls, LastPinned pins ls ∧ further ls
    · obtain ⟨ls, holds⟩ := satisfied
      exact .inl ((same ls).mp holds).1.conflictFree
    · exact .inr satisfied
  · rintro (free | unsatisfied) ls
    · exact ⟨fun holds => ⟨free.pinned holds.1, holds.2⟩,
        fun holds => ⟨holds.1.lastPinned, holds.2⟩⟩
    · exact ⟨fun holds => absurd ⟨ls, holds⟩ unsatisfied,
        fun holds => absurd ⟨ls, holds.1.lastPinned, holds.2⟩ unsatisfied⟩

end Pins

/-- Write pairs into a map, one after the other. -/
def overwrite (labels : LabelSet) (pins : List Pin) : LabelSet :=
  pins.foldl (fun labels pin => labels.insert pin.1 pin.2) labels

/-- The pairs of `MatchLabels`. -/
def LabelSelector.pins (sel : LabelSelector) : List Pin :=
  sel.matchLabels.entries.map fun entry => (entry.1, entry.2)

/-- `MergeLabelSelector`. -/
def mergeLabelSelector : Option LabelSelector → Option LabelSelector → Option LabelSelector
  | selA, none => selA
  | none, selB => selB
  | some selA, some selB => some
    { matchLabels := overwrite selA.matchLabels selB.pins
      matchExpressions := selA.matchExpressions ++ selB.matchExpressions }

/-- `ValidatedLabelSelectorAsSelector`; it fails on an unknown operator. -/
def validatedLabelSelectorAsSelector (sorter : Sorter) : Option LabelSelector → Option Selector
  | none => some .nothing
  | some ps =>
    if ps.matchLabels.entries.length + ps.matchExpressions.length = 0 then some .everything
    else ps.asRequirements.map fun reqs =>
      reqs.foldl (fun selector r => selector.add sorter [r]) .everything

/-- The operator switch of `ParseToLabelSelector`. -/
def Operator.asExpression : Operator → Option LabelSelectorOperator
  | .in_ => some .in_
  | .notIn => some .notIn
  | .exists_ => some .exists_
  | .doesNotExist => some .doesNotExist
  | _ => none

/-- The body of the loop of `ParseToLabelSelector`. -/
def addRequirement (sel : LabelSelector) (r : Requirement) : Option LabelSelector :=
  if r.operator = .equals ∨ r.operator = .doubleEquals then
    match r.strValues.dedup with
    | [value] => some { sel with matchLabels := sel.matchLabels.insert r.key value }
    | _ => none
  else r.operator.asExpression.map fun op =>
    { sel with matchExpressions := sel.matchExpressions ++
        [⟨r.key, op, sortStrings r.strValues.dedup⟩] }

/-- `ParseToLabelSelector`. -/
def parseToLabelSelector (sorter : Sorter) (text : List Char) : Option LabelSelector := do
  let reqs ← parseToRequirements sorter text
  reqs.foldlM addRequirement {}

/-- The selector asks for the last of these pairs for each key, and for these expressions. -/
structure Merged (sel : LabelSelector) (pins : List Pin)
    (exprs : List LabelSelectorRequirement) : Prop where
  lookup : ∀ key, sel.matchLabels.lookup key = lastValue pins key
  expressions : sel.matchExpressions = exprs

/-- The pairs a requirement adds to a selector it is parsed into. -/
def Requirement.pin? (r : Requirement) : Option Pin :=
  if r.operator = .equals ∨ r.operator = .doubleEquals then r.strValues.head?.map (r.key, ·)
  else none

/-- The expression a requirement adds to a selector it is parsed into. -/
def Requirement.expression? (r : Requirement) : Option LabelSelectorRequirement :=
  r.operator.asExpression.map (⟨r.key, ·, sortStrings r.strValues.dedup⟩)

section Merging

variable {sel selA selB : LabelSelector} {pins pinsA pinsB : List Pin}
  {exprs exprsA exprsB : List LabelSelectorRequirement}

theorem lookup_overwrite (labels : LabelSet) (key : String) :
    (overwrite labels pins).lookup key = (lastValue pins key).or (labels.lookup key) := by
  induction pins generalizing labels with
  | nil => rfl
  | cons pin pins ih =>
    have first : lastValue (pin :: pins) key = (lastValue pins key).or (lastValue [pin] key) :=
      lastValue_append [pin] pins key
    have written : (labels.insert pin.1 pin.2).lookup key =
        (lastValue [pin] key).or (labels.lookup key) := by
      by_cases same : pin.1 = key
      · subst same
        simp [lastValue, AList.lookup_insert]
      · rw [AList.lookup_insert_ne (Ne.symm same)]
        simp [lastValue, same]
    rw [overwrite, List.foldl_cons, ← overwrite, ih, first, written, Option.or_assoc]

theorem lookup_eq_lastValue (key : String) :
    sel.matchLabels.lookup key = lastValue sel.pins key := by
  cases last : lastValue sel.pins key with
  | none =>
    rw [AList.lookup_eq_none]
    intro member
    obtain ⟨value, found⟩ := Option.isSome_iff_exists.mp (AList.lookup_isSome.mpr member)
    have listed : (key, value) ∈ sel.pins :=
      List.mem_map.mpr ⟨⟨key, value⟩, AList.mem_lookup_iff.mp found, rfl⟩
    obtain ⟨value', some⟩ := exists_lastValue listed
    rw [last] at some
    cases some
  | some value =>
    obtain ⟨entry, member, same⟩ := List.mem_map.mp (mem_of_lastValue last)
    obtain ⟨rfl, rfl⟩ := Prod.mk.inj same
    exact AList.mem_lookup_iff.mpr member

namespace Merged

theorem self (sel : LabelSelector) : Merged sel sel.pins sel.matchExpressions :=
  ⟨lookup_eq_lastValue, rfl⟩

theorem merge (left : Merged selA pinsA exprsA) (right : Merged selB pinsB exprsB) :
    ∃ sel, mergeLabelSelector (some selA) (some selB) = some sel ∧
      Merged sel (pinsA ++ pinsB) (exprsA ++ exprsB) := by
  refine ⟨_, rfl, fun key => ?_, ?_⟩
  · rw [lookup_overwrite, ← lookup_eq_lastValue, left.lookup, right.lookup, lastValue_append]
  · rw [left.expressions, right.expressions]

theorem matches_iff (merged : Merged sel pins exprs) (ls : LabelSet) :
    sel.matchesLabels ls = true ↔ LastPinned pins ls ∧ ∀ e ∈ exprs, e.matchesLabels ls = true := by
  rw [LabelSelector.matches_iff, merged.expressions]
  simp only [merged.lookup, LastPinned]

end Merged

variable {sels : List LabelSelector}

/-- Merging selectors one after the other collects their pairs and expressions. -/
theorem merged_foldl (merged : Merged sel pins exprs) :
    ∃ sel', sels.foldl (fun acc sel => mergeLabelSelector acc (some sel)) (some sel) = some sel' ∧
      Merged sel' (pins ++ sels.flatMap LabelSelector.pins)
        (exprs ++ sels.flatMap LabelSelector.matchExpressions) := by
  induction sels generalizing sel pins exprs with
  | nil => exact ⟨sel, rfl, by simpa using merged⟩
  | cons next sels ih =>
    obtain ⟨both, result, mergedBoth⟩ := merged.merge (Merged.self next)
    obtain ⟨sel', folded, all⟩ := ih mergedBoth
    refine ⟨sel', ?_, by simpa [List.append_assoc] using all⟩
    rw [List.foldl_cons, result, folded]

/-- The merge of a list of selectors; there is none if the list is empty. -/
def mergeAll (sels : List LabelSelector) : Option LabelSelector :=
  sels.foldl (fun acc sel => mergeLabelSelector acc (some sel)) none

theorem merged_mergeAll (nonempty : sels ≠ []) :
    ∃ sel, mergeAll sels = some sel ∧ Merged sel (sels.flatMap LabelSelector.pins)
      (sels.flatMap LabelSelector.matchExpressions) := by
  obtain ⟨first, rest, rfl⟩ := List.exists_cons_of_ne_nil nonempty
  exact merged_foldl (Merged.self first)

/-- A valid selector accepts what its pairs and expressions ask for. -/
theorem labelSelectorMatches_eq_some_iff {ls : LabelSet} {accepts : Bool} :
    labelSelectorMatches (some sel) ls = some accepts ↔
      ((∀ r ∈ sel.labelRequirements, r.isValid = true) ∧
        ∀ e ∈ sel.matchExpressions, ∃ r, e.asRequirement = some r ∧ r.isValid = true) ∧
      sel.matchesLabels ls = accepts := by
  rw [← LabelSelector.exists_asRequirements]
  dsimp only [labelSelectorMatches]
  cases converted : sel.asRequirements with
  | none => simp
  | some reqs =>
    have same : reqs.all (·.matchesLabels ls) = sel.matchesLabels ls := by
      rw [Bool.eq_iff_iff, List.all_eq_true]
      exact LabelSelector.requirements_match converted
    simp [same]

/-- Selectors with the same labels and the same expressions, in any order, are alike. -/
theorem labelSelectorMatches_congr
    (labels : ∀ key, selA.matchLabels.lookup key = selB.matchLabels.lookup key)
    (expressions : ∀ e, e ∈ selA.matchExpressions ↔ e ∈ selB.matchExpressions) (ls : LabelSet) :
    labelSelectorMatches (some selA) ls = labelSelectorMatches (some selB) ls := by
  have entries : ∀ entry, entry ∈ selA.matchLabels.entries ↔ entry ∈ selB.matchLabels.entries := by
    intro entry
    rw [← AList.mem_lookup_iff, ← AList.mem_lookup_iff, labels]
  have alike : selA.matchesLabels ls = selB.matchesLabels ls := by
    rw [Bool.eq_iff_iff, LabelSelector.matches_iff, LabelSelector.matches_iff]
    simp only [labels, expressions]
  ext accepts
  simp only [labelSelectorMatches_eq_some_iff, LabelSelector.labelRequirements,
    List.forall_mem_map, entries, expressions, alike]

/-- Selectors that all come again later do not count. -/
theorem mergeAll_append_of_subset {more : List LabelSelector} (again : sels ⊆ more) :
    (mergeAll (sels ++ more)).isSome = (mergeAll more).isSome ∧
      ∀ ls, labelSelectorMatches (mergeAll (sels ++ more)) ls =
        labelSelectorMatches (mergeAll more) ls := by
  by_cases none : more = []
  · have empty : sels = [] := List.subset_nil.mp (none ▸ again)
    rw [empty, List.nil_append]
    exact ⟨rfl, fun _ => rfl⟩
  · have collected {β : Type} (f : LabelSelector → List β) : sels.flatMap f ⊆ more.flatMap f := by
      intro x member
      obtain ⟨sel, inside, found⟩ := List.mem_flatMap.mp member
      exact List.mem_flatMap.mpr ⟨sel, again inside, found⟩
    obtain ⟨late, lateIs, lateMerged⟩ := merged_mergeAll none
    obtain ⟨both, bothIs, bothMerged⟩ :=
      merged_mergeAll fun empty => none (List.append_eq_nil_iff.mp empty).2
    rw [lateIs, bothIs]
    refine ⟨rfl, labelSelectorMatches_congr (fun key => ?_) fun e => ?_⟩
    · rw [bothMerged.lookup, lateMerged.lookup, List.flatMap_append]
      exact lastValue_append_of_subset (collected LabelSelector.pins)
    · rw [bothMerged.expressions, lateMerged.expressions, List.flatMap_append, List.mem_append]
      exact or_iff_right_of_imp fun early => collected LabelSelector.matchExpressions early

end Merging

variable {sorter : Sorter}

section Parsed

variable {sel sel' : LabelSelector} {r : Requirement} {reqs : List Requirement}

/-- A requirement that a label selector can hold. -/
def Requirement.Convertible (r : Requirement) : Prop := r.Proper ∧
  (r.operator = .equals ∨ r.operator = .doubleEquals ∨ r.operator = .in_ ∨ r.operator = .notIn ∨
    r.operator = .exists_ ∨ r.operator = .doesNotExist)

theorem addRequirement_eq (proper : r.Proper) (added : addRequirement sel r = some sel') :
    r.Convertible ∧ sel' =
      { matchLabels := overwrite sel.matchLabels r.pin?.toList
        matchExpressions := sel.matchExpressions ++ r.expression?.toList } := by
  unfold addRequirement at added
  split at added
  · next equality =>
    rw [List.Nodup.dedup proper.2] at added
    split at added
    · next value only =>
      cases added
      refine ⟨⟨proper, by tauto⟩, ?_⟩
      have noExpression : r.expression? = none := by
        rcases equality with same | same <;>
          simp [Requirement.expression?, same, Operator.asExpression]
      simp [Requirement.pin?, equality, only, overwrite, noExpression]
    · cases added
  · next inequality =>
    obtain ⟨op, converted, rfl⟩ := Option.map_eq_some_iff.mp added
    refine ⟨⟨proper, ?_⟩, ?_⟩
    · cases same : r.operator <;> simp [same, Operator.asExpression] at converted ⊢
    · simp [Requirement.pin?, inequality, overwrite, Requirement.expression?, converted]

theorem foldlM_addRequirement (proper : ∀ r ∈ reqs, r.Proper)
    (added : reqs.foldlM addRequirement sel = some sel') :
    (∀ r ∈ reqs, r.Convertible) ∧
      sel' = { matchLabels := overwrite sel.matchLabels (reqs.filterMap Requirement.pin?)
               matchExpressions :=
                sel.matchExpressions ++ reqs.filterMap Requirement.expression? } := by
  induction reqs generalizing sel with
  | nil =>
    cases added
    simp [overwrite]
  | cons r reqs ih =>
    have ⟨properFirst, properRest⟩ := List.forall_mem_cons.mp proper
    rw [List.foldlM_cons] at added
    obtain ⟨next, first, later⟩ := Option.bind_eq_some_iff.mp added
    obtain ⟨convertible, rfl⟩ := addRequirement_eq properFirst first
    obtain ⟨others, rfl⟩ := ih properRest later
    refine ⟨List.forall_mem_cons.mpr ⟨convertible, others⟩, ?_⟩
    cases pin : r.pin? <;> cases expression : r.expression? <;> simp [pin, expression, overwrite]

/-- A parsed label selector is the merge of what its requirements add. -/
theorem merged_parse {text : List Char} (parsed : parseToRequirements sorter text = some reqs)
    (converted : parseToLabelSelector sorter text = some sel) :
    (∀ r ∈ reqs, r.Convertible) ∧
      Merged sel (reqs.filterMap Requirement.pin?) (reqs.filterMap Requirement.expression?) := by
  rw [parseToLabelSelector, parsed] at converted
  obtain ⟨convertible, rfl⟩ := foldlM_addRequirement (proper_of_parse parsed) converted
  refine ⟨convertible, fun key => ?_, rfl⟩
  rw [lookup_overwrite]
  exact Option.or_none

theorem Requirement.Convertible.exists_addRequirement (convertible : r.Convertible) :
    ∃ sel', addRequirement sel r = some sel' := by
  unfold addRequirement
  rw [List.Nodup.dedup convertible.1.2]
  split
  · next equality =>
    obtain ⟨value, only⟩ := r.exact_values convertible.1.1 (by tauto)
    rw [only]
    exact ⟨_, rfl⟩
  · next other =>
    rw [← Option.isSome_iff_exists, Option.isSome_map]
    obtain ⟨-, same | same | same | same | same | same⟩ := convertible
    all_goals simp [same, Operator.asExpression] at other ⊢

/-- A label selector can hold what is parsed exactly if it can hold every requirement. -/
theorem exists_parseToLabelSelector {text : List Char}
    (parsed : parseToRequirements sorter text = some reqs) :
    (∃ sel, parseToLabelSelector sorter text = some sel) ↔ ∀ r ∈ reqs, r.Convertible := by
  have loop : ∀ (reqs : List Requirement) (sel : LabelSelector), (∀ r ∈ reqs, r.Convertible) →
      ∃ sel', reqs.foldlM addRequirement sel = some sel' := by
    intro reqs
    induction reqs with
    | nil => exact fun sel _ => ⟨sel, rfl⟩
    | cons r reqs ih =>
      intro sel convertible
      obtain ⟨first, later⟩ := List.forall_mem_cons.mp convertible
      obtain ⟨next, added⟩ := first.exists_addRequirement
      rw [List.foldlM_cons, added]
      exact ih next later
  constructor
  · rintro ⟨sel, converted⟩
    exact (merged_parse parsed converted).1
  · rw [parseToLabelSelector, parsed]
    exact loop reqs {}

/-- What a requirement asks for is what it adds to a label selector. -/
theorem Requirement.Convertible.matches_iff (convertible : r.Convertible) (ls : LabelSet) :
    r.matchesLabels ls = true ↔ (∀ pin ∈ r.pin?, ls.lookup pin.1 = some pin.2) ∧
      ∀ e ∈ r.expression?, e.matchesLabels ls = true := by
  obtain ⟨⟨valid, distinct⟩, operator⟩ := convertible
  have equality : r.operator.Exact → ∃ value, r.strValues = [value] :=
    Requirement.exact_values valid
  obtain ⟨key, op, values⟩ := r
  have same : ∀ value, value ∈ sortStrings values.dedup ↔ value ∈ values := fun value => by
    rw [mem_sortStrings, List.mem_dedup]
  rcases operator with rfl | rfl | rfl | rfl | rfl | rfl
  · obtain ⟨value, rfl⟩ := equality (.inl rfl)
    simpa [pin?, expression?, Operator.asExpression] using LabelSelector.equals_matches
  · obtain ⟨value, rfl⟩ := equality (.inr (.inl rfl))
    have alike : (Requirement.mk key .doubleEquals [value]).matchesLabels ls =
        (Requirement.mk key .equals [value]).matchesLabels ls := rfl
    rw [alike]
    simpa [pin?, expression?, Operator.asExpression] using LabelSelector.equals_matches
  · simp [pin?, expression?, Operator.asExpression, LabelSelectorRequirement.matchesLabels,
      LabelSelectorRequirement.asRequirement, LabelSelectorOperator.asOperator,
      Requirement.matchesLabels, Requirement.hasValue, List.contains_eq_mem, same]
  · simp [pin?, expression?, Operator.asExpression, LabelSelectorRequirement.matchesLabels,
      LabelSelectorRequirement.asRequirement, LabelSelectorOperator.asOperator,
      Requirement.matchesLabels, Requirement.hasValue, List.contains_eq_mem, same]
  · simp [pin?, expression?, Operator.asExpression, LabelSelectorRequirement.matchesLabels,
      LabelSelectorRequirement.asRequirement, LabelSelectorOperator.asOperator,
      Requirement.matchesLabels]
  · simp [pin?, expression?, Operator.asExpression, LabelSelectorRequirement.matchesLabels,
      LabelSelectorRequirement.asRequirement, LabelSelectorOperator.asOperator,
      Requirement.matchesLabels]

theorem requirements_iff_pinned (convertible : ∀ r ∈ reqs, r.Convertible) (ls : LabelSet) :
    (∀ r ∈ reqs, r.matchesLabels ls = true) ↔ Pinned (reqs.filterMap Requirement.pin?) ls ∧
      ∀ e ∈ reqs.filterMap Requirement.expression?, e.matchesLabels ls = true := by
  constructor
  · intro all
    constructor
    · intro pin member
      obtain ⟨r, inside, added⟩ := List.mem_filterMap.mp member
      exact ((convertible r inside).matches_iff ls).mp (all r inside) |>.1 pin added
    · intro e member
      obtain ⟨r, inside, added⟩ := List.mem_filterMap.mp member
      exact ((convertible r inside).matches_iff ls).mp (all r inside) |>.2 e added
  · rintro ⟨pinned, expressions⟩ r inside
    refine ((convertible r inside).matches_iff ls).mpr ⟨fun pin added => ?_, fun e added => ?_⟩
    · exact pinned pin (List.mem_filterMap.mpr ⟨r, inside, added⟩)
    · exact expressions e (List.mem_filterMap.mpr ⟨r, inside, added⟩)

end Parsed

/-- A pair whose requirement is valid. -/
def WritablePin (pin : Pin) : Prop := (Requirement.mk pin.1 .equals [pin.2]).isValid = true

/-- An expression whose requirement is valid and can be read back. -/
def WritableExpression (e : LabelSelectorRequirement) : Prop :=
  ∃ r, e.asRequirement = some r ∧ r.isValid = true ∧ r.strValues.count "" ≤ 1

/-- A valid selector that gives no expression the empty value twice. -/
def LabelSelector.Writable (sel : LabelSelector) : Prop :=
  (∀ pin ∈ sel.pins, WritablePin pin) ∧ ∀ e ∈ sel.matchExpressions, WritableExpression e

variable {sel : LabelSelector} {selector : Selector}

theorem LabelSelector.Writable.asRequirements (writable : sel.Writable) :
    ∃ reqs, sel.asRequirements = some reqs ∧
      ∀ r ∈ reqs, r.isValid = true ∧ r.strValues.count "" ≤ 1 := by
  refine LabelSelector.exists_asRequirements.mpr ⟨?_, writable.2⟩
  simp only [labelRequirements, List.forall_mem_map]
  intro entry member
  have valid : WritablePin (entry.1, entry.2) :=
    writable.1 _ (List.mem_map.mpr ⟨entry, member, rfl⟩)
  exact ⟨valid, List.count_le_length⟩

/-- `ValidatedLabelSelectorAsSelector` gives the requirements of the selector in some order. -/
theorem validated_eq
    (converted : validatedLabelSelectorAsSelector sorter (some sel) = some selector) :
    ∃ reqs sorted, sel.asRequirements = some reqs ∧ selector = .requirements sorted ∧
      sorted.Perm reqs := by
  have folded : ∀ reqs old : List Requirement, ∃ sorted,
      reqs.foldl (fun selector r => Selector.add sorter selector [r]) (.requirements old) =
        .requirements sorted ∧ sorted.Perm (old ++ reqs) := by
    intro reqs
    induction reqs with
    | nil => exact fun old => ⟨old, rfl, by simp⟩
    | cons r reqs ih =>
      intro old
      obtain ⟨sorted, same, perm⟩ := ih (sorter.sort (old ++ [r]))
      refine ⟨sorted, same, perm.trans ?_⟩
      simpa using (sorter.perm (old ++ [r])).append_right reqs
  simp only [validatedLabelSelectorAsSelector] at converted
  split at converted
  · next empty =>
    exact ⟨[], [], LabelSelector.asRequirements_empty empty, (Option.some.inj converted).symm, .nil⟩
  · obtain ⟨reqs, found, same⟩ := Option.map_eq_some_iff.mp converted
    obtain ⟨sorted, result, perm⟩ := folded reqs []
    exact ⟨reqs, sorted, found, same.symm.trans result, by simpa using perm⟩

/-- `ValidatedLabelSelectorAsSelector` fails only where a requirement is missing. -/
theorem exists_validated :
    (∃ selector, validatedLabelSelectorAsSelector sorter (some sel) = some selector) ↔
      ∃ reqs, sel.asRequirements = some reqs := by
  constructor
  · rintro ⟨selector, converted⟩
    obtain ⟨reqs, -, found, -⟩ := validated_eq converted
    exact ⟨reqs, found⟩
  · rintro ⟨reqs, found⟩
    simp only [validatedLabelSelectorAsSelector]
    split
    · exact ⟨_, rfl⟩
    · rw [found]
      exact ⟨_, rfl⟩

/-- The text of a converted selector is ASCII and is read back to what the selector asks for. -/
theorem parse_converted (reader : Sorter) (writable : sel.Writable)
    (converted : validatedLabelSelectorAsSelector sorter (some sel) = some selector) :
    (∀ ch ∈ selector.text, ch.toNat < 128) ∧
      ∃ reqs, parseToRequirements reader selector.text = some reqs ∧
        ∀ ls, (∀ r ∈ reqs, r.matchesLabels ls = true) ↔ sel.matchesLabels ls = true := by
  obtain ⟨reqs, sorted, found, rfl, perm⟩ := validated_eq converted
  obtain ⟨reqs', found', valid⟩ := writable.asRequirements
  obtain rfl := Option.some.inj (found.symm.trans found')
  have validSorted : ∀ r ∈ sorted, r.isValid = true ∧ r.strValues.count "" ≤ 1 :=
    fun r member => valid r (perm.mem_iff.mp member)
  constructor
  · apply joinComma_below le_rfl
    simp only [List.forall_mem_map]
    exact fun r member => Requirement.text_ascii (validSorted r member).1
  · obtain ⟨back, parsed, same⟩ := parse_text validSorted
    refine ⟨back, parsed, fun ls => ?_⟩
    rw [same, ← LabelSelector.requirements_match found]
    simp only [perm.mem_iff]

section Written

variable {sel : LabelSelector} {pins : List Pin} {exprs : List LabelSelectorRequirement}

theorem Merged.writable (merged : Merged sel pins exprs) (pinned : ∀ pin ∈ pins, WritablePin pin)
    (written : ∀ e ∈ exprs, WritableExpression e) : sel.Writable := by
  refine ⟨fun pin member => ?_, merged.expressions ▸ written⟩
  obtain ⟨entry, inside, rfl⟩ := List.mem_map.mp member
  have found := AList.mem_lookup_iff.mpr inside
  exact pinned _ (mem_of_lastValue ((merged.lookup entry.1).symm.trans found))

theorem Operator.admits_perm {values values' : List String} (perm : values.Perm values')
    {op : Operator} : op.admits values = op.admits values' := by
  cases op <;> simp only [admits, perm.length_eq, perm.all_eq, perm.isEmpty_eq]

theorem Requirement.Convertible.writablePin {r : Requirement} (convertible : r.Convertible)
    {pin : Pin} (added : r.pin? = some pin) : WritablePin pin := by
  have ⟨named, _, valued⟩ := Requirement.isValid_iff.mp convertible.1.1
  unfold Requirement.pin? at added
  split at added
  · obtain ⟨value, first, rfl⟩ := Option.map_eq_some_iff.mp added
    refine Requirement.isValid_iff.mpr ⟨named, rfl, fun value' member => ?_⟩
    rw [List.mem_singleton.mp member]
    exact valued value (List.mem_of_mem_head? first)
  · cases added

theorem Requirement.Convertible.writableExpression {r : Requirement} (convertible : r.Convertible)
    {e : LabelSelectorRequirement} (added : r.expression? = some e) : WritableExpression e := by
  obtain ⟨op, converted, rfl⟩ := Option.map_eq_some_iff.mp added
  have ⟨named, admitted, valued⟩ := Requirement.isValid_iff.mp convertible.1.1
  have back : op.asOperator = some r.operator := by
    cases same : r.operator <;> simp only [same, Operator.asExpression] at converted <;>
      first | (cases converted; rfl) | cases converted
  have same := perm_sortStrings r.strValues
  refine ⟨⟨r.key, r.operator, sortStrings r.strValues⟩, ?_, ?_, ?_⟩
  · simp [LabelSelectorRequirement.asRequirement, back, List.Nodup.dedup convertible.1.2]
  · refine Requirement.isValid_iff.mpr ⟨named, ?_, fun value member => ?_⟩
    · exact (Operator.admits_perm same).trans admitted
    · exact valued value (mem_sortStrings.mp member)
  · rw [same.count_eq]
    exact List.nodup_iff_count_le_one.mp convertible.1.2 ""

end Written

end CtrlMesh.Labels
