import CtrlMesh.Lib.Assoc
import CtrlMesh.Proxy.ShardIsolation

/-!
# What injection leaves of the query

`injectSelector` takes the query apart with its own splitter, keeps one raw value for each raw key
and joins the pairs in the order of a Go map, while the API server reads the result with
`url.ParseQuery`. The other parameters come through exactly if every part holds one `=`, and the
parts that name one key are spelled differently and say the same.
-/

namespace CtrlMesh.Proxy

open Labels Api Lib Lib.Query

/-- A part that holds exactly one `=`. -/
def splitPart (part : List Char) : Option (List Char × List Char) :=
  match part.splitOn '=' with
  | [key, value] => some (key, value)
  | _ => none

/-- The raw pairs of a query, in order. -/
def rawPairs (rawQuery : List Char) : Option (List (List Char × List Char)) :=
  if rawQuery = [] then some [] else (rawQuery.splitOn '&').mapM splitPart

/-- The map of the raw pairs. -/
def enter (pairs : List (List Char × List Char)) : RawQuery :=
  pairs.foldl (fun raw pair => raw.insert pair.1 pair.2) ∅

/-- A pair that `url.ParseQuery` reads. -/
structure Legible (pair : List Char × List Char) : Prop extends Clean pair where
  key : (queryUnescape pair.1).isSome = true
  value : (queryUnescape pair.2).isSome = true

section Pairs

variable {rawQuery key value : List Char} {pairs : List (List Char × List Char)}

theorem parseRawQuery_eq : parseRawQuery rawQuery = (rawPairs rawQuery).map enter := by
  have loop : ∀ (parts : List (List Char)) (start : RawQuery),
      parts.foldlM (fun result pair =>
        match pair.splitOn '=' with
        | [key, value] => some (result.insert key value)
        | _ => none) start =
      (parts.mapM splitPart).map
        (List.foldl (fun raw pair => raw.insert pair.1 pair.2) start) := by
    intro parts
    induction parts with
    | nil => exact fun _ => rfl
    | cons part parts ih =>
      intro start
      rw [List.foldlM_cons, List.mapM_cons, splitPart]
      split
      · rw [Option.bind_eq_bind, Option.bind_some, ih]
        cases parts.mapM splitPart <;> rfl
      · rfl
  unfold parseRawQuery rawPairs
  split
  · rfl
  · exact loop _ _

/-- The query is its raw pairs, joined. -/
theorem rawPairs_spec (found : rawPairs rawQuery = some pairs) :
    rawQuery = writeQuery pairs ∧
      ∀ pair ∈ pairs, '=' ∉ pair.1 ∧ writePart pair ∈ rawQuery.splitOn '&' := by
  have loop : ∀ (parts : List (List Char)) (pairs : List (List Char × List Char)),
      parts.mapM splitPart = some pairs →
      parts = pairs.map writePart ∧ ∀ pair ∈ pairs, '=' ∉ pair.1 := by
    intro parts
    induction parts with
    | nil =>
      intro pairs mapped
      cases mapped
      simp
    | cons part parts ih =>
      intro pairs mapped
      rw [List.mapM_cons] at mapped
      obtain ⟨pair, first, mapped⟩ := Option.bind_eq_some_iff.mp mapped
      obtain ⟨later, rest, same⟩ := Option.bind_eq_some_iff.mp mapped
      cases same
      obtain ⟨rfl, free⟩ := ih later rest
      unfold splitPart at first
      split at first
      · next key value split =>
        cases first
        obtain ⟨rfl, own⟩ := pair_of_splitOn split
        exact ⟨rfl, List.forall_mem_cons.mpr ⟨own, free⟩⟩
      · cases first
  unfold rawPairs at found
  split at found
  · next empty =>
    cases found
    exact ⟨empty, by simp⟩
  · obtain ⟨parts, free⟩ := loop _ _ found
    constructor
    · rw [writeQuery, ← parts, List.intercalate_splitOn]
    · intro pair member
      refine ⟨free pair member, ?_⟩
      rw [parts]
      exact List.mem_map_of_mem member

/-- In a query that `url.ParseQuery` accepts every pair is read. -/
theorem legible_of_accepts (found : rawPairs rawQuery = some pairs) (accepted : Accepts rawQuery) :
    ∀ pair ∈ pairs, Legible pair := by
  intro pair member
  obtain ⟨free, part⟩ := (rawPairs_spec found).2 pair member
  have whole : writePart pair ≠ [] := by simp [writePart]
  have read := accepted _ part whole
  have ampersand : '&' ∉ writePart pair := notMem_of_mem_splitOn part
  have semicolon : ';' ∉ writePart pair := by
    intro inside
    simp [readPart, inside] at read
  simp only [writePart, List.mem_append, List.mem_cons, not_or] at ampersand semicolon
  have clean : Clean pair := ⟨free, ⟨ampersand.1, ampersand.2.2⟩, semicolon.1, semicolon.2.2⟩
  rw [readPart_writePart_eq clean.equals clean.semicolon] at read
  refine ⟨clean, ?_, ?_⟩
  · cases named : queryUnescape pair.1 with
    | none => simp [named] at read
    | some key => rfl
  · cases valued : queryUnescape pair.2 with
    | none => simp [valued] at read
    | some value => rfl

theorem lookup_enter :
    (enter pairs).lookup key = (pairs.reverse.find? fun pair => pair.1 = key).map (·.2) := by
  rw [enter, lookup_foldl_insert_of Prod.fst Prod.snd]
  simp

theorem mem_of_lookup_enter (found : (enter pairs).lookup key = some value) :
    (key, value) ∈ pairs := by
  rw [lookup_enter, Option.map_eq_some_iff] at found
  obtain ⟨pair, last, rfl⟩ := found
  have same : pair.1 = key := by simpa using List.find?_some last
  rw [← same]
  exact List.mem_reverse.mp (List.mem_of_find?_eq_some last)

theorem exists_lookup_enter {pair : List Char × List Char} (member : pair ∈ pairs) :
    ∃ value, (enter pairs).lookup pair.1 = some value := by
  rw [← Option.isSome_iff_exists, lookup_enter, Option.isSome_map, List.find?_isSome]
  exact ⟨pair, List.mem_reverse.mpr member, by simp⟩

end Pairs

namespace MapOrder

theorem nodup_list (order : MapOrder) {raw : RawQuery} : ((order.list raw).map Prod.fst).Nodup := by
  rw [((order.perm raw).map Prod.fst).nodup_iff, List.map_map]
  exact raw.keys_nodup

/-- Any order of one map can be met. -/
theorem exists_list {raw : RawQuery} {list : List (List Char × List Char)}
    (perm : list.Perm (raw.entries.map fun entry => (entry.1, entry.2))) :
    ∃ order : MapOrder, order.list raw = list := by
  classical
  refine ⟨⟨fun other => if other = raw then list
    else other.entries.map fun entry => (entry.1, entry.2), fun other => ?_⟩, if_pos rfl⟩
  by_cases same : other = raw
  · subst same
    simpa using perm
  · simp [same]

end MapOrder

/-- The map with the injected selector. -/
def entered (pairs : List (List Char × List Char)) (text : List Char) : RawQuery :=
  (enter pairs).insert labelSelectorKey (queryEscape text)

/-- The parts that name one key are spelled differently and have one value, those of the label
selector are spelled plainly. -/
structure Separate (pairs : List (List Char × List Char)) : Prop where
  spelled : ∀ pair ∈ named labelSelectorKey pairs, pair.1 = labelSelectorKey
  others : ∀ key, key ≠ labelSelectorKey → (named key pairs).Pairwise fun first second =>
    first.1 ≠ second.1 ∧ queryUnescape first.2 = queryUnescape second.2

section Enumerated

variable {pairs : List (List Char × List Char)} {text key : List Char} {order : MapOrder}
  {pair : List Char × List Char}

theorem mem_named : pair ∈ named key pairs ↔ pair ∈ pairs ∧ queryUnescape pair.1 = some key := by
  simp [named]

theorem mem_entered :
    pair ∈ order.list (entered pairs text) ↔ pair = (labelSelectorKey, queryEscape text) ∨
      pair.1 ≠ labelSelectorKey ∧ (enter pairs).lookup pair.1 = some pair.2 := by
  rw [order.mem_list, entered, lookup_insert_ite]
  split
  · next same =>
    rw [Option.some.injEq, or_iff_left fun other => other.1 same]
    exact ⟨fun value => Prod.ext same value.symm, fun whole => by rw [whole]⟩
  · next different =>
    rw [or_iff_right fun whole => different (congrArg Prod.fst whole)]
    exact ⟨fun found => ⟨different, found⟩, And.right⟩

theorem clean_entered (bytes : ∀ ch ∈ text, ch.toNat < 256)
    (legible : ∀ pair ∈ pairs, Legible pair) :
    ∀ pair ∈ order.list (entered pairs text), Legible pair := by
  intro pair member
  rcases mem_entered.mp member with rfl | ⟨-, found⟩
  · have plain : '=' ∉ labelSelectorKey ∧ '&' ∉ labelSelectorKey ∧ ';' ∉ labelSelectorKey := by
      decide
    refine ⟨⟨plain.1, ⟨plain.2.1, notMem_queryEscape bytes (.inl rfl)⟩, plain.2.2,
      notMem_queryEscape bytes (.inr (.inr rfl))⟩, ?_, ?_⟩
    · rw [queryUnescape_labelSelectorKey]
      rfl
    · rw [queryUnescape_queryEscape bytes]
      rfl
  · exact legible _ (mem_of_lookup_enter found)

/-- Of another key the map holds what the query says. -/
theorem named_entered_subset (other : key ≠ labelSelectorKey) :
    named key (order.list (entered pairs text)) ⊆ named key pairs := by
  intro pair member
  obtain ⟨listed, names⟩ := mem_named.mp member
  rcases mem_entered.mp listed with rfl | ⟨-, found⟩
  · rw [queryUnescape_labelSelectorKey, Option.some.injEq] at names
    exact absurd names.symm other
  · exact mem_named.mpr ⟨mem_of_lookup_enter found, names⟩

theorem nodup_named (order : MapOrder) (raw : RawQuery) (key : List Char) :
    ((named key (order.list raw)).map Prod.fst).Nodup :=
  (order.nodup_list).sublist (List.filter_sublist.map _)

/-- Differently spelled parts all stay. -/
theorem perm_named (other : key ≠ labelSelectorKey)
    (distinct : ((named key pairs).map Prod.fst).Nodup) :
    (named key (order.list (entered pairs text))).Perm (named key pairs) := by
  rw [List.perm_ext_iff_of_nodup ((nodup_named order _ key).of_map) distinct.of_map]
  refine fun pair => ⟨fun member => named_entered_subset other member, fun member => ?_⟩
  obtain ⟨inside, names⟩ := mem_named.mp member
  refine mem_named.mpr ⟨(mem_entered).mpr (.inr ⟨?_, ?_⟩), names⟩
  · intro same
    rw [same, queryUnescape_labelSelectorKey, Option.some.injEq] at names
    exact other names.symm
  · -- the last part of this spelling is the only one
    obtain ⟨value, found⟩ := exists_lookup_enter inside
    have last : (pair.1, value) ∈ named key pairs :=
      mem_named.mpr ⟨mem_of_lookup_enter found, names⟩
    have same := List.inj_on_of_nodup_map distinct last member rfl
    rw [found, ← same]

/-- What the pairs say about a key. -/
def said (key : List Char) (pairs : List (List Char × List Char)) : List (List Char) :=
  (named key pairs).filterMap fun pair => queryUnescape pair.2

theorem length_said (legible : ∀ pair ∈ pairs, Legible pair) (key : List Char) :
    (said key pairs).length = (named key pairs).length := by
  refine List.filterMap_length_eq_length.mpr fun pair member => ?_
  exact (legible pair (mem_named.mp member).1).value

theorem said_entered (other : key ≠ labelSelectorKey)
    (apart : (named key pairs).Pairwise fun first second =>
      first.1 ≠ second.1 ∧ queryUnescape first.2 = queryUnescape second.2) :
    said key (order.list (entered pairs text)) = said key pairs := by
  have distinct : ((named key pairs).map Prod.fst).Nodup :=
    List.pairwise_map.mpr (apart.imp And.left)
  have perm : (said key (order.list (entered pairs text))).Perm (said key pairs) :=
    (perm_named other distinct).filterMap _
  have equal : (said key pairs).Pairwise (· = ·) := by
    refine apart.filterMap _ fun first second both value read value' read' => ?_
    rw [both.2, read', Option.some.injEq] at read
    exact read.symm
  exact perm.eq_of_pairwise (fun _ _ _ _ same _ => same)
    ((perm.pairwise_iff Eq.symm).mpr equal) equal

/-- What the query says about another key comes through in every order of the map exactly if its
parts are spelled differently and say the same. -/
theorem said_entered_iff (bytes : ∀ ch ∈ text, ch.toNat < 256)
    (legible : ∀ pair ∈ pairs, Legible pair) (other : key ≠ labelSelectorKey) :
    (∀ order : MapOrder, said key (order.list (entered pairs text)) = said key pairs) ↔
      (named key pairs).Pairwise fun first second =>
        first.1 ≠ second.1 ∧ queryUnescape first.2 = queryUnescape second.2 := by
  refine ⟨fun same => ?_, fun apart order => said_entered other apart⟩
  have distinct : ((named key pairs).map Prod.fst).Nodup := by
    have lengths := congrArg List.length (same .entries)
    rw [length_said (clean_entered bytes legible) key, length_said legible key] at lengths
    have fewer := List.subperm_of_subset (nodup_named .entries (entered pairs text) key)
      (List.map_subset Prod.fst (named_entered_subset other))
    have perm := fewer.perm_of_length_le (by simp [lengths])
    exact perm.nodup_iff.mp (nodup_named .entries (entered pairs text) key)
  have apart : (named key pairs).Pairwise fun first second => first.1 ≠ second.1 :=
    List.pairwise_map.mp distinct
  refine apart.imp_of_mem fun {first second} inFirst inSecond different => ⟨different, ?_⟩
  -- two orders of the map that differ in which of the two comes first
  have listed : ∀ pair ∈ named key pairs, pair ∈ MapOrder.entries.list (entered pairs text) :=
    fun pair member => (mem_named.mp ((perm_named other distinct).mem_iff.mpr member)).1
  obtain ⟨rest, perm⟩ : ∃ rest, (MapOrder.entries.list (entered pairs text)).Perm
      (first :: second :: rest) := by
    have ahead := List.perm_cons_erase (listed first inFirst)
    have later : second ∈ (MapOrder.entries.list (entered pairs text)).erase first :=
      (List.mem_erase_of_ne fun same => different (congrArg Prod.fst same).symm).mpr
        (listed second inSecond)
    exact ⟨_, ahead.trans ((List.perm_cons_erase later).cons first)⟩
  obtain ⟨forth, isForth⟩ := MapOrder.exists_list perm.symm
  obtain ⟨back, isBack⟩ := MapOrder.exists_list ((List.Perm.swap first second rest).trans perm.symm)
  have equal := (same forth).trans (same back).symm
  obtain ⟨isIn, names⟩ := mem_named.mp inFirst
  obtain ⟨isIn', names'⟩ := mem_named.mp inSecond
  obtain ⟨value, read⟩ := Option.isSome_iff_exists.mp (legible first isIn).value
  obtain ⟨value', read'⟩ := Option.isSome_iff_exists.mp (legible second isIn').value
  simp only [said, named, isForth, isBack, List.filter_cons, names, names', decide_true, if_true,
    List.filterMap_cons, read, read', List.cons.injEq] at equal
  rw [read, read', equal.1]

/-- The server reads one label selector exactly if the query spells it plainly. -/
theorem said_labelSelector_iff (bytes : ∀ ch ∈ text, ch.toNat < 256)
    (legible : ∀ pair ∈ pairs, Legible pair) :
    (∃ value, said labelSelectorKey (order.list (entered pairs text)) = [value]) ↔
      ∀ pair ∈ named labelSelectorKey pairs, pair.1 = labelSelectorKey := by
  have own : (labelSelectorKey, queryEscape text) ∈
      named labelSelectorKey (order.list (entered pairs text)) :=
    mem_named.mpr ⟨(mem_entered).mpr (.inl rfl), queryUnescape_labelSelectorKey⟩
  have all : ∀ pair ∈ order.list (entered pairs text), Legible pair := clean_entered bytes legible
  have lengths := length_said all labelSelectorKey
  rw [← List.length_eq_one_iff, lengths, List.length_eq_one_iff]
  constructor
  · rintro ⟨only, single⟩ pair member
    obtain ⟨inside, names⟩ := mem_named.mp member
    by_contra different
    obtain ⟨value, found⟩ := exists_lookup_enter inside
    have second : (pair.1, value) ∈ named labelSelectorKey (order.list (entered pairs text)) :=
      mem_named.mpr ⟨(mem_entered).mpr (.inr ⟨different, found⟩), names⟩
    rw [single, List.mem_singleton] at own second
    exact different (congrArg Prod.fst (second.trans own.symm))
  · intro spelled
    refine ⟨(labelSelectorKey, queryEscape text), List.perm_singleton.mp ?_⟩
    rw [List.perm_ext_iff_of_nodup ((nodup_named order _ _).of_map) (List.nodup_singleton _)]
    refine fun pair => ⟨fun member => ?_, fun member => List.mem_singleton.mp member ▸ own⟩
    obtain ⟨listed, names⟩ := mem_named.mp member
    rcases mem_entered.mp listed with rfl | ⟨different, found⟩
    · exact List.mem_singleton_self _
    · exact absurd (spelled pair (mem_named.mpr ⟨mem_of_lookup_enter found, names⟩)) different

end Enumerated

/-- The texts of the requirement are bytes. -/
def OfBytes (r : Requirement) : Prop :=
  (∀ ch ∈ r.key.toList, ch.toNat < 256) ∧ ∀ value ∈ r.strValues, ∀ ch ∈ value.toList, ch.toNat < 256

/-- The texts of the selector are bytes. -/
def SelectorOfBytes (sel : LabelSelector) : Prop :=
  (∀ pin ∈ sel.pins, OfBytes ⟨pin.1, .equals, [pin.2]⟩) ∧
    ∀ e ∈ sel.matchExpressions, ∀ r, e.asRequirement = some r → OfBytes r

/-- What the last `labelSelector` of the query asks for. -/
def asked (sorter : Sorter) (pairs : List (List Char × List Char)) : List Requirement :=
  match (enter pairs).lookup labelSelectorKey with
  | none => []
  | some value => ((queryUnescape value).bind (parseToRequirements sorter)).getD []

/-- `ParseToLabelSelector` has no form for `!=`, `>` and `<`, and the selector of the shard has to
have known operators. -/
def Expressible (sorter : Sorter) (pairs : List (List Char × List Char)) (sel : LabelSelector) :
    Prop :=
  (∀ r ∈ asked sorter pairs, r.operator ≠ .notEquals ∧ r.operator ≠ .greaterThan ∧
    r.operator ≠ .lessThan) ∧
  ∀ e ∈ sel.matchExpressions, e.operator.asOperator ≠ none

section Injected

variable {sorter : Sorter} {req : HttpRequest} {sel : LabelSelector}
  {pairs : List (List Char × List Char)}

/-- The selector of the request, if it can be expressed. -/
theorem oldLabelSelector_enter (legible : ∀ pair ∈ pairs, Legible pair)
    (valid : ∀ value ∈ said labelSelectorKey pairs,
      (parseToRequirements sorter value).isSome = true) :
    ((∀ r ∈ asked sorter pairs, r.Convertible) ∧ ∃ old, oldLabelSelector sorter (enter pairs) =
      some old ∧ ∃ both, mergeLabelSelector (some sel) old = some both ∧
        Merged both (sel.pins ++ (asked sorter pairs).filterMap Requirement.pin?)
          (sel.matchExpressions ++ (asked sorter pairs).filterMap Requirement.expression?)) ∨
    ¬(∀ r ∈ asked sorter pairs, r.Convertible) ∧ oldLabelSelector sorter (enter pairs) = none := by
  unfold asked oldLabelSelector
  cases present : (enter pairs).lookup labelSelectorKey with
  | none => exact .inl ⟨by simp, none, rfl, sel, rfl, by simpa using Merged.self sel⟩
  | some value =>
    have member := mem_of_lookup_enter present
    obtain ⟨text, unescaped⟩ := Option.isSome_iff_exists.mp (legible _ member).value
    have isSaid : text ∈ said labelSelectorKey pairs :=
      List.mem_filterMap.mpr ⟨_, mem_named.mpr ⟨member, queryUnescape_labelSelectorKey⟩, unescaped⟩
    obtain ⟨reqs, parsed⟩ := Option.isSome_iff_exists.mp (valid text isSaid)
    simp only [unescaped, parsed, Option.bind_some, Option.getD_some]
    by_cases convertible : ∀ r ∈ reqs, r.Convertible
    · obtain ⟨oldSel, converted⟩ := (exists_parseToLabelSelector parsed).mpr convertible
      obtain ⟨both, result, all⟩ := (Merged.self sel).merge (merged_parse parsed converted).2
      exact .inl ⟨convertible, some oldSel, by simp [converted], both, result, all⟩
    · have fails : parseToLabelSelector sorter text = none := by
        by_contra some
        obtain ⟨oldSel, converted⟩ := Option.ne_none_iff_exists'.mp some
        exact convertible (merged_parse parsed converted).1
      exact .inr ⟨convertible, by simp [fails]⟩

variable {r : Requirement} {reqs : List Requirement} {both : LabelSelector}

theorem ofBytes_of_isValid (valid : r.isValid = true) : OfBytes r := by
  obtain ⟨named, -, valued⟩ := Requirement.isValid_iff.mp valid
  constructor
  · intro ch member
    have small := isLabelChar_lt ((isLabelChar_of_key named).2 ch member)
    omega
  · intro value member ch inside
    have small := isLabelChar_lt (isLabelChar_of_value (valued value member) ch inside)
    omega

theorem convertible_iff (proper : r.Proper) : r.Convertible ↔
    r.operator ≠ .notEquals ∧ r.operator ≠ .greaterThan ∧ r.operator ≠ .lessThan := by
  rw [Requirement.Convertible, and_iff_right proper]
  cases r.operator <;> simp

/-- The requirements of the merged selector hold bytes only. -/
theorem exists_asRequirements_merged (convertible : ∀ r ∈ reqs, r.Convertible)
    (bytes : SelectorOfBytes sel)
    (merged : Merged both (sel.pins ++ reqs.filterMap Requirement.pin?)
      (sel.matchExpressions ++ reqs.filterMap Requirement.expression?))
    (known : ∀ e ∈ sel.matchExpressions, e.operator.asOperator ≠ none) :
    ∃ reqs, both.asRequirements = some reqs ∧ ∀ r ∈ reqs, OfBytes r := by
  refine LabelSelector.exists_asRequirements.mpr ⟨?_, ?_⟩
  · simp only [LabelSelector.labelRequirements, List.forall_mem_map]
    intro entry member
    have last := (merged.lookup entry.1).symm.trans (AList.mem_lookup_iff.mpr member)
    rcases List.mem_append.mp (mem_of_lastValue last) with own | other
    · exact bytes.1 _ own
    · obtain ⟨r, inside, added⟩ := List.mem_filterMap.mp other
      have writable : WritablePin (entry.1, entry.2) := (convertible r inside).writablePin added
      unfold WritablePin at writable
      exact ofBytes_of_isValid writable
  · rw [merged.expressions]
    intro e member
    rcases List.mem_append.mp member with own | other
    · obtain ⟨op, isOp⟩ := Option.ne_none_iff_exists'.mp (known e own)
      have asked : e.asRequirement = some ⟨e.key, op, e.values⟩ := by
        rw [LabelSelectorRequirement.asRequirement, isOp]
        rfl
      exact ⟨_, asked, bytes.2 e own _ asked⟩
    · obtain ⟨r, inside, added⟩ := List.mem_filterMap.mp other
      obtain ⟨written, asked, valid, -⟩ := (convertible r inside).writableExpression added
      exact ⟨written, asked, ofBytes_of_isValid valid⟩

/-- The merged selector can be written, in bytes, if the operators of the shard's are known. -/
theorem validated_merged (convertible : ∀ r ∈ reqs, r.Convertible) (bytes : SelectorOfBytes sel)
    (merged : Merged both (sel.pins ++ reqs.filterMap Requirement.pin?)
      (sel.matchExpressions ++ reqs.filterMap Requirement.expression?)) :
    ((∀ e ∈ sel.matchExpressions, e.operator.asOperator ≠ none) ∧ ∃ selector,
      validatedLabelSelectorAsSelector sorter (some both) = some selector ∧
        ∀ ch ∈ selector.text, ch.toNat < 256) ∨
    ¬(∀ e ∈ sel.matchExpressions, e.operator.asOperator ≠ none) ∧
      validatedLabelSelectorAsSelector sorter (some both) = none := by
  by_cases known : ∀ e ∈ sel.matchExpressions, e.operator.asOperator ≠ none
  · refine .inl ⟨known, ?_⟩
    obtain ⟨reqs, found, ofBytes⟩ := exists_asRequirements_merged convertible bytes merged known
    obtain ⟨selector, converted⟩ := (@exists_validated sorter both).mpr ⟨reqs, found⟩
    refine ⟨selector, converted, ?_⟩
    obtain ⟨reqs', sorted, found', rfl, perm⟩ := validated_eq converted
    obtain rfl := Option.some.inj (found.symm.trans found')
    apply joinComma_below (by decide)
    simp only [List.forall_mem_map]
    intro r member
    have ofBytes := ofBytes r (perm.mem_iff.mp member)
    exact r.text_below (by decide) ofBytes.1 ofBytes.2
  · refine .inr ⟨known, ?_⟩
    by_contra some
    obtain ⟨reqs, found⟩ := exists_validated.mp (Option.ne_none_iff_exists'.mp some)
    have all := (LabelSelector.exists_asRequirements (P := fun _ => True)).mp ⟨reqs, found, by simp⟩
    refine known fun e member unknown => ?_
    obtain ⟨r, asked, -⟩ := all.2 e (merged.expressions ▸ List.mem_append_left _ member)
    simp [LabelSelectorRequirement.asRequirement, unknown] at asked

theorem proper_asked : ∀ r ∈ asked sorter pairs, r.Proper := by
  unfold asked
  split
  · simp
  · next value _ =>
    cases parsed : (queryUnescape value).bind (parseToRequirements sorter) with
    | none => simp
    | some reqs =>
      obtain ⟨text, -, read⟩ := Option.bind_eq_some_iff.mp parsed
      exact proper_of_parse read

/-- `injectSelector` fails if the selectors cannot be expressed, and adds one selector to the map
otherwise. -/
theorem injectSelector_spec (found : rawPairs req.rawQuery = some pairs)
    (legible : ∀ pair ∈ pairs, Legible pair) (bytes : SelectorOfBytes sel)
    (valid : ∀ value ∈ said labelSelectorKey pairs,
      (parseToRequirements sorter value).isSome = true) :
    (Expressible sorter pairs sel ∧ ∃ text, (∀ ch ∈ text, ch.toNat < 256) ∧
      ∀ order, injectSelector sorter order req sel = some
        ⟨writeQuery (order.list (entered pairs text)), req.oldRawQuery ++ [req.rawQuery]⟩) ∨
    ¬Expressible sorter pairs sel ∧ ∀ order, injectSelector sorter order req sel = none := by
  have expressible : Expressible sorter pairs sel ↔ (∀ r ∈ asked sorter pairs, r.Convertible) ∧
      ∀ e ∈ sel.matchExpressions, e.operator.asOperator ≠ none := by
    refine and_congr_left' (forall₂_congr fun r member => ?_)
    rw [convertible_iff (proper_asked r member)]
  unfold injectSelector
  rw [expressible, parseRawQuery_eq, found]
  simp only [Option.map_some, Option.bind_eq_bind, Option.bind_some]
  rcases oldLabelSelector_enter legible valid with
    ⟨convertible, old, isOld, both, isBoth, merged⟩ | ⟨inexpressible, fails⟩
  · rcases validated_merged convertible bytes merged with
      ⟨known, selector, written, small⟩ | ⟨unknown, fails⟩
    · refine .inl ⟨⟨convertible, known⟩, selector.text, small, fun order => ?_⟩
      rw [isOld, Option.bind_some, isBoth, written, Option.bind_some, marshalRawQuery_eq, entered]
    · refine .inr ⟨fun both => unknown both.2, fun order => ?_⟩
      rw [isOld, Option.bind_some, isBoth, fails]
      rfl
  · refine .inr ⟨fun both => inexpressible both.1, fun order => ?_⟩
    rw [fails]
    rfl

end Injected

/-- In every order of the map, `injectSelector` succeeds, and `url.ParseQuery` reads from the
forwarded query the values that the other keys had before, and one label selector. -/
def Preserves (sorter : Sorter) (req : HttpRequest) (sel : LabelSelector) : Prop :=
  ∀ order, ∃ forwarded, injectSelector sorter order req sel = some forwarded ∧
    (∀ key, key ≠ labelSelectorKey →
      values forwarded.rawQuery key = values req.rawQuery key) ∧
    ∃ value, values forwarded.rawQuery labelSelectorKey = [value]

/-- For a query that `url.ParseQuery` accepts, with valid label selectors: the rest of the query
comes through exactly if every part holds one `=`, the parts that name one key are spelled
differently and say the same, and the selectors can be expressed. -/
theorem injectSelector_preserves_iff (sorter : Sorter) (req : HttpRequest) (sel : LabelSelector)
    (bytes : SelectorOfBytes sel) (accepted : Accepts req.rawQuery)
    (valid : ∀ value ∈ values req.rawQuery labelSelectorKey,
      (parseToRequirements sorter value).isSome = true) :
    Preserves sorter req sel ↔ ∃ pairs, rawPairs req.rawQuery = some pairs ∧ Separate pairs ∧
      Expressible sorter pairs sel := by
  cases found : rawPairs req.rawQuery with
  | none =>
    refine iff_of_false (fun preserves => ?_) (by simp)
    obtain ⟨forwarded, injected, -⟩ := preserves .entries
    rw [injectSelector, parseRawQuery_eq, found] at injected
    cases injected
  | some pairs =>
    have legible := legible_of_accepts found accepted
    have before (key : List Char) : values req.rawQuery key = said key pairs := by
      rw [(rawPairs_spec found).1]
      exact values_writeQuery (fun pair member => (legible pair member).toClean)
    rw [before] at valid
    simp only [Option.some.injEq, exists_eq_left']
    rcases injectSelector_spec found legible bytes valid with
      ⟨expressible, text, small, injected⟩ | ⟨inexpressible, fails⟩
    · have after (order : MapOrder) (key : List Char) :
          values (writeQuery (order.list (entered pairs text))) key =
            said key (order.list (entered pairs text)) :=
        values_writeQuery (fun pair member => (clean_entered small legible pair member).toClean)
      rw [and_iff_left expressible]
      simp only [Preserves, injected, Option.some.injEq, exists_eq_left', after, before,
        said_labelSelector_iff small legible]
      constructor
      · intro preserves
        refine ⟨(preserves .entries).2, fun key other => ?_⟩
        exact (said_entered_iff small legible other).mp fun order => (preserves order).1 key other
      · intro separate order
        exact ⟨fun key other => said_entered other (separate.others key other), separate.spelled⟩
    · refine iff_of_false (fun preserves => ?_) fun both => inexpressible both.2
      obtain ⟨forwarded, injected, -⟩ := preserves .entries
      rw [fails] at injected
      cases injected

theorem shardSelector_ofBytes : SelectorOfBytes shardSelector := by
  refine ⟨fun pin inside => ?_, by simp [shardSelector]⟩
  obtain rfl : pin = ("shard", "a") := List.mem_singleton.mp inside
  exact ofBytes_of_isValid (by decide)

/-- A request with one further parameter. -/
theorem injectSelector_preserves_limit :
    Preserves .stable ⟨"limit=500".toList, []⟩ shardSelector := by
  refine (injectSelector_preserves_iff .stable ⟨"limit=500".toList, []⟩ shardSelector
    shardSelector_ofBytes (by unfold Accepts; decide) (by decide)).mpr
    ⟨[("limit".toList, "500".toList)], by decide, ⟨by decide, fun key _ => ?_⟩,
      by decide, by decide⟩
  exact (List.pairwise_singleton _ _).sublist List.filter_sublist

/-- `url.ParseQuery` reads `watch` as a key without a value, `injectSelector` refuses it. -/
theorem injectSelector_refuses_watch :
    ¬∀ (sorter : Sorter) (req : HttpRequest) (sel : LabelSelector), SelectorOfBytes sel →
      Accepts req.rawQuery → (∀ value ∈ values req.rawQuery labelSelectorKey,
        (parseToRequirements sorter value).isSome = true) → Preserves sorter req sel := by
  intro preserves
  obtain ⟨forwarded, injected, -⟩ := preserves .stable ⟨"watch&timeoutSeconds=30".toList, []⟩
    shardSelector shardSelector_ofBytes (by unfold Accepts; decide) (by decide) .entries
  have refused : injectSelector .stable .entries ⟨"watch&timeoutSeconds=30".toList, []⟩
      shardSelector = none := by decide
  rw [refused] at injected
  cases injected

end CtrlMesh.Proxy
