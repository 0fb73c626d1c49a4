import CtrlMesh.Lib.Assoc
import CtrlMesh.Proxy.Injector

/-!
# Shard isolation

The selector of a forwarded request asks for the shard's limits and for what the client asked, but
of several values for one key it keeps the last. So the shard is kept apart from the others exactly
when no key is pinned to two values, or the forwarded selector cannot be satisfied anyway. A request
may also give its selector several times, or spell the name of the parameter with escapes: the proxy
takes the last one under the plain name, the server the first one under any.
-/

namespace CtrlMesh.Proxy

open Labels Api Lib Lib.Query

variable {key value : List Char}

section RawQueries

variable {rawQuery : List Char} {raw : RawQuery}

theorem marshalRawQuery_eq (pairs : List (List Char × List Char)) :
    marshalRawQuery pairs = writeQuery pairs := by
  have later : ∀ (pairs : List (List Char × List Char)) (result : List Char), result ≠ [] →
      pairs.foldl (fun result pair => if result.length = 0 then result ++ writePart pair
        else result ++ '&' :: writePart pair) result =
      result ++ pairs.flatMap fun pair => '&' :: writePart pair := by
    intro pairs
    induction pairs with
    | nil => simp
    | cons pair pairs ih =>
      intro result some
      have long : result.length ≠ 0 := fun zero => some (List.length_eq_zero_iff.mp zero)
      rw [List.foldl_cons, if_neg long, ih _ (by simp [some])]
      simp
  have joined : ∀ (pair : List Char × List Char) (pairs : List (List Char × List Char)),
      writeQuery (pair :: pairs) =
        writePart pair ++ pairs.flatMap fun pair => '&' :: writePart pair := by
    intro pair pairs
    induction pairs generalizing pair with
    | nil => simp [writeQuery, List.intercalate]
    | cons second pairs ih =>
      have step : writeQuery (pair :: second :: pairs) =
          writePart pair ++ '&' :: writeQuery (second :: pairs) := by
        simp [writeQuery, List.intercalate]
      rw [step, ih second]
      simp
  cases pairs with
  | nil => rfl
  | cons pair pairs =>
    rw [joined, marshalRawQuery, List.foldl_cons]
    exact later pairs (writePart pair) (by simp [writePart])

/-- A pair of the map is a part of the query. -/
def Holds (rawQuery : List Char) (raw : RawQuery) : Prop :=
  ∀ key value, raw.lookup key = some value →
    '=' ∉ key ∧ writePart (key, value) ∈ rawQuery.splitOn '&'

theorem pair_of_splitOn {part : List Char} (split : part.splitOn '=' = [key, value]) :
    part = writePart (key, value) ∧ '=' ∉ key := by
  have joined : ['='].intercalate (part.splitOn '=') = part := List.intercalate_splitOn '='
  rw [split] at joined
  refine ⟨by simpa [List.intercalate, writePart] using joined.symm, ?_⟩
  exact notMem_of_mem_splitOn (split ▸ List.mem_cons_self)

theorem Holds.insert (holds : Holds rawQuery raw) (free : '=' ∉ key)
    (part : writePart (key, value) ∈ rawQuery.splitOn '&') :
    Holds rawQuery (raw.insert key value) :=
  forall_lookup_insert holds ⟨free, part⟩

/-- A loop over parts of the query that enters one pair at every step. -/
theorem holds_of_foldlM {step : RawQuery → List Char → Option RawQuery}
    (enters : ∀ result part next, step result part = some next →
      ∃ key value, part.splitOn '=' = [key, value] ∧ next = result.insert key value)
    {parts : List (List Char)} {start : RawQuery}
    (inside : ∀ part ∈ parts, part ∈ rawQuery.splitOn '&') (holds : Holds rawQuery start)
    (parsed : parts.foldlM step start = some raw) :
    Holds rawQuery raw ∧ (∀ key ∈ start, key ∈ raw) ∧
      ∀ part ∈ parts, ∃ value, part = writePart ((cutEquals part).1, value) ∧
        (cutEquals part).1 ∈ raw := by
  induction parts generalizing start with
  | nil =>
    cases parsed
    exact ⟨holds, fun _ member => member, by simp⟩
  | cons part parts ih =>
    obtain ⟨first, others⟩ := List.forall_mem_cons.mp inside
    rw [List.foldlM_cons] at parsed
    obtain ⟨next, stepped, rest⟩ := Option.bind_eq_some_iff.mp parsed
    obtain ⟨key, value, split, rfl⟩ := enters start part next stepped
    obtain ⟨same, free⟩ := pair_of_splitOn split
    have cut : cutEquals part = (key, value) := same ▸ cutEquals_writePart free value
    obtain ⟨holdsRaw, kept, all⟩ := ih others (holds.insert free (same ▸ first)) rest
    refine ⟨holdsRaw, fun other member =>
      kept other (AList.mem_insert _ |>.mpr (.inr member)),
      List.forall_mem_cons.mpr ⟨⟨value, ?_, ?_⟩, all⟩⟩
    · rw [cut]
      exact same
    · rw [cut]
      exact kept key (AList.mem_insert _ |>.mpr (.inl rfl))

/-- The map holds parts of the query only, and the name of every part. -/
theorem parseRawQuery_spec (parsed : parseRawQuery rawQuery = some raw) :
    Holds rawQuery raw ∧ ∀ part ∈ rawQuery.splitOn '&', part ≠ [] →
      ∃ value, part = writePart ((cutEquals part).1, value) ∧ (cutEquals part).1 ∈ raw := by
  unfold parseRawQuery at parsed
  split at parsed
  · next empty =>
    cases parsed
    subst empty
    refine ⟨by simp [Holds], fun part member some => ?_⟩
    rw [List.splitOn_nil, List.mem_singleton] at member
    exact absurd member some
  · obtain ⟨holds, -, all⟩ := holds_of_foldlM (by
      intro result part next stepped
      split at stepped
      · next key value split => exact ⟨key, value, split, (Option.some.inj stepped).symm⟩
      · cases stepped) (fun _ member => member) (by simp [Holds]) parsed
    exact ⟨holds, fun part member _ => all part member⟩

theorem readPart_eq {part : List Char} (reads : readPart part = some (key, value)) :
    part ≠ [] ∧ queryUnescape (cutEquals part).1 = some key ∧
      queryUnescape (cutEquals part).2 = some value := by
  unfold readPart at reads
  split at reads
  · cases reads
  · next whole =>
    obtain ⟨key', readKey, rest⟩ := Option.bind_eq_some_iff.mp reads
    obtain ⟨value', readValue, same⟩ := Option.bind_eq_some_iff.mp rest
    obtain ⟨rfl, rfl⟩ := Prod.mk.inj (Option.some.inj same)
    exact ⟨fun empty => whole (.inr empty), readKey, readValue⟩

theorem queryUnescape_labelSelectorKey :
    queryUnescape labelSelectorKey = some labelSelectorKey := by
  decide

/-- A part with a plain name is read as its name and its unescaped value. -/
theorem readPart_writePart {text : List Char} (semicolon : ';' ∉ value)
    (unescaped : queryUnescape value = some text) :
    readPart (writePart (labelSelectorKey, value)) = some (labelSelectorKey, text) := by
  have free : '=' ∉ labelSelectorKey ∧ ';' ∉ labelSelectorKey := by decide
  rw [readPart_writePart_eq free.1 ⟨free.2, semicolon⟩, queryUnescape_labelSelectorKey, unescaped]
  rfl

theorem MapOrder.mem_list (order : MapOrder) {pair : List Char × List Char} :
    pair ∈ order.list raw ↔ raw.lookup pair.1 = some pair.2 := by
  rw [(order.perm raw).mem_iff, List.mem_map]
  constructor
  · rintro ⟨entry, member, rfl⟩
    exact AList.mem_lookup_iff.mpr member
  · intro found
    exact ⟨⟨pair.1, pair.2⟩, AList.mem_lookup_iff.mp found, rfl⟩

/-- A parameter of the map with another spelling of its name that the server reads as
`labelSelector`. -/
def OtherSpelling (rawQuery text : List Char) : Prop :=
  ∃ raw ∈ parseRawQuery rawQuery, ∃ key value, raw.lookup key = some value ∧
    key ≠ labelSelectorKey ∧ readAs labelSelectorKey (writePart (key, value)) = some text

/-- The map is enumerated from a pair on. -/
def MapOrder.starting (pair : List Char × List Char) : MapOrder where
  list raw :=
    if pair ∈ MapOrder.entries.list raw then pair :: (MapOrder.entries.list raw).erase pair
    else MapOrder.entries.list raw
  perm raw := by
    split
    next member => exact (List.perm_cons_erase member).symm
    next => exact .refl _

section Forwarding

variable {text : List Char} (bytes : ∀ ch ∈ text, ch.toNat < 256)

include bytes

theorem readAs_injected :
    readAs labelSelectorKey (writePart (labelSelectorKey, queryEscape text)) = some text :=
  readAs_eq_some.mpr (readPart_writePart (notMem_queryEscape bytes (.inr (.inr rfl)))
    (queryUnescape_queryEscape bytes))

variable (parsed : parseRawQuery rawQuery = some raw)

include parsed

/-- The server reads the first of the forwarded pairs that names `labelSelector`. -/
theorem firstValue_forwarded {order : MapOrder} :
    firstValue (marshalRawQuery (order.list (raw.insert labelSelectorKey (queryEscape text))))
        labelSelectorKey =
      (order.list (raw.insert labelSelectorKey (queryEscape text))).findSome?
        fun pair => readAs labelSelectorKey (writePart pair) := by
  have spec := (parseRawQuery_spec parsed).1
  have own : (labelSelectorKey, queryEscape text) ∈
      order.list (raw.insert labelSelectorKey (queryEscape text)) :=
    order.mem_list.mpr (AList.lookup_insert _)
  rw [firstValue_eq, marshalRawQuery_eq, splitOn_writeQuery (List.ne_nil_of_mem own),
    List.findSome?_map]
  · rfl
  intro pair member
  rw [order.mem_list] at member
  rcases lookup_insert_eq_some.mp member with ⟨same, value⟩ | ⟨-, old⟩
  · have plain : '&' ∉ labelSelectorKey := by decide
    exact ⟨same ▸ plain, value ▸ notMem_queryEscape bytes (.inl rfl)⟩
  · have free := notMem_of_mem_splitOn (spec _ _ old).2
    simp only [writePart, List.mem_append, List.mem_cons, not_or] at free
    exact ⟨free.1, free.2.2⟩

/-- The server reads the injected selector, or a parameter with another spelling of the name. -/
theorem exists_firstValue {order : MapOrder} : ∃ value,
    firstValue (marshalRawQuery (order.list (raw.insert labelSelectorKey (queryEscape text))))
      labelSelectorKey = some value ∧ (value = text ∨ OtherSpelling rawQuery value) := by
  rw [firstValue_forwarded bytes parsed]
  have found : ((order.list (raw.insert labelSelectorKey (queryEscape text))).findSome?
      fun pair => readAs labelSelectorKey (writePart pair)).isSome = true :=
    List.findSome?_isSome_iff.mpr ⟨(labelSelectorKey, queryEscape text),
      order.mem_list.mpr (AList.lookup_insert _), by
        rw [readAs_injected bytes, Option.isSome_some]⟩
  obtain ⟨value, first⟩ := Option.isSome_iff_exists.mp found
  refine ⟨value, first, ?_⟩
  obtain ⟨⟨key, escaped⟩, member, read⟩ := List.exists_of_findSome?_eq_some first
  rw [order.mem_list] at member
  by_cases same : key = labelSelectorKey
  · subst same
    obtain rfl : queryEscape text = escaped := by simpa using member
    rw [readAs_injected bytes, Option.some.injEq] at read
    exact .inl read.symm
  · rw [AList.lookup_insert_ne same] at member
    exact .inr ⟨raw, parsed, key, escaped, member, same, read⟩

/-- Either can come first. -/
theorem exists_order (named : value = text ∨ OtherSpelling rawQuery value) :
    ∃ order : MapOrder,
      firstValue (marshalRawQuery (order.list (raw.insert labelSelectorKey (queryEscape text))))
        labelSelectorKey = some value := by
  have starts (pair : List Char × List Char)
      (inside : (raw.insert labelSelectorKey (queryEscape text)).lookup pair.1 = some pair.2)
      (read : readAs labelSelectorKey (writePart pair) = some value) :
      firstValue (marshalRawQuery ((MapOrder.starting pair).list
        (raw.insert labelSelectorKey (queryEscape text)))) labelSelectorKey = some value := by
    rw [firstValue_forwarded bytes parsed, MapOrder.starting]
    dsimp only
    rw [if_pos (MapOrder.entries.mem_list.mpr inside), List.findSome?_cons, read]
  rcases named with rfl | ⟨raw', parsed', key, escaped, found, different, read⟩
  · exact ⟨_, starts (_, _) (AList.lookup_insert _) (readAs_injected bytes)⟩
  · rw [Option.mem_def, parsed, Option.some.injEq] at parsed'
    subst parsed'
    exact ⟨_, starts (key, escaped) ((AList.lookup_insert_ne different).trans found) read⟩

end Forwarding

section Once

variable (once : SpelledOnce rawQuery) (parsed : parseRawQuery rawQuery = some raw)

include once parsed

/-- Without a `labelSelector` in the map the server reads none. -/
theorem firstValue_of_absent (absent : raw.lookup labelSelectorKey = none) :
    firstValue rawQuery labelSelectorKey = none := by
  apply firstValue_eq_none
  intro part member value reads
  obtain ⟨some, named, -⟩ := readPart_eq reads
  obtain ⟨-, -, inside⟩ := (parseRawQuery_spec parsed).2 part member some
  rw [(once.1 part member named).1] at inside
  exact AList.lookup_eq_none.mp absent inside

/-- The `labelSelector` of the map is the one the server reads. -/
theorem firstValue_of_present {text : List Char}
    (present : raw.lookup labelSelectorKey = some value)
    (unescaped : queryUnescape value = some text) :
    firstValue rawQuery labelSelectorKey = some text := by
  obtain ⟨free, member⟩ := (parseRawQuery_spec parsed).1 _ _ present
  have cut := cutEquals_writePart free value
  have semicolon : ';' ∉ value := by
    have part := (once.1 _ member (by rw [cut]; exact queryUnescape_labelSelectorKey)).2
    intro inside
    exact part (by simp [writePart, inside])
  have reads := readPart_writePart semicolon unescaped
  refine firstValue_eq_some member reads fun other inside value' read => ?_
  have named := (once.1 other inside (readPart_eq read).2.1).1
  have same := once.2 other inside _ member named (by rw [cut])
  rw [same, reads, Option.some.injEq] at read
  exact (Prod.mk.inj read).2.symm

/-- No other spelling is there. -/
theorem not_otherSpelling (text : List Char) : ¬OtherSpelling rawQuery text := by
  rintro ⟨raw', parsed', key, value, found, different, read⟩
  rw [Option.mem_def, parsed, Option.some.injEq] at parsed'
  subst parsed'
  obtain ⟨free, part⟩ := (parseRawQuery_spec parsed).1 _ _ found
  have named := (once.1 _ part (readPart_eq (readAs_eq_some.mp read)).2.1).1
  rw [cutEquals_writePart free] at named
  exact different named

end Once

end RawQueries

/-- The limits that concern a resource. -/
def limitsFor (cfg : ShardingConfig) (gr : GroupResource) : List ObjectLimiter :=
  (cfg.spec.limits.getD []).filter fun limit =>
    concerns (generateAPIResources limit.relatedResources) gr

/-- The limits that concern a resource admit the labels; a nil selector admits all. -/
def Admitted (cfg : ShardingConfig) (gr : GroupResource) (ls : LabelSet) : Prop :=
  ∀ limit ∈ limitsFor cfg gr, ∀ sel ∈ limit.selector, sel.matchesLabels ls = true

/-- The selectors of these limits. -/
def selectorsFor (cfg : ShardingConfig) (gr : GroupResource) : List LabelSelector :=
  (limitsFor cfg gr).map fun limit => limit.selector.getD {}

/-- What `dumpJSON` writes for a limit is no empty text, and `unmarshal` reads it back; a nil
selector is read as an empty one. -/
def JSONRoundTrip (enc : Encoder) (unmarshal : String → LabelSelector)
    (cfg : ShardingConfig) : Prop :=
  ∀ limit ∈ cfg.spec.limits.getD [], enc.dumpJSON limit.selector ≠ "" ∧
    unmarshal (enc.dumpJSON limit.selector) = limit.selector.getD {}

variable {ls : LabelSet} {reader : Sorter}

section Limits

variable {enc : Encoder} {unmarshal : String → LabelSelector}
  {cfg : ShardingConfig} {gr : GroupResource}

/-- The proxy merges the selectors of the limits that concern the resource. -/
theorem getObjectSelector_eq (json : JSONRoundTrip enc unmarshal cfg) :
    (convertProtoSpecToInternal unmarshal (generateProtoConfig enc cfg)).getObjectSelector gr =
      (selectorsFor cfg gr).foldl (fun acc sel => mergeLabelSelector acc (some sel)) none := by
  have same (limits : List ObjectLimiter)
      (json : ∀ limit ∈ limits, enc.dumpJSON limit.selector ≠ "" ∧
        unmarshal (enc.dumpJSON limit.selector) = limit.selector.getD {}) :
      selectorsOf unmarshal (limits.map fun limit =>
          ⟨enc.dumpJSON limit.selector, generateAPIResources limit.relatedResources⟩) gr =
        (limits.filter fun limit => concerns (generateAPIResources limit.relatedResources) gr).map
          fun limit => limit.selector.getD {} := by
    induction limits with
    | nil => rfl
    | cons limit limits ih =>
      have ⟨⟨written, read⟩, later⟩ := List.forall_mem_cons.mp json
      have rest := ih later
      by_cases here : concerns (generateAPIResources limit.relatedResources) gr = true
      · simpa [selectorsOf, written, read, here] using rest
      · simpa [selectorsOf, written, here] using rest
  rw [getObjectSelector_converted]
  exact congrArg mergeAll (same _ json)

theorem admitted_iff :
    Admitted cfg gr ls ↔ ∀ sel ∈ selectorsFor cfg gr, sel.matchesLabels ls = true := by
  simp only [Admitted, selectorsFor, List.forall_mem_map]
  refine forall₂_congr fun limit _ => ?_
  cases limit.selector with
  | none => simp [LabelSelector.matchesLabels]
  | some sel => simp

theorem selector_pinned_iff (sel : LabelSelector) : sel.matchesLabels ls = true ↔
    Pinned sel.pins ls ∧ ∀ e ∈ sel.matchExpressions, e.matchesLabels ls = true := by
  simp only [LabelSelector.matchesLabels, Pinned, LabelSelector.pins, List.forall_mem_map,
    Bool.and_eq_true, List.all_eq_true, beq_iff_eq]

theorem admitted_iff_pinned :
    Admitted cfg gr ls ↔ Pinned ((selectorsFor cfg gr).flatMap LabelSelector.pins) ls ∧
      ∀ e ∈ (selectorsFor cfg gr).flatMap LabelSelector.matchExpressions,
        e.matchesLabels ls = true := by
  rw [admitted_iff]
  simp only [selector_pinned_iff, Pinned, List.forall_mem_flatMap]
  exact ⟨fun all => ⟨fun sel member => (all sel member).1, fun sel member => (all sel member).2⟩,
    fun all sel member => ⟨all.1 sel member, all.2 sel member⟩⟩

end Limits

/-- The requirements of the `labelSelector` the proxy takes from the request: the last one under
this very name. -/
def takenRequirements (sorter : Sorter) (rawQuery : List Char) : List Requirement :=
  (do
    let raw ← parseRawQuery rawQuery
    let oldSelector ← raw.lookup labelSelectorKey
    let text ← queryUnescape oldSelector
    parseToRequirements sorter text).getD []

/-- The pairs the limits and the request pin, in the order they are merged. -/
def allPins (sorter : Sorter) (cfg : ShardingConfig) (gr : GroupResource) (rawQuery : List Char) :
    List Pin :=
  (selectorsFor cfg gr).flatMap LabelSelector.pins ++
    (takenRequirements sorter rawQuery).filterMap Requirement.pin?

/-- The further expressions of the limits and the request. -/
def allExpressions (sorter : Sorter) (cfg : ShardingConfig) (gr : GroupResource)
    (rawQuery : List Char) : List LabelSelectorRequirement :=
  (selectorsFor cfg gr).flatMap LabelSelector.matchExpressions ++
    (takenRequirements sorter rawQuery).filterMap Requirement.expression?

/-- The labels have the last value of each pinned key and satisfy the further expressions. -/
def MergedMatches (sorter : Sorter) (cfg : ShardingConfig) (gr : GroupResource)
    (rawQuery : List Char) (ls : LabelSet) : Prop :=
  LastPinned (allPins sorter cfg gr rawQuery) ls ∧
    ∀ e ∈ allExpressions sorter cfg gr rawQuery, e.matchesLabels ls = true

/-- The text of a selector matches the labels. -/
def TextMatches (reader : Sorter) (text : List Char) (ls : LabelSet) : Prop :=
  ∃ reqs, parseToRequirements reader text = some reqs ∧ ∀ r ∈ reqs, r.matchesLabels ls = true

/-- The request and the limits on the resource both match the labels. -/
def InShard (reader : Sorter) (cfg : ShardingConfig) (gr : GroupResource) (rawQuery : List Char)
    (ls : LabelSet) : Prop :=
  QueryMatches reader rawQuery ls ∧ Admitted cfg gr ls

/-- No limit concerns the resource; or the request has one `labelSelector` under this very name at
most, and the limits and the request pin no key to two values, or no labels have the last value of
each pinned key and satisfy the further expressions; or it has several, and both what is merged and
every other one that the server reads match what the first one and the limits match. -/
def Unambiguous (sorter reader : Sorter) (cfg : ShardingConfig) (gr : GroupResource)
    (rawQuery : List Char) : Prop :=
  limitsFor cfg gr = [] ∨
    SpelledOnce rawQuery ∧ (ConflictFree (allPins sorter cfg gr rawQuery) ∨
      ¬∃ ls, MergedMatches sorter cfg gr rawQuery ls) ∨
    ¬SpelledOnce rawQuery ∧
      (∀ ls, MergedMatches sorter cfg gr rawQuery ls ↔ InShard reader cfg gr rawQuery ls) ∧
      ∀ text, OtherSpelling rawQuery text →
        ∀ ls, TextMatches reader text ls ↔ InShard reader cfg gr rawQuery ls

section Forwarded

variable {sorter : Sorter} {order : MapOrder} {cfg : ShardingConfig} {gr : GroupResource}
  {req forwarded : HttpRequest} {sel : LabelSelector} {pins : List Pin}
  {exprs : List LabelSelectorRequirement}

/-- Two sorters read the same requirements. -/
theorem queryMatches_sorter (rawQuery : List Char) :
    QueryMatches sorter rawQuery ls ↔ QueryMatches reader rawQuery ls := by
  unfold QueryMatches readSelector
  cases firstValue rawQuery labelSelectorKey with
  | none => exact .rfl
  | some text =>
    simp only [parseToRequirements]
    cases parseItems _ _ with
    | none => simp
    | some reqs => simp [(sorter.perm reqs).mem_iff, (reader.perm reqs).mem_iff]

variable {rawQuery : List Char} {raw : RawQuery} {old : Option LabelSelector}

theorem queryMatches_own {reqs : List Requirement}
    (read : readSelector sorter rawQuery = some reqs) :
    QueryMatches sorter rawQuery ls ↔ ∀ r ∈ reqs, r.matchesLabels ls = true := by
  simp [QueryMatches, read]

theorem queryMatches_of_first {text : List Char}
    (first : firstValue rawQuery labelSelectorKey = some text) :
    QueryMatches reader rawQuery ls ↔ TextMatches reader text ls := by
  simp [QueryMatches, TextMatches, readSelector, first]

/-- What the proxy takes from the request, and the merge of it into the selector of the limits. -/
theorem merge_taken (merged : Merged sel pins exprs)
    (parsed : parseRawQuery req.rawQuery = some raw)
    (read : oldLabelSelector sorter raw = some old) :
    (SpelledOnce req.rawQuery →
      readSelector sorter req.rawQuery = some (takenRequirements sorter req.rawQuery)) ∧
    (∀ r ∈ takenRequirements sorter req.rawQuery, r.Convertible) ∧
    ∃ both, mergeLabelSelector (some sel) old = some both ∧
      Merged both (pins ++ (takenRequirements sorter req.rawQuery).filterMap Requirement.pin?)
        (exprs ++ (takenRequirements sorter req.rawQuery).filterMap Requirement.expression?) := by
  unfold oldLabelSelector at read
  split at read
  · next absent =>
    cases read
    have none : takenRequirements sorter req.rawQuery = [] := by
      simp [takenRequirements, parsed, absent]
    rw [none]
    refine ⟨fun once => ?_, nofun, sel, rfl, by simpa using merged⟩
    simp [readSelector, firstValue_of_absent once parsed absent]
  · next value present =>
    obtain ⟨text, unescaped, rest⟩ := Option.bind_eq_some_iff.mp read
    obtain ⟨oldSel, converted, same⟩ := Option.bind_eq_some_iff.mp rest
    cases same
    obtain ⟨reqs, list, -⟩ := Option.bind_eq_some_iff.mp converted
    have taken : takenRequirements sorter req.rawQuery = reqs := by
      simp [takenRequirements, parsed, present, unescaped, list]
    obtain ⟨convertible, mergedOld⟩ := merged_parse list converted
    rw [taken]
    refine ⟨fun once => ?_, convertible, merged.merge mergedOld⟩
    simp [readSelector, firstValue_of_present once parsed present unescaped, list]

/-- The injected selector asks for the last value of each pinned key and the expressions of all. -/
theorem textMatches_injected (merged : Merged sel pins exprs)
    (pinned : ∀ pin ∈ pins, WritablePin pin) (written : ∀ e ∈ exprs, WritableExpression e)
    (parsed : parseRawQuery req.rawQuery = some raw) (read : oldLabelSelector sorter raw = some old)
    {selector : Selector}
    (converted : validatedLabelSelectorAsSelector sorter (mergeLabelSelector (some sel) old) =
      some selector) :
    (∀ ch ∈ selector.text, ch.toNat < 256) ∧ ∀ ls, TextMatches reader selector.text ls ↔
      LastPinned (pins ++ (takenRequirements sorter req.rawQuery).filterMap Requirement.pin?) ls ∧
      ∀ e ∈ exprs ++ (takenRequirements sorter req.rawQuery).filterMap Requirement.expression?,
        e.matchesLabels ls = true := by
  obtain ⟨-, convertible, both, result, all⟩ := merge_taken merged parsed read
  rw [result] at converted
  have writable : both.Writable := by
    apply all.writable
    · refine List.forall_mem_append.mpr ⟨pinned, fun pin member => ?_⟩
      obtain ⟨r, inside, added⟩ := List.mem_filterMap.mp member
      exact (convertible r inside).writablePin added
    · refine List.forall_mem_append.mpr ⟨written, fun e member => ?_⟩
      obtain ⟨r, inside, added⟩ := List.mem_filterMap.mp member
      exact (convertible r inside).writableExpression added
  obtain ⟨ascii, back, reads, matching⟩ := parse_converted reader writable converted
  refine ⟨fun ch member => ?_, fun ls => ?_⟩
  · have small := ascii ch member
    omega
  · rw [← all.matches_iff ls, ← matching ls]
    simp [TextMatches, reads]

end Forwarded

/-- With one `labelSelector` under this very name at most, what is merged matches what the request
and the limits match if and only if no key is pinned to two values or nothing matches. -/
theorem mergedMatches_iff_of_once {sorter : Sorter} {cfg : ShardingConfig} {gr : GroupResource}
    {rawQuery : List Char}
    (own : readSelector sorter rawQuery = some (takenRequirements sorter rawQuery))
    (convertible : ∀ r ∈ takenRequirements sorter rawQuery, r.Convertible) :
    (∀ ls, MergedMatches sorter cfg gr rawQuery ls ↔ InShard reader cfg gr rawQuery ls) ↔
      ConflictFree (allPins sorter cfg gr rawQuery) ∨
        ¬∃ ls, MergedMatches sorter cfg gr rawQuery ls := by
  unfold MergedMatches InShard
  rw [← lastPinned_iff_pinned]
  refine forall_congr' fun ls => ?_
  rw [queryMatches_sorter, queryMatches_own own,
    requirements_iff_pinned convertible, admitted_iff_pinned, allPins, allExpressions,
    pinned_append, List.forall_mem_append]
  -- the pins stand together on one side, each with its expressions on the other
  have regroup : ∀ a b c d : Prop, (a ∧ b) ∧ c ∧ d ↔ (c ∧ a) ∧ d ∧ b := by
    intro a b c d
    rw [and_and_and_comm, and_comm (a := a), and_comm (a := b)]
  rw [regroup]

/-- The selector of shard `a`, and the two directions of its JSON. -/
def shardSelector : LabelSelector := { matchLabels := AList.insert "shard" "a" ∅ }

/-- Dumps that selector, and one hash. -/
def shardEncoder : Encoder where
  dumpJSON
    | none => "null"
    | some _ => "\x7b\"matchLabels\":\x7b\"shard\":\"a\"\x7d\x7d"
  hash _ := "hash"

/-- Reads that dump back. -/
def shardUnmarshal (text : String) : LabelSelector := if text = "null" then {} else shardSelector

/-- One limit on all resources. -/
def shardConfig : ShardingConfig where
  metadata := { name := "shard-a", namespace_ := "default" }
  spec := ⟨none, none, none, some [⟨[], some shardSelector⟩], none⟩
  child := []

/-- The configuration, as the proxy reads it. -/
abbrev shardInternal := convertProtoSpecToInternal shardUnmarshal
  (generateProtoConfig shardEncoder shardConfig)

/-- A list of pods. -/
def podList : RequestInfo := ⟨true, "list", "", "pods"⟩

/-- The raw query `labelSelector=app%3Dx`. -/
def ownQuery : HttpRequest := ⟨"labelSelector=app%3Dx".toList, []⟩

/-- The raw query `labelSelector=shard%3Db`. -/
def foreignQuery : HttpRequest := ⟨"labelSelector=shard%3Db".toList, []⟩

theorem shardConfig_json : JSONRoundTrip shardEncoder shardUnmarshal shardConfig := by
  intro limit member
  obtain rfl := List.mem_singleton.mp member
  exact ⟨by decide, rfl⟩

theorem shardConfig_valid :
    ∀ limit ∈ shardConfig.spec.limits.getD [], (limit.selector.getD {}).Writable := by
  intro limit member
  obtain rfl := List.mem_singleton.mp member
  refine ⟨fun pin inside => ?_, nofun⟩
  obtain rfl : pin = ("shard", "a") := List.mem_singleton.mp inside
  exact (by decide : (Requirement.mk "shard" .equals ["a"]).isValid = true)

end CtrlMesh.Proxy
