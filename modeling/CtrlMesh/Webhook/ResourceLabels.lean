import CtrlMesh.Lib.JsonPatch
import CtrlMesh.Sharding.NamespaceLabels

/-!
# The labels of an object that is created or updated

The webhook for resources (`pkg/webhook/resources`) copies the labels of a namespace under the
control of the mesh to the objects in it: the patch it answers with is the difference of the object
and some metadata with these labels, without what the difference would remove.
-/

namespace CtrlMesh.Webhook.Resources

open Labels Sharding Lib.JsonPatch

/-- A text, or the raw form of a number, a boolean or an array. -/
inductive Leaf where
  | string (text : String)
  | other (raw : String)
  deriving DecidableEq

/-- The operation of a request. -/
inductive Verb where
  | create
  | update
  | delete
  | connect
  deriving DecidableEq

/-- `admission.Request`; the object is missing if its raw form is no JSON. -/
structure Request where
  operation : Verb
  ns : String
  kind : String
  object : Option (Doc Leaf)

/-- An error of a read. -/
structure ReadError where
  notFound : Bool
  text : String

/-- The labels of the namespace as the cache gives them at each try and, where there is a client
for it, the API server. -/
structure Reads where
  cache : Nat → Except ReadError (Option LabelSet)
  direct : Option (Except ReadError (Option LabelSet))

/-- `getNamespaceWithRetry` from try `i` on, with so many tries left after it. -/
def getNamespaceWithRetry (cache : Nat → Except ReadError (Option LabelSet)) (i : Nat) :
    Nat → Except ReadError (Option LabelSet)
  | 0 => cache i
  | left + 1 =>
    match cache i with
    | .ok labels => .ok labels
    | .error _ => getNamespaceWithRetry cache (i + 1) left

/-- The labels of the namespace, as they are read. -/
def getNamespace (reads : Reads) : Except ReadError (Option LabelSet) :=
  match getNamespaceWithRetry reads.cache 0 4, reads.direct with
  | .error ⟨true, _⟩, some direct => direct
  | labels, _ => labels

/-- `admission.Response`. -/
inductive Response where
  | allowed
  | errored (code : Nat) (text : String)
  | patched (patches : List (Operation Leaf))

/-- `filterOperation`. -/
def filterOperation (operation : List (Operation Leaf)) : List (Operation Leaf) :=
  operation.filter (·.sets)

/-- The end of `Handle`, with `patchResponseFromOperation`. -/
def respond : List (Operation Leaf) → Response
  | [] => .allowed
  | patches => .patched patches

/-- The fields of the labels. -/
def labelFields (labels : List (Sigma fun _ : String => String)) : Fields Leaf :=
  labels.map fun label => (label.1, .scalar (.string label.2))

/-- `PatchMeta` after `json.Marshal` and `json.Unmarshal`: the loops go over its maps in any
order. -/
inductive Marshals (labels : LabelSet) : Doc Leaf → Prop where
  | intro {texts : List (Sigma fun _ : String => String)} {metadata : Fields Leaf}
      (listed : texts.Perm labels.entries)
      (order : metadata.Perm [("labels", .object (labelFields texts)),
        ("creationTimestamp", .null)]) :
      Marshals labels (.object [("metadata", .object metadata)])

/-- `MutatingHandler`, with the label keys and an order for the maps it marshals. -/
structure MutatingHandler where
  flags : LabelFlags
  filled : ∀ key ∈ shouldSyncLabels flags, key ≠ ""
  marshal : LabelSet → Doc Leaf
  marshals : ∀ labels, Marshals labels (marshal labels)

/-- `Handle`. -/
def handle (r : MutatingHandler) (reads : Reads) (req : Request) : Response :=
  if req.operation ≠ .create ∧ req.operation ≠ .update then .allowed
  else if req.ns = "" then .allowed
  -- `HandleShardingConfig`
  else if req.kind = "ShardingConfig" then .allowed
  else match getNamespace reads with
    | .error error => .errored 400 error.text
    | .ok labels =>
      let patchLabel := getSyncLabels r.flags labels
      if patchLabel.entries = [] then .allowed
      else match req.object with
        | none => .errored 500 "invalid JSON Document"
        | some object => respond (filterOperation (createPatch object (r.marshal patchLabel)))

/-- The object that the API server goes on with. -/
def Response.applied (object : Doc Leaf) : Response → Option (Doc Leaf)
  | .allowed => some object
  | .errored _ _ => none
  | .patched patches => apply patches object

/-- A request about an object with metadata that the webhook looks at. -/
structure Sent (req : Request) (fields metadata : Fields Leaf) : Prop where
  changes : req.operation = .create ∨ req.operation = .update
  inside : req.ns ≠ ""
  kind : req.kind ≠ "ShardingConfig"
  object : req.object = some (.object fields)
  metadata : fields.lookup "metadata" = some (.object metadata)

/-- A label in the metadata. -/
def labelIn (metadata : Fields Leaf) (key : String) : Option (Doc Leaf) :=
  match metadata.lookup "labels" with
  | some (.object labels) => labels.lookup key
  | _ => none

/-- The object has these labels, over its own, and is the same in everything else. -/
structure Relabelled (patchLabel : LabelSet) (fields metadata fields' metadata' : Fields Leaf) :
    Prop where
  held : fields'.lookup "metadata" = some (.object metadata')
  rest : ∀ key, key ≠ "metadata" → fields'.lookup key = fields.lookup key
  others : ∀ key, key ≠ "labels" → metadata'.lookup key = metadata.lookup key
  labels : ∀ key, labelIn metadata' key =
    ((patchLabel.lookup key).map fun text => .scalar (.string text)).or (labelIn metadata key)

variable {r : MutatingHandler} {reads : Reads} {req : Request} {fields metadata : Fields Leaf}
  {labels : Option LabelSet} {key : String} {doc : Doc Leaf} {patchLabel : LabelSet}

theorem mem_foldl {add : LabelSet → String → LabelSet}
    (each : ∀ res first, key ∈ add res first → key ∈ res ∨ key = first) (keys : List String)
    (res : LabelSet) (member : key ∈ keys.foldl add res) : key ∈ res ∨ key ∈ keys := by
  induction keys generalizing res with
  | nil => exact .inl member
  | cons first keys ih =>
    rcases ih _ member with early | late
    · rcases each res first early with before | rfl
      · exact .inl before
      · exact .inr List.mem_cons_self
    · exact .inr (List.mem_cons_of_mem _ late)

theorem mem_of_mem_getSyncLabels {flags : LabelFlags} (member : key ∈ getSyncLabels flags labels) :
    key ∈ shouldSyncLabels flags := by
  unfold getSyncLabels at member
  split at member
  · exact absurd member (AList.notMem_empty key)
  · refine (mem_foldl ?_ _ _ member).resolve_left (AList.notMem_empty key)
    intro res first member
    split at member
    · exact .inl member
    · exact ((AList.mem_insert _).mp member).symm

theorem lookup_labelFields (texts : List (Sigma fun _ : String => String)) (key : String) :
    (labelFields texts).lookup key =
      (texts.dlookup key).map fun text => .scalar (.string text) := by
  induction texts with
  | nil => rfl
  | cons label texts ih =>
    obtain ⟨first, text⟩ := label
    change List.lookup key ((first, _) :: labelFields texts) = _
    rw [lookup_cons_ite]
    by_cases here : key = first
    · subst here
      rw [if_pos rfl, List.dlookup_cons_eq]
      rfl
    · rw [if_neg here, List.dlookup_cons_ne _ _ here, ih]

section Marshalled

variable {texts : List (Sigma fun _ : String => String)} {labels : LabelSet} {written : Fields Leaf}
  (listed : texts.Perm labels.entries)
  (order : written.Perm [("labels", .object (labelFields texts)), ("creationTimestamp", .null)])

include listed in
theorem distinct_labelFields : ((labelFields texts).map Prod.fst).Nodup := by
  have keys : (labelFields texts).map Prod.fst = texts.map Sigma.fst := by simp [labelFields]
  rw [keys]
  exact (listed.map Sigma.fst).nodup_iff.mpr labels.nodupKeys

include order in
theorem distinct_written : (written.map Prod.fst).Nodup := by
  rw [(order.map Prod.fst).nodup_iff]
  simp

include listed order in
theorem named_written (filled : ∀ key ∈ labels, key ≠ "") : (Doc.object written).Named := by
  have inner : (Doc.object (labelFields texts)).Named := by
    refine .object (distinct_labelFields listed) (fun field member => ?_) fun field member => ?_
    · obtain ⟨label, inside, rfl⟩ := List.mem_map.mp member
      exact filled label.1 (List.mem_map_of_mem (listed.mem_iff.mp inside))
    · obtain ⟨label, -, rfl⟩ := List.mem_map.mp member
      exact .scalar _
  refine .object (distinct_written order) (fun field member => ?_) fun field member => ?_
  · rcases List.mem_pair.mp (order.mem_iff.mp member) with rfl | rfl <;> simp
  · rcases List.mem_pair.mp (order.mem_iff.mp member) with rfl | rfl
    · exact inner
    · exact .null

include listed order in
/-- The labels are laid over those of the object, and nothing else of its metadata changes. -/
theorem overlayFields_written :
    (∀ key, key ≠ "labels" →
      (overlayFields metadata written).lookup key = metadata.lookup key) ∧
    ∀ key, labelIn (overlayFields metadata written) key =
      ((labels.lookup key).map fun text => .scalar (.string text)).or (labelIn metadata key) := by
  have distinct := distinct_written order
  constructor
  · intro key other
    rw [lookup_overlayFields distinct]
    by_cases time : key = "creationTimestamp"
    · have null : written.lookup key = some .null := by
        rw [time]
        exact lookup_of_mem distinct (order.mem_iff.mpr (List.mem_pair.mpr (.inr rfl)))
      rw [null]
      cases metadata.lookup key <;> rfl
    · have absent : written.lookup key = none := by
        apply lookup_eq_none_of_notMem
        rw [(order.map Prod.fst).mem_iff]
        simp [other, time]
      rw [absent]
  · intro key
    have set : written.lookup "labels" = some (.object (labelFields texts)) :=
      lookup_of_mem distinct (order.mem_iff.mpr (List.mem_pair.mpr (.inl rfl)))
    have same : texts.dlookup key = labels.lookup key :=
      List.perm_dlookup key ((List.perm_nodupKeys listed).mpr labels.nodupKeys) listed
    have new := lookup_labelFields texts key
    rw [same] at new
    rw [labelIn, lookup_overlayFields distinct, set, labelIn]
    cases found : metadata.lookup "labels" with
    | none => simp [Doc.isNull, new]
    | some old =>
      cases old with
      | null => simp [overlay, new]
      | scalar value => simp [overlay, new]
      | object old =>
        simp only [overlay]
        rw [lookup_overlayFields (distinct_labelFields listed), new]
        cases labels.lookup key with
        | none => rfl
        | some text => cases old.lookup key <;> rfl

end Marshalled

theorem Marshals.named {labels : LabelSet} (marshals : Marshals labels doc)
    (filled : ∀ key ∈ labels, key ≠ "") : doc.Named := by
  obtain ⟨listed, order⟩ := marshals
  have inner := named_written listed order filled
  exact .object (List.nodup_singleton _) (by simp) (by simpa using inner)

theorem MutatingHandler.named (r : MutatingHandler) (labels : Option LabelSet) :
    (r.marshal (getSyncLabels r.flags labels)).Named :=
  (r.marshals _).named fun key member => r.filled key (mem_of_mem_getSyncLabels member)

theorem handle_eq (sent : Sent req fields metadata) (read : getNamespace reads = .ok labels)
    (object : Doc Leaf) : handle r reads { req with object := object } =
      if (getSyncLabels r.flags labels).entries = [] then .allowed
      else respond (filterOperation (createPatch object
        (r.marshal (getSyncLabels r.flags labels)))) := by
  have looked : ¬(req.operation ≠ .create ∧ req.operation ≠ .update) :=
    fun neither => sent.changes.elim neither.1 neither.2
  unfold handle
  rw [if_neg looked, if_neg sent.inside, if_neg sent.kind, read]

/-- The object goes on with the marshalled metadata laid over it. -/
theorem applied_handle (sent : Sent req fields metadata) (read : getNamespace reads = .ok labels) :
    (handle r reads req).applied (.object fields) =
      some (if (getSyncLabels r.flags labels).entries = [] then .object fields
        else overlay (.object fields) (r.marshal (getSyncLabels r.flags labels))) := by
  have same : { req with object := some (.object fields) } = req := by rw [← sent.object]
  rw [← same, handle_eq sent read]
  split
  · rfl
  · rw [← apply_createPatch (r.named labels), ← filterOperation]
    cases filterOperation (createPatch (.object fields)
      (r.marshal (getSyncLabels r.flags labels))) with
    | nil => rfl
    | cons first rest => rfl

theorem relabelled_overlay (marshals : Marshals patchLabel doc)
    (held : fields.lookup "metadata" = some (.object metadata)) :
    ∃ fields' metadata', overlay (.object fields) doc = .object fields' ∧
      Relabelled patchLabel fields metadata fields' metadata' := by
  obtain @⟨texts, written, listed, order⟩ := marshals
  have alone : (List.map Prod.fst [("metadata", Doc.object written)]).Nodup :=
    List.nodup_singleton _
  obtain ⟨others, own⟩ := overlayFields_written listed order
  refine ⟨_, _, rfl, ?_, fun key other => ?_, others, own⟩
  · rw [lookup_overlayFields alone, held]
    rfl
  · rw [lookup_overlayFields alone, lookup_cons_ite, if_neg other]
    rfl

/-- Every object that is created or updated gets the labels that its namespace hands on. -/
theorem handle_labels (sent : Sent req fields metadata) (read : getNamespace reads = .ok labels) :
    ∃ fields' metadata', (handle r reads req).applied (.object fields) = some (.object fields') ∧
      Relabelled (getSyncLabels r.flags labels) fields metadata fields' metadata' := by
  rw [applied_handle sent read]
  split
  · next none =>
    refine ⟨fields, metadata, rfl, sent.metadata, fun _ _ => rfl, fun _ _ => rfl, fun key => ?_⟩
    rw [AList.lookup, none]
    rfl
  · obtain ⟨fields', metadata', laid, relabelled⟩ :=
      relabelled_overlay (r.marshals (getSyncLabels r.flags labels)) sent.metadata
    exact ⟨fields', metadata', congrArg some laid, relabelled⟩

/-- The default label keys, and maps in their order. -/
def handler : MutatingHandler where
  flags := {}
  filled := by decide
  marshal labels := .object [("metadata", .object [("labels", .object (labelFields labels.entries)),
    ("creationTimestamp", .null)])]
  marshals _ := ⟨.refl _, .refl _⟩

/-- The metadata of a ConfigMap with a label of its own. -/
def ownMetadata : Fields Leaf :=
  [("name", .scalar (.string "settings")), ("labels", .object [("app", .scalar (.string "shop"))])]

/-- The ConfigMap is created. -/
def request : Request := ⟨.create, "other", "ConfigMap",
  some (.object [("kind", .scalar (.string "ConfigMap")), ("metadata", .object ownMetadata)])⟩

theorem sent_request : Sent request
    [("kind", .scalar (.string "ConfigMap")), ("metadata", .object ownMetadata)] ownMetadata :=
  ⟨.inl rfl, by decide, by decide, rfl, rfl⟩

/-- The labels of the namespace are in the cache. -/
def cached : Reads := ⟨fun _ => .ok (some renamedLabels), none⟩

/-- The ConfigMap gets the label of its namespace and keeps its own. -/
theorem handle_labels_request : ∃ fields metadata,
    (handle handler cached request).applied
      (.object [("kind", .scalar (.string "ConfigMap")), ("metadata", .object ownMetadata)]) =
        some (.object fields) ∧
    fields.lookup "metadata" = some (.object metadata) ∧
    labelIn metadata "ctrlmesh.kusionstack.io/namespace" = some (.scalar (.string "other")) ∧
    labelIn metadata "app" = some (.scalar (.string "shop")) := by
  obtain ⟨fields, metadata, applied, relabelled⟩ :=
    handle_labels (r := handler) sent_request (show getNamespace cached = _ from rfl)
  exact ⟨_, metadata, applied, relabelled.held, relabelled.labels _, relabelled.labels _⟩

/-- No operation is left for an object that has the labels, in whatever order the loops go. -/
theorem Relabelled.settled {fields' metadata' : Fields Leaf}
    (relabelled : Relabelled patchLabel fields metadata fields' metadata')
    (filled : patchLabel.entries ≠ []) (marshals : Marshals patchLabel doc) :
    filterOperation (createPatch (.object fields') doc) = [] := by
  obtain @⟨texts, written, listed, order⟩ := marshals
  have held : ∀ label ∈ texts, labelIn metadata' label.1 = some (.scalar (.string label.2)) := by
    intro label member
    have found : patchLabel.lookup label.1 = some label.2 :=
      AList.mem_lookup_iff.mpr (listed.mem_iff.mp member)
    rw [relabelled.labels, found]
    rfl
  rw [filterOperation, createPatch, filter_handleValues_object]
  apply filter_diffFields
  rw [List.forall_mem_singleton]
  refine .inr ⟨_, relabelled.held, ?_⟩
  rw [filter_handleValues_object]
  apply filter_diffFields
  intro field member
  rcases List.mem_pair.mp (order.mem_iff.mp member) with rfl | rfl
  · obtain ⟨first, inside⟩ := List.exists_mem_of_ne_nil _ filled
    have own := held first (listed.mem_iff.mpr inside)
    unfold labelIn at held own
    split at own
    · next old found =>
      refine .inr ⟨_, found, ?_⟩
      rw [filter_handleValues_object]
      apply filter_diffFields
      intro field member
      obtain ⟨label, inside, rfl⟩ := List.mem_map.mp member
      have same := held label inside
      rw [found] at same
      exact .inr ⟨_, same, by simp [handleValues]⟩
    · cases own
  · cases metadata'.lookup "creationTimestamp" with
    | none => exact .inl ⟨rfl, rfl⟩
    | some av =>
      refine .inr ⟨av, rfl, ?_⟩
      cases av <;> simp [handleValues, Operation.sets, Doc.isNull]

/-- The webhook has nothing more to set in the object that it leaves, whoever asks it again. -/
theorem handle_settles {r' : MutatingHandler} (flags : r'.flags = r.flags) {reads' : Reads}
    (sent : Sent req fields metadata) (read : getNamespace reads = .ok labels)
    (again : getNamespace reads' = .ok labels) {object : Doc Leaf}
    (left : (handle r reads req).applied (.object fields) = some object) :
    handle r' reads' { req with object := object } = .allowed := by
  rw [applied_handle sent read, Option.some.injEq] at left
  rw [handle_eq sent again, flags]
  split
  · rfl
  · next filled =>
    rw [if_neg filled] at left
    obtain ⟨fields', metadata', laid, relabelled⟩ :=
      relabelled_overlay (r.marshals (getSyncLabels r.flags labels)) sent.metadata
    rw [← left, laid, relabelled.settled filled (r'.marshals _)]
    rfl

/-- Nothing is set in the labelled ConfigMap. -/
theorem handle_settles_request : ∃ object,
    (handle handler cached request).applied
      (.object [("kind", .scalar (.string "ConfigMap")), ("metadata", .object ownMetadata)]) =
        some object ∧
    handle handler cached { request with object := some object } = .allowed :=
  ⟨_, rfl, handle_settles (r := handler) rfl sent_request (show getNamespace cached = _ from rfl)
    rfl rfl⟩

end CtrlMesh.Webhook.Resources
