import CtrlMesh.Api.Proto
import CtrlMesh.Labels.Merge
import CtrlMesh.Lib.Query

/-!
# Injecting the shard's selector

The proxy restricts the list and watch requests of its controller to the shard: the limits of the
configuration become one label selector per resource (`convert.go`), which is merged with the
selector the request has and written into its query (`injector.go`, `request.go`). A Go map is
enumerated in some order. `unmarshal` is what `json.Unmarshal` leaves in an empty selector; its
error is only logged.
-/

namespace CtrlMesh.Proxy

open Labels Api Lib.Query

/-- `schema.GroupResource`. -/
structure GroupResource where
  group : String
  resource : String
  deriving DecidableEq

/-- `internalMatchLimitRule`. -/
structure InternalMatchLimitRule where
  objectSelector : Option LabelSelector
  resources : List APIGroupResource

/-- The limits of the current shard, `routeInternal.currentLimits`. -/
structure InternalSpec where
  currentLimits : List InternalMatchLimitRule

/-- `convertProtoMatchLimitRuleToInternal`. -/
def convertProtoMatchLimitRuleToInternal (unmarshal : String → LabelSelector)
    (limits : List Limit) : List InternalMatchLimitRule :=
  limits.map fun limit =>
    { objectSelector :=
        if limit.objectSelector ≠ "" then some (unmarshal limit.objectSelector) else none
      resources := limit.resources }

/-- `ConvertProtoSpecToInternal`. -/
def convertProtoSpecToInternal (unmarshal : String → LabelSelector) (spec : ProxySpec) :
    InternalSpec :=
  ⟨convertProtoMatchLimitRuleToInternal unmarshal spec.limits⟩

/-- `containsString`. -/
def containsString (x : String) (list : List String) (wildcard : String) : Bool :=
  list == [wildcard] || list.contains x

/-- `isGRMatchedAPIResources`. -/
def isGRMatchedAPIResources (gr : GroupResource) (resources : List APIGroupResource) : Bool :=
  resources.any fun r =>
    containsString gr.group r.apiGroups "*" && containsString gr.resource r.resources "*"

/-- A limit that `getObjectSelector` does not pass over for its resources. -/
def concerns (resources : List APIGroupResource) (gr : GroupResource) : Bool :=
  resources.isEmpty || isGRMatchedAPIResources gr resources

/-- `GetObjectSelector`. -/
def InternalSpec.getObjectSelector (spec : InternalSpec) (gr : GroupResource) :
    Option LabelSelector :=
  spec.currentLimits.foldl (fun sel limit =>
    match limit.objectSelector with
    | none => sel
    | some selector =>
      if concerns limit.resources gr then mergeLabelSelector sel (some selector) else sel) none

/-- The selectors of the limits that concern a resource. -/
def selectorsOf (unmarshal : String → LabelSelector) (limits : List Limit) (gr : GroupResource) :
    List LabelSelector :=
  limits.filterMap fun limit =>
    if limit.objectSelector ≠ "" ∧ concerns limit.resources gr = true then
      some (unmarshal limit.objectSelector)
    else none

/-- The proxy merges the selectors of the limits that concern the resource. -/
theorem getObjectSelector_converted (unmarshal : String → LabelSelector) (spec : ProxySpec)
    (gr : GroupResource) : (convertProtoSpecToInternal unmarshal spec).getObjectSelector gr =
      mergeAll (selectorsOf unmarshal spec.limits gr) := by
  unfold InternalSpec.getObjectSelector convertProtoSpecToInternal selectorsOf mergeAll
  dsimp only [convertProtoMatchLimitRuleToInternal]
  rw [List.foldl_map, List.foldl_filterMap]
  congr 1
  funext acc limit
  by_cases written : limit.objectSelector = ""
  · simp [written]
  · by_cases here : concerns limit.resources gr = true <;> simp [written, here]

/-- The raw keys and values of a query. -/
abbrev RawQuery := AList (fun _ : List Char => List Char)

/-- One way to enumerate the map. -/
structure MapOrder where
  list : RawQuery → List (List Char × List Char)
  perm : ∀ raw, (list raw).Perm (raw.entries.map fun entry => (entry.1, entry.2))

/-- The order in which the model keeps the entries. -/
def MapOrder.entries : MapOrder where
  list raw := raw.entries.map fun entry => (entry.1, entry.2)
  perm _ := .refl _

/-- `ParseRawQuery`. -/
def parseRawQuery (rawQuery : List Char) : Option RawQuery :=
  if rawQuery = [] then some ∅
  else (rawQuery.splitOn '&').foldlM (fun result pair =>
    match pair.splitOn '=' with
    | [key, value] => some (result.insert key value)
    | _ => none) ∅

/-- `MarshalRawQuery`, over the pairs in the order the map is enumerated in. -/
def marshalRawQuery (pairs : List (List Char × List Char)) : List Char :=
  pairs.foldl (fun result pair =>
    if result.length = 0 then result ++ writePart pair else result ++ '&' :: writePart pair) []

/-- The text `labelSelector`. -/
def labelSelectorKey : List Char :=
  ['l', 'a', 'b', 'e', 'l', 'S', 'e', 'l', 'e', 'c', 't', 'o', 'r']

/-- The raw query of a request and its `OLD-RAW-QUERY` headers. -/
structure HttpRequest where
  rawQuery : List Char
  oldRawQuery : List (List Char)
  deriving DecidableEq

/-- `request.RequestInfo`. -/
structure RequestInfo where
  isResourceRequest : Bool
  verb : String
  apiGroup : String
  resource : String

/-- The selector a request has, and an error as `none`. -/
def oldLabelSelector (sorter : Sorter) (raw : RawQuery) : Option (Option LabelSelector) :=
  match raw.lookup labelSelectorKey with
  | none => some none
  | some oldSelector => do
    let text ← queryUnescape oldSelector
    let selector ← parseToLabelSelector sorter text
    some (some selector)

/-- `injectSelector`; an error is `none`. -/
def injectSelector (sorter : Sorter) (order : MapOrder) (req : HttpRequest) (sel : LabelSelector) :
    Option HttpRequest := do
  let raw ← parseRawQuery req.rawQuery
  let old ← oldLabelSelector sorter raw
  let selector ← validatedLabelSelectorAsSelector sorter (mergeLabelSelector (some sel) old)
  some
    { rawQuery := marshalRawQuery
        (order.list (raw.insert labelSelectorKey (queryEscape selector.text)))
      oldRawQuery := req.oldRawQuery ++ [req.rawQuery] }

/-- `Inject`; an error is `none`. -/
def inject (sorter : Sorter) (order : MapOrder) (spec : InternalSpec) (req : HttpRequest)
    (info : RequestInfo) : Option HttpRequest :=
  if !info.isResourceRequest then some req
  else if info.verb = "list" ∨ info.verb = "watch" then
    match spec.getObjectSelector ⟨info.apiGroup, info.resource⟩ with
    | none => some req
    | some objectSelector => injectSelector sorter order req objectSelector
  else some req

/-- The requirements of the first `labelSelector` of a query; a broken one is refused. -/
def readSelector (reader : Sorter) (rawQuery : List Char) : Option (List Requirement) :=
  match firstValue rawQuery labelSelectorKey with
  | none => some []
  | some text => parseToRequirements reader text

/-- The label selector of a query matches the labels. -/
def QueryMatches (reader : Sorter) (rawQuery : List Char) (ls : LabelSet) : Prop :=
  ∃ reqs, readSelector reader rawQuery = some reqs ∧ ∀ r ∈ reqs, r.matchesLabels ls = true

/-- Every part of the query that the server reads as `labelSelector` is one and the same, written
with this very name and without a semicolon. -/
def SpelledOnce (rawQuery : List Char) : Prop :=
  (∀ part ∈ rawQuery.splitOn '&', queryUnescape (cutEquals part).1 = some labelSelectorKey →
    (cutEquals part).1 = labelSelectorKey ∧ ';' ∉ part) ∧
  ∀ first ∈ rawQuery.splitOn '&', ∀ second ∈ rawQuery.splitOn '&',
    (cutEquals first).1 = labelSelectorKey → (cutEquals second).1 = labelSelectorKey →
    first = second

end CtrlMesh.Proxy
