import CtrlMesh.Lib.Json
import CtrlMesh.Rollout.Upgrade

/-!
# The expected revisions in an annotation

`expectation.go`: a pass writes the revision each pod should have into an annotation of the
StatefulSet as a JSON text, and `GetExpectedRevision` reads it back. The writer needs a map of
annotations to write into, and the only code of the pass that makes one runs after it.
-/

namespace CtrlMesh.Rollout

open Labels Lib Api

/-- `ExpectedRevision`. -/
structure ExpectedRevision where
  updateRevision : String
  podRevision : StringMap String

namespace ExpectedRevision

/-- The pods in the order of their names, as `encoding/json` writes a map. -/
def sortedPods (revision : ExpectedRevision) : List (Sigma fun _ : String => String) :=
  revision.podRevision.entries.insertionSort (·.1 ≤ ·.1)

/-- `json.Marshal` of the revision. -/
def toJSON (revision : ExpectedRevision) : Json :=
  .object [("updateRevision", .string revision.updateRevision),
    ("podRevision", .object (revision.sortedPods.map fun pod => (pod.1, .string pod.2)))]

/-- `json.Marshal`. -/
def text (revision : ExpectedRevision) : String := Json.dump (some revision.toJSON)

/-- The two hold the same, whatever the order of the pods in their maps. -/
structure Same (left right : ExpectedRevision) : Prop where
  updateRevision : left.updateRevision = right.updateRevision
  podRevision : ∀ name, left.podRevision.lookup name = right.podRevision.lookup name

example : text ⟨"b", (AList.singleton "app-1" "b").insert "app-0" "a"⟩ =
    "\x7b\"updateRevision\":\"b\",\"podRevision\":\x7b\"app-0\":\"a\",\"app-1\":\"b\"\x7d\x7d" := by
  decide

/-- No text is empty. -/
theorem text_ne_empty {revision : ExpectedRevision} : revision.text ≠ "" := by
  intro empty
  have none : (some revision.toJSON) = Option.none := Json.dump_injective empty
  cases none

/-- A text determines what was written. -/
theorem same_of_text_eq {left right : ExpectedRevision} (texts : left.text = right.text) :
    Same left right := by
  have values : left.toJSON = right.toJSON := Option.some.inj (Json.dump_injective texts)
  simp only [toJSON, Json.object.injEq, List.cons.injEq, Prod.mk.injEq, true_and, and_true,
    Json.string.injEq] at values
  obtain ⟨revisions, pods⟩ := values
  have pairs : Function.Injective fun pod : Sigma fun _ : String => String =>
      (pod.1, Json.string pod.2) := by
    rintro ⟨name, revision⟩ ⟨name', revision'⟩ same
    simp only [Prod.mk.injEq, Json.string.injEq] at same
    obtain ⟨rfl, rfl⟩ := same
    rfl
  have sorted : left.sortedPods = right.sortedPods := List.map_injective_iff.mpr pairs pods
  have entries : left.podRevision.entries.Perm right.podRevision.entries :=
    calc left.podRevision.entries
      _ |>.Perm left.sortedPods := (List.perm_insertionSort _ _).symm
      _ |>.Perm right.sortedPods := by rw [sorted]
      _ |>.Perm right.podRevision.entries := List.perm_insertionSort _ _
  exact ⟨revisions, fun name => AList.perm_lookup entries⟩

end ExpectedRevision

/-- What `json.Unmarshal` leaves in an empty structure; its error is only logged. It reads back what
`json.Marshal` wrote. -/
structure Reader where
  unmarshal : String → ExpectedRevision
  reads : ∀ revision : ExpectedRevision, (unmarshal revision.text).Same revision

open Classical in
/-- The texts leave nothing open, so they can be read. -/
noncomputable def Reader.ofTexts : Reader where
  unmarshal text :=
    if written : ∃ revision : ExpectedRevision, revision.text = text then written.choose
    else ⟨"", ∅⟩
  reads revision := by
    have written : ∃ other : ExpectedRevision, other.text = revision.text := ⟨revision, rfl⟩
    rw [dif_pos written]
    exact ExpectedRevision.same_of_text_eq written.choose_spec

/-- An annotation, if it is set. -/
def StatefulSet.annotation (sts : StatefulSet) (anno : String) : Option String :=
  sts.annotations.bind (·.lookup anno)

/-- `GetExpectedRevision`. -/
def getExpectedRevision (reader : Reader) (sts : StatefulSet) : ExpectedRevision :=
  reader.unmarshal ((sts.annotation rollingExpectedAnno).getD "")

/-- The texts of a pass, with the JSON of the expected revisions. -/
def jsonDump (names : List String → String) : Dump where
  names := names
  expectedRevision := fun updateRevision podRevision =>
    ExpectedRevision.text ⟨updateRevision, podRevision⟩

section RoundTrip

variable (names : List String → String) (reader : Reader) (sts : StatefulSet)
  (podRevision : StringMap String)

/-- What a writing should leave of a StatefulSet. -/
structure Recorded (sts' : StatefulSet) : Prop where
  others : ∀ anno, anno ≠ rollingExpectedAnno → sts'.annotation anno = sts.annotation anno
  rest : { sts' with annotations := sts.annotations } = sts
  read : (getExpectedRevision reader sts').Same ⟨recentRevision sts, podRevision⟩
  again : setExpectedRevision (jsonDump names) sts' podRevision = some (sts', false)

/-- `SetExpectedRevision` returns, and what it wrote is read back and not written again. -/
def RoundTrips : Prop :=
  ∃ sts' changed, setExpectedRevision (jsonDump names) sts podRevision = some (sts', changed) ∧
    Recorded names reader sts podRevision sts'

variable {sts podRevision}

/-- An annotation with the text of the revisions is all that matters. -/
theorem recorded_of_annotation {sts' : StatefulSet}
    (others : ∀ anno, anno ≠ rollingExpectedAnno → sts'.annotation anno = sts.annotation anno)
    (rest : { sts' with annotations := sts.annotations } = sts)
    (text : sts'.annotation rollingExpectedAnno =
      some (ExpectedRevision.text ⟨recentRevision sts, podRevision⟩)) :
    Recorded names reader sts podRevision sts' := by
  have revision : recentRevision sts' = recentRevision sts := by
    rw [← rest]
    rfl
  refine ⟨others, rest, ?_, ?_⟩
  · rw [getExpectedRevision, text]
    exact reader.reads _
  · have same : (jsonDump names).expectedRevision (recentRevision sts') podRevision =
        (sts'.annotation rollingExpectedAnno).getD "" := by
      rw [text, revision]
      rfl
    exact if_pos same

/-- Where there are annotations, the revisions are recorded. -/
theorem roundTrips_of_annotations {annotations : StringMap String}
    (held : sts.annotations = some annotations) : RoundTrips names reader sts podRevision := by
  have found : sts.annotation rollingExpectedAnno = annotations.lookup rollingExpectedAnno := by
    rw [StatefulSet.annotation, held, Option.bind_some]
  by_cases same : ExpectedRevision.text ⟨recentRevision sts, podRevision⟩ =
      (sts.annotation rollingExpectedAnno).getD ""
  · -- The text is there already. An absent annotation reads as an empty text, which none is.
    refine ⟨sts, false, if_pos same, recorded_of_annotation names reader (fun _ _ => rfl) rfl ?_⟩
    cases present : sts.annotation rollingExpectedAnno with
    | none =>
      rw [present] at same
      exact absurd same ExpectedRevision.text_ne_empty
    | some text =>
      rw [present, Option.getD_some] at same
      rw [same]
  · have written : setExpectedRevision (jsonDump names) sts podRevision =
        some ({ sts with annotations := some (annotations.insert rollingExpectedAnno
          (ExpectedRevision.text ⟨recentRevision sts, podRevision⟩)) }, true) := by
      rw [setExpectedRevision]
      refine (if_neg same).trans ?_
      rw [held]
      rfl
    refine ⟨_, true, written, recorded_of_annotation names reader (fun anno other => ?_) rfl ?_⟩
    · rw [StatefulSet.annotation, StatefulSet.annotation, held, Option.bind_some, Option.bind_some,
        AList.lookup_insert_ne other]
    · rw [StatefulSet.annotation, Option.bind_some, AList.lookup_insert]

/-- Without a map the writing panics, as no text is empty. -/
theorem setExpectedRevision_nil (nil : sts.annotations = none) :
    setExpectedRevision (jsonDump names) sts podRevision = none := by
  have differs : (jsonDump names).expectedRevision (recentRevision sts) podRevision ≠
      (sts.annotations.bind (·.lookup rollingExpectedAnno)).getD "" := by
    rw [nil]
    exact ExpectedRevision.text_ne_empty
  rw [setExpectedRevision]
  refine (if_neg differs).trans ?_
  rw [nil]
  rfl

end RoundTrip

/-- The revisions make the round trip exactly if the StatefulSet has a map of annotations. -/
theorem roundTrips_iff (names : List String → String) (reader : Reader) (sts : StatefulSet)
    (podRevision : StringMap String) :
    RoundTrips names reader sts podRevision ↔ sts.annotations ≠ none := by
  constructor
  · rintro ⟨sts', changed, written, -⟩ nil
    rw [setExpectedRevision_nil names nil] at written
    cases written
  · intro present
    obtain ⟨annotations, held⟩ := Option.ne_none_iff_exists'.mp present
    exact roundTrips_of_annotations names reader held

/-- A StatefulSet without annotations: the assignment to a nil map panics. -/
theorem setExpectedRevision_panics :
    ¬∀ (names : List String → String) (reader : Reader) (sts : StatefulSet)
      (podRevision : StringMap String), RoundTrips names reader sts podRevision := by
  intro trips
  obtain ⟨sts', changed, written, -⟩ := trips (fun _ => "") Reader.ofTexts
    { appSet 1 with annotations := none } ∅
  rw [setExpectedRevision_nil _ rfl] at written
  cases written

section Pass

variable {names : List String → String} {w : World} {o : Outcomes} {sts : StatefulSet}
  {ns rollType : String}

end Pass

end CtrlMesh.Rollout
