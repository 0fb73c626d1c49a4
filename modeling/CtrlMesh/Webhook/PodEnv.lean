import CtrlMesh.Webhook.Pod
import Mathlib.Data.List.TakeWhile
import Mathlib.Tactic.Common

/-!
# Environment variables for the proxy

The variables that the webhook gives to the proxy container come from an annotation of the pod and
from a flag. Both are texts of entries `name=value` with a mark between them, and both readers split
an entry at every equals sign. Of a value with an equals sign the annotation keeps the part before
it, and the flag keeps nothing.
-/

namespace CtrlMesh.Webhook

/-- `ctrlmesh.CtrlmeshWebhookEnvConfigAnno`. -/
def webhookEnvConfigAnno : String := "ctrlmesh.kusionstack.io/env-sync"

/-- `getEnvValFromPod`. -/
def getEnvValFromPod (pod : Pod) (key : String) : String :=
  match (pod.containers.flatMap (·.env)).find? (·.name = key) with
  | some contEnv => contEnv.value
  | none => ""

/-- The body of the loop of `getEnvFromAnno`: the variable an entry adds. An entry without an equals
sign names a variable of the pod. -/
def envOfEntry (pod : Pod) (e : List Char) : Option EnvVar :=
  if e = [] then none
  else match e.splitOn '=' with
    | name :: value :: _ => some { name := String.ofList name, value := String.ofList value }
    | [name] =>
      let val := getEnvValFromPod pod (String.ofList name)
      if val ≠ "" then some { name := String.ofList name, value := val } else none
    | [] => none

/-- `getEnvFromAnno`. -/
def getEnvFromAnno (pod : Pod) : List EnvVar :=
  match pod.annotations.lookup webhookEnvConfigAnno with
  | none => []
  | some envStr => (envStr.toList.splitOn ',').filterMap (envOfEntry pod)

/-- The body of the loop of `getExtraEnvs`. -/
def envOfFlagEntry (str : List Char) : Option EnvVar :=
  match str.splitOn '=' with
  | [name, value] => some { name := String.ofList name, value := String.ofList value }
  | _ => none

/-- `getExtraEnvs`, for the text of the flag. -/
def getExtraEnvs (proxyExtraEnvs : String) : List EnvVar :=
  if proxyExtraEnvs.length = 0 then []
  else (proxyExtraEnvs.toList.splitOn ';').filterMap envOfFlagEntry

/-- The text of an entry. -/
def entryText (pair : String × String) : String := pair.1 ++ "=" ++ pair.2

/-- A pair whose entry can be told from its neighbours, with `mark` between entries. -/
structure Writable (mark : Char) (pair : String × String) : Prop where
  named : pair.1 ≠ ""
  nameMark : mark ∉ pair.1.toList
  nameEquals : '=' ∉ pair.1.toList
  valueMark : mark ∉ pair.2.toList

variable {pair : String × String}

section Entries

variable {mark : Char} {pairs : List (String × String)}

theorem toList_entryText : (entryText pair).toList = pair.1.toList ++ '=' :: pair.2.toList := by
  simp [entryText]

theorem entryText_ne_nil : (entryText pair).toList ≠ [] := by
  rw [toList_entryText]
  exact List.append_ne_nil_of_right_ne_nil _ (List.cons_ne_nil _ _)

/-- The entries of a joined text are found again. -/
theorem splitOn_entries (separate : mark ≠ '=') (some : pairs ≠ [])
    (writable : ∀ pair ∈ pairs, Writable mark pair) :
    ((String.singleton mark).intercalate (pairs.map entryText)).toList.splitOn mark =
      pairs.map fun pair => (entryText pair).toList := by
  rw [String.toList_intercalate, String.toList_singleton, List.map_map]
  apply List.splitOn_intercalate
  · rw [List.forall_mem_map]
    intro pair member
    rw [Function.comp_apply, toList_entryText, List.mem_append, List.mem_cons]
    rintro (inName | isEquals | inValue)
    · exact (writable pair member).nameMark inName
    · exact separate isEquals
    · exact (writable pair member).valueMark inValue
  · simpa using some

/-- The parts of an entry: its name, and the value split at every equals sign. -/
theorem splitOn_entryText (writable : Writable mark pair) :
    (entryText pair).toList.splitOn '=' = pair.1.toList :: pair.2.toList.splitOn '=' := by
  rw [toList_entryText, List.splitOn_append_cons_self,
    List.splitOn_eq_singleton writable.nameEquals, List.singleton_append]

/-- The first part of a value ends before its first equals sign. -/
theorem exists_splitOn {value : List Char} :
    ∃ rest, value.splitOn '=' = value.takeWhile (· ≠ '=') :: rest := by
  by_cases member : '=' ∈ value
  · obtain ⟨front, rest, rfl, fresh⟩ := List.eq_append_cons_of_mem member
    have ahead : (front ++ '=' :: rest).takeWhile (· ≠ '=') = front := by
      rw [List.takeWhile_append_of_pos]
      · simp
      · intro ch inFront
        exact decide_eq_true fun same => fresh (same ▸ inFront)
    refine ⟨rest.splitOn '=', ?_⟩
    rw [List.splitOn_append_cons_self, List.splitOn_eq_singleton fresh, ahead,
      List.singleton_append]
  · refine ⟨[], ?_⟩
    rw [List.splitOn_eq_singleton member, List.takeWhile_eq_self_iff.mpr]
    intro ch inValue
    exact decide_eq_true fun same => member (same ▸ inValue)

end Entries

/-- The part of a value before its first equals sign. -/
def beforeEquals (value : String) : String := String.ofList (value.toList.takeWhile (· ≠ '='))

theorem beforeEquals_eq_self {value : String} :
    beforeEquals value = value ↔ '=' ∉ value.toList := by
  have chars : beforeEquals value = value ↔ value.toList.takeWhile (· ≠ '=') = value.toList := by
    rw [← String.toList_inj, beforeEquals, String.toList_ofList]
  rw [chars, List.takeWhile_eq_self_iff]
  constructor
  · intro all member
    exact absurd (all '=' member) (by decide)
  · intro absent ch member
    exact decide_eq_true fun same => absent (same ▸ member)

theorem envOfEntry_entryText {pod : Pod} (writable : Writable ',' pair) :
    envOfEntry pod (entryText pair).toList =
      some { name := pair.1, value := beforeEquals pair.2 } := by
  obtain ⟨rest, parts⟩ := exists_splitOn
  rw [envOfEntry, if_neg entryText_ne_nil, splitOn_entryText writable, parts]
  simp [beforeEquals]

/-- The text of an annotation with these entries. -/
def annotationText (pairs : List (String × String)) : String :=
  ",".intercalate (pairs.map entryText)

section Annotation

variable {pairs : List (String × String)} {pod : Pod}

/-- The variables read from an annotation: every value is cut at its first equals sign. -/
theorem getEnvFromAnno_eq (writable : ∀ pair ∈ pairs, Writable ',' pair)
    (held : pod.annotations.lookup webhookEnvConfigAnno = some (annotationText pairs)) :
    getEnvFromAnno pod =
      pairs.map fun pair => { name := pair.1, value := beforeEquals pair.2 } := by
  rw [getEnvFromAnno, held]
  by_cases none : pairs = []
  · subst none
    rfl
  · have split : (annotationText pairs).toList.splitOn ',' =
        pairs.map fun pair => (entryText pair).toList :=
      splitOn_entries (by decide) none writable
    dsimp only
    rw [split, List.filterMap_map]
    have entries : ∀ pair ∈ pairs, (envOfEntry pod ∘ fun pair => (entryText pair).toList) pair =
        (some ∘ fun pair : String × String =>
          ({ name := pair.1, value := beforeEquals pair.2 } : EnvVar)) pair :=
      fun pair member => envOfEntry_entryText (writable pair member)
    rw [List.filterMap_congr entries, List.filterMap_eq_map]

/-- An annotation is read as it was meant exactly if no value has an equals sign. -/
theorem getEnvFromAnno_preserves_iff (writable : ∀ pair ∈ pairs, Writable ',' pair)
    (held : pod.annotations.lookup webhookEnvConfigAnno = some (annotationText pairs)) :
    getEnvFromAnno pod = (pairs.map fun pair => { name := pair.1, value := pair.2 }) ↔
      ∀ pair ∈ pairs, '=' ∉ pair.2.toList := by
  rw [getEnvFromAnno_eq writable held, List.map_inj_left]
  simp only [EnvVar.mk.injEq, true_and, and_true, beforeEquals_eq_self]

end Annotation

/-- A pod with the annotation. -/
def annotated (pairs : List (String × String)) : Pod where
  annotations := AList.singleton webhookEnvConfigAnno (annotationText pairs)

theorem lookup_annotated {pairs : List (String × String)} :
    (annotated pairs).annotations.lookup webhookEnvConfigAnno = some (annotationText pairs) :=
  List.dlookup_cons_eq _ _ _

theorem getEnvFromAnno_preserves_plain :
    getEnvFromAnno (annotated [("LEVEL", "4"), ("EMPTY", "")]) =
        [{ name := "LEVEL", value := "4" }, { name := "EMPTY", value := "" }] ↔
      ∀ pair ∈ [("LEVEL", "4"), ("EMPTY", "")], '=' ∉ pair.2.toList := by
  have writable : ∀ pair ∈ [("LEVEL", "4"), ("EMPTY", "")], Writable ',' pair := by
    intro pair member
    rcases List.mem_cons.mp member with rfl | member
    · exact ⟨by decide, by decide, by decide, by decide⟩
    · rw [List.mem_singleton] at member
      subst member
      exact ⟨by decide, by decide, by decide, by decide⟩
  exact getEnvFromAnno_preserves_iff writable lookup_annotated

/-- Of the value `a=b` only `a` is left. -/
theorem getEnvFromAnno_cuts_value :
    ¬∀ (pairs : List (String × String)) (pod : Pod), (∀ pair ∈ pairs, Writable ',' pair) →
      pod.annotations.lookup webhookEnvConfigAnno = some (annotationText pairs) →
      getEnvFromAnno pod = pairs.map fun pair => { name := pair.1, value := pair.2 } := by
  intro preserves
  have read := preserves [("OPTS", "a=b")] (annotated [("OPTS", "a=b")]) (by
    intro pair member
    rw [List.mem_singleton] at member
    subst member
    exact ⟨by decide, by decide, by decide, by decide⟩) lookup_annotated
  exact absurd read (by decide)

theorem envOfFlagEntry_entryText (writable : Writable ';' pair) :
    envOfFlagEntry (entryText pair).toList =
      if '=' ∈ pair.2.toList then none else some { name := pair.1, value := pair.2 } := by
  rw [envOfFlagEntry, splitOn_entryText writable]
  by_cases member : '=' ∈ pair.2.toList
  · obtain ⟨front, rest, split, fresh⟩ := List.eq_append_cons_of_mem member
    have parts : pair.2.toList.splitOn '=' = front :: rest.splitOn '=' := by
      rw [split, List.splitOn_append_cons_self, List.splitOn_eq_singleton fresh,
        List.singleton_append]
    obtain ⟨next, others, more⟩ := List.exists_cons_of_ne_nil (List.splitOn_ne_nil '=' rest)
    rw [parts, more, if_pos member]
  · rw [List.splitOn_eq_singleton member, if_neg member]
    simp

/-- The flag gives the variables whose values have no equals sign, and no others. -/
theorem getExtraEnvs_eq {pairs : List (String × String)}
    (writable : ∀ pair ∈ pairs, Writable ';' pair) :
    getExtraEnvs (";".intercalate (pairs.map entryText)) =
      (pairs.filter fun pair => '=' ∉ pair.2.toList).map fun pair =>
        { name := pair.1, value := pair.2 } := by
  by_cases none : pairs = []
  · subst none
    rfl
  · have split : (";".intercalate (pairs.map entryText)).toList.splitOn ';' =
        pairs.map fun pair => (entryText pair).toList :=
      splitOn_entries (by decide) none writable
    have nonempty : (";".intercalate (pairs.map entryText)).length ≠ 0 := by
      intro zero
      rw [String.length_eq_zero_iff.mp zero] at split
      obtain ⟨pair, rest, rfl⟩ := List.exists_cons_of_ne_nil none
      have first : [] = (entryText pair).toList := (List.cons.inj split).1
      exact entryText_ne_nil first.symm
    rw [getExtraEnvs, if_neg nonempty, split, List.filterMap_map]
    have entries : ∀ pair ∈ pairs, (envOfFlagEntry ∘ fun pair => (entryText pair).toList) pair =
        Option.map (fun pair => ({ name := pair.1, value := pair.2 } : EnvVar))
          (Option.guard (fun pair : String × String => '=' ∉ pair.2.toList) pair) := by
      intro pair member
      rw [Function.comp_apply, envOfFlagEntry_entryText (writable pair member), Option.guard]
      by_cases equals : '=' ∈ pair.2.toList
      · simp [equals]
      · simp [equals]
    rw [List.filterMap_congr entries, ← List.map_filterMap, ← List.filterMap_eq_filter]

/-- The variable with the value `a=b` is dropped, the one before it is not. -/
theorem getExtraEnvs_drops : getExtraEnvs (";".intercalate ["MODE=fast", "OPTS=a=b"]) =
    [{ name := "MODE", value := "fast" }] :=
  @getExtraEnvs_eq [("MODE", "fast"), ("OPTS", "a=b")] (List.forall_mem_cons.mpr
    ⟨⟨by decide, by decide, by decide, by decide⟩,
      List.forall_mem_singleton.mpr ⟨by decide, by decide, by decide, by decide⟩⟩)

end CtrlMesh.Webhook
