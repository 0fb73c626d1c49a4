import Mathlib.Data.List.Basic

/-!
# JSON patches

The operations by which one document differs from another (`gomodules.xyz/jsonpatch`), and what a
server makes of them (`github.com/evanphx/json-patch`). Those that set a value lay the second
document over the first. A path is the text of its keys; it is read back from the text.

Two arrays are not compared here: an array of the first document is a scalar like any other, and
the second one has none.
-/

namespace CtrlMesh.Lib.JsonPatch

/-- A document; the fields of an object stand in the order in which a loop goes over them. -/
inductive Doc (α : Type) where
  | null
  | scalar (value : α)
  | object (fields : List (String × Doc α))

/-- The fields of an object, in order. -/
abbrev Fields (α : Type) := List (String × Doc α)

variable {α : Type}

/-- Whether a document is `null`. -/
def Doc.isNull : Doc α → Bool
  | .null => true
  | _ => false

/-- `rfc6901Encoder`. -/
def encodeChar (ch : Char) : List Char :=
  if ch = '~' then ['~', '0'] else if ch = '/' then ['~', '1'] else [ch]

/-- A key as a segment of a pointer. -/
def encode (key : String) : List Char := key.toList.flatMap encodeChar

/-- `rfc6901Decoder`. -/
def decode : List Char → List Char
  | '~' :: '1' :: rest => '/' :: decode rest
  | '~' :: '0' :: rest => '~' :: decode rest
  | ch :: rest => ch :: decode rest
  | [] => []

/-- `makePath`. -/
def makePath (path : List Char) (key : String) : List Char :=
  if path = [] then '/' :: encode key
  else if path.getLast? = some '/' then path ++ encode key
  else path ++ '/' :: encode key

/-- The keys of a path. -/
def pointer (path : List Char) : List String :=
  ((path.splitOn '/').drop 1).map fun part => String.ofList (decode part)

/-- A character is read back. -/
theorem decode_encodeChar (ch : Char) (rest : List Char) :
    decode (encodeChar ch ++ rest) = ch :: decode rest := by
  unfold encodeChar
  split
  · next tilde =>
    subst tilde
    rfl
  · next plain =>
    split
    · next slash =>
      subst slash
      rfl
    · rw [List.singleton_append, decode]
      · exact fun _ here => absurd here plain
      · exact fun _ here => absurd here plain

/-- A key is read back. -/
theorem decode_encode (key : String) : String.ofList (decode (encode key)) = key := by
  have chars : ∀ text : List Char, decode (text.flatMap encodeChar) = text := by
    intro text
    induction text with
    | nil => rfl
    | cons ch text ih => rw [List.flatMap_cons, decode_encodeChar, ih]
  rw [encode, chars, String.ofList_toList]

/-- A segment has no slash. -/
theorem slash_notMem_encode {key : String} : '/' ∉ encode key := by
  intro member
  obtain ⟨ch, -, member⟩ := List.mem_flatMap.mp member
  unfold encodeChar at member
  split_ifs at member with tilde slash
  · simp at member
  · simp at member
  · exact slash (List.mem_singleton.mp member).symm

variable {path : List Char} {around : Doc α → Doc α}

/-- The path of a field has the key of the field behind those of the object, unless the path of the
object ends with an empty key. -/
theorem pointer_makePath (proper : path.getLast? ≠ some '/') (key : String) :
    pointer (makePath path key) = pointer path ++ [key] := by
  have text : makePath path key = path ++ '/' :: encode key := by
    by_cases empty : path = []
    · simp [makePath, empty]
    · simp [makePath, empty, proper]
  obtain ⟨first, parts, split⟩ := List.exists_cons_of_ne_nil (List.splitOn_ne_nil '/' path)
  rw [pointer, text, List.splitOn_append_cons_self,
    List.splitOn_eq_singleton slash_notMem_encode, pointer, split]
  simp [decode_encode]

variable {key : String} {fields bt : Fields α}

/-- The path of a named field does not end with a slash. -/
theorem makePath_proper (filled : key ≠ "") : (makePath path key).getLast? ≠ some '/' := by
  have nonempty : encode key ≠ [] := by
    intro empty
    have read := decode_encode key
    rw [empty] at read
    exact filled read.symm
  have ending : ∃ front, makePath path key = front ++ encode key := by
    unfold makePath
    split_ifs
    · exact ⟨['/'], rfl⟩
    · exact ⟨path, rfl⟩
    · exact ⟨path ++ ['/'], by simp⟩
  obtain ⟨front, text⟩ := ending
  intro last
  rw [text, List.getLast?_append_of_ne_nil _ nonempty] at last
  exact slash_notMem_encode (List.mem_of_getLast? last)

/-- What an operation does. -/
inductive Kind where
  | add
  | remove
  | replace
  deriving DecidableEq

/-- `Operation`. -/
structure Operation (α : Type) where
  kind : Kind
  path : List Char
  value : Doc α

/-- A field is set where it stands, or at the end. -/
def put (key : String) (value : Doc α) : Fields α → Fields α
  | [] => [(key, value)]
  | (other, old) :: fields =>
    if key = other then (key, value) :: fields else (other, old) :: put key value fields

/-- An operation on a field. -/
def Kind.onField (key : String) (value : Doc α) (fields : Fields α) : Kind → Option (Fields α)
  | .add => some (put key value fields)
  | .replace => (fields.lookup key).map fun _ => put key value fields
  | .remove => (fields.lookup key).map fun _ => fields.filter fun field => field.1 ≠ key

/-- The document after an operation at the keys. -/
def edit (kind : Kind) (value : Doc α) : List String → Doc α → Option (Doc α)
  | [], _ => if kind = .replace then some value else none
  | key :: keys, .object fields =>
    if keys = [] then (kind.onField key value fields).map .object
    else (fields.lookup key).bind fun child =>
      (edit kind value keys child).map fun child => .object (put key child fields)
  | _ :: _, _ => none

/-- The operations one after the other. -/
def apply (patch : List (Operation α)) (doc : Doc α) : Option (Doc α) :=
  patch.foldlM (fun doc operation => edit operation.kind operation.value
    (pointer operation.path) doc) doc

variable {value : Doc α}

/-- A lookup in a list of fields. -/
theorem lookup_cons_ite (other : String) :
    List.lookup other ((key, value) :: fields) =
      if other = key then some value else fields.lookup other := by
  by_cases same : other = key
  · rw [same, List.lookup_cons_self, if_pos rfl]
  · rw [List.lookup_cons, beq_false_of_ne same, if_neg same]

/-- What setting a field makes of any key. -/
theorem lookup_put (key other : String) (fields : Fields α) :
    (put key value fields).lookup other =
      if other = key then some value else fields.lookup other := by
  induction fields with
  | nil => rw [put, lookup_cons_ite]
  | cons field fields ih =>
    obtain ⟨first, old⟩ := field
    unfold put
    split
    · next here =>
      subst here
      rw [lookup_cons_ite, lookup_cons_ite]
      split_ifs <;> rfl
    · next apart =>
      rw [lookup_cons_ite, lookup_cons_ite, ih]
      split_ifs with front same
      · exact absurd (same.symm.trans front) apart
      · rfl
      · rfl
      · rfl

/-- A field that is set twice has the later value. -/
theorem put_put (later : Doc α) : put key later (put key value fields) = put key later fields := by
  induction fields with
  | nil => simp [put]
  | cons field fields ih =>
    by_cases here : key = field.1
    · simp [put, here]
    · simp [put, here, ih]

/-- Setting a field to its value changes nothing. -/
theorem put_of_lookup (found : fields.lookup key = some value) : put key value fields = fields := by
  induction fields with
  | nil => cases found
  | cons field fields ih =>
    by_cases here : key = field.1
    · rw [lookup_cons_ite, if_pos here, Option.some.injEq] at found
      rw [put, if_pos here, here, ← found]
    · rw [lookup_cons_ite, if_neg here] at found
      rw [put, if_neg here, ih found]

mutual

/-- Every value of the second document that is not null is set. -/
def overlay (av : Doc α) : Doc α → Doc α
  | .null => av
  | .scalar value => .scalar value
  | .object bt =>
    match av with
    | .object fields => .object (overlayFields fields bt)
    | _ => .object bt

/-- The fields of `overlay`. -/
def overlayFields (fields : Fields α) : Fields α → Fields α
  | [] => fields
  | (key, bv) :: bt =>
    overlayFields (match fields.lookup key with
      | none => if bv.isNull then fields else put key bv fields
      | some av => put key (overlay av bv) fields) bt

end

/-- Keys that are not empty and, in one object, not equal. -/
inductive Doc.Named : Doc α → Prop where
  | null : Doc.Named .null
  | scalar (value : α) : Doc.Named (.scalar value)
  | object {fields : Fields α} (distinct : (fields.map Prod.fst).Nodup)
      (filled : ∀ field ∈ fields, field.1 ≠ "") (values : ∀ field ∈ fields, field.2.Named) :
      Doc.Named (.object fields)

/-- A document around a place at the keys. -/
def Context (keys : List String) (around : Doc α → Doc α) : Prop :=
  ∀ kind value rest doc, (rest = [] → kind = .replace) →
    edit kind value (keys ++ rest) (around doc) = (edit kind value rest doc).map around

/-- The whole document. -/
theorem Context.root : Context [] (id : Doc α → Doc α) := by
  intro kind value rest doc _
  rw [List.nil_append, id, Option.map_id_fun, id]

/-- The place of a field. -/
theorem Context.field {keys : List String} (context : Context keys around) (key : String)
    (fields : Fields α) :
    Context (keys ++ [key]) fun value => around (.object (put key value fields)) := by
  intro kind value rest doc proper
  have found : (put key doc fields).lookup key = some doc := by rw [lookup_put, if_pos rfl]
  rw [List.append_assoc, context kind value _ _ (by simp)]
  cases rest with
  | nil =>
    rw [proper rfl]
    simp [edit, Kind.onField, found, put_put]
  | cons next rest =>
    simp [edit, found, put_put]
    rfl

/-- Two patches are applied one after the other. -/
theorem apply_append (patch later : List (Operation α)) (doc : Doc α) :
    apply (patch ++ later) doc = (apply patch doc).bind (apply later) := by
  rw [apply, List.foldlM_append]
  rfl

section Places

variable {path : List Char} {around : Doc α → Doc α} (context : Context (pointer path) around)
include context

/-- A value is replaced in its place. -/
theorem Context.apply_replace (av value : Doc α) :
    apply [⟨.replace, path, value⟩] (around av) = some (around value) := by
  have placed := context .replace value [] av fun _ => rfl
  rw [List.append_nil] at placed
  simp [apply, placed, edit]

/-- A field is added in its place. -/
theorem Context.apply_add (proper : path.getLast? ≠ some '/') (key : String) (value : Doc α)
    (fields : Fields α) : apply [⟨.add, makePath path key, value⟩] (around (.object fields)) =
      some (around (.object (put key value fields))) := by
  have placed := context .add value [key] (.object fields) (by simp)
  rw [← pointer_makePath proper] at placed
  simp [apply, placed, edit, Kind.onField]

end Places

/-- A key without a field is not found. -/
theorem lookup_eq_none_of_notMem (outside : key ∉ bt.map Prod.fst) : bt.lookup key = none := by
  induction bt with
  | nil => rfl
  | cons field bt ih =>
    rw [List.map_cons, List.mem_cons, not_or] at outside
    rw [lookup_cons_ite, if_neg outside.1, ih outside.2]

/-- What the overlay makes of a key. -/
theorem lookup_overlayFields (distinct : (bt.map Prod.fst).Nodup) :
    (overlayFields fields bt).lookup key =
      match bt.lookup key, fields.lookup key with
      | none, old => old
      | some bv, none => if bv.isNull then none else some bv
      | some bv, some av => some (overlay av bv) := by
  induction bt generalizing fields with
  | nil =>
    rw [overlayFields]
    rfl
  | cons field bt ih =>
    obtain ⟨first, bv⟩ := field
    rw [List.map_cons, List.nodup_cons] at distinct
    rw [overlayFields, ih distinct.2, lookup_cons_ite]
    by_cases here : key = first
    · subst here
      rw [lookup_eq_none_of_notMem distinct.1, if_pos rfl]
      cases found : fields.lookup key with
      | none =>
        cases null : bv.isNull with
        | true => simp [found, null]
        | false => simp [lookup_put, null]
      | some av => simp [lookup_put]
    · rw [if_neg here]
      have kept : ∀ value, (put first value fields).lookup key = fields.lookup key := by
        intro value
        rw [lookup_put, if_neg here]
      cases fields.lookup first with
      | none => cases bv.isNull <;> simp [kept]
      | some av => simp [kept]

/-- Every field is found under its key. -/
theorem lookup_of_mem (distinct : (bt.map Prod.fst).Nodup) {field : String × Doc α}
    (member : field ∈ bt) : bt.lookup field.1 = some field.2 := by
  induction bt with
  | nil => cases member
  | cons first bt ih =>
    rw [List.map_cons, List.nodup_cons] at distinct
    rw [lookup_cons_ite]
    rcases List.mem_cons.mp member with rfl | member
    · rw [if_pos rfl]
    · have apart : field.1 ≠ first.1 := fun same =>
        distinct.1 (List.mem_map.mpr ⟨field, member, same⟩)
      rw [if_neg apart, ih distinct.2 member]

variable [DecidableEq α]

mutual

/-- `handleValues`: what it appends to the patch for the value `av` at the path. -/
def handleValues (av : Doc α) (path : List Char) : Doc α → List (Operation α)
  | .null =>
    match av with
    | .null => []
    | _ => [⟨.replace, path, .null⟩]
  | .scalar value =>
    match av with
    | .scalar old => if old = value then [] else [⟨.replace, path, .scalar value⟩]
    | _ => [⟨.replace, path, .scalar value⟩]
  | .object bt =>
    match av with
    | .object at' =>
      -- `diff`: the fields of the second document, and then those that it does not have
      diffFields at' path bt ++ (at'.filter fun field => (bt.lookup field.1).isNone).map
        fun field => ⟨.remove, makePath path field.1, .null⟩
    | _ => [⟨.replace, path, .object bt⟩]

/-- The first loop of `diff`. -/
def diffFields (fields : Fields α) (path : List Char) : Fields α → List (Operation α)
  | [] => []
  | (key, bv) :: bt =>
    (match fields.lookup key with
    | none => [⟨.add, makePath path key, bv⟩]
    | some av => handleValues av (makePath path key) bv) ++ diffFields fields path bt

end

/-- `CreatePatch` of two documents that are JSON. -/
def createPatch (a b : Doc α) : List (Operation α) := handleValues a [] b

/-- An operation that sets a value. -/
def Operation.sets (operation : Operation α) : Bool :=
  operation.kind != .remove && !operation.value.isNull

/-- The operations that set a value lay the document over any other one, at any place. -/
def Lays (bv : Doc α) : Prop :=
  ∀ av path around, path.getLast? ≠ some '/' → Context (pointer path) around →
    apply ((handleValues av path bv).filter (·.sets)) (around av) = some (around (overlay av bv))

/-- The fields of an object, one after the other; those still to come are as they were. -/
theorem apply_diffFields (distinct : (bt.map Prod.fst).Nodup) (filled : ∀ field ∈ bt, field.1 ≠ "")
    (each : ∀ field ∈ bt, Lays field.2) (proper : path.getLast? ≠ some '/')
    (context : Context (pointer path) around) {before : Fields α}
    (same : ∀ field ∈ bt, fields.lookup field.1 = before.lookup field.1) :
    apply ((diffFields before path bt).filter (·.sets)) (around (.object fields)) =
      some (around (.object (overlayFields fields bt))) := by
  induction bt generalizing fields with
  | nil => simp [diffFields, overlayFields, apply]
  | cons field bt ih =>
    obtain ⟨key, bv⟩ := field
    rw [List.forall_mem_cons] at filled each same
    rw [List.map_cons, List.nodup_cons] at distinct
    have later : ∀ value, ∀ field ∈ bt,
        (put key value fields).lookup field.1 = before.lookup field.1 := by
      intro value field member
      have apart : field.1 ≠ key := fun equal =>
        distinct.1 (List.mem_map.mpr ⟨field, member, equal⟩)
      rw [lookup_put, if_neg apart, same.2 field member]
    have rest fields := @ih fields distinct.2 filled.2 each.2
    rw [diffFields, List.filter_append, apply_append, overlayFields, ← same.1]
    cases found : fields.lookup key with
    | none =>
      have added := context.apply_add proper key bv fields
      cases bv with
      | null => exact rest _ same.2
      | scalar value => exact (congrArg (Option.bind · _) added).trans (rest _ (later _))
      | object inner => exact (congrArg (Option.bind · _) added).trans (rest _ (later _))
    | some av =>
      have child := context.field key fields
      rw [← pointer_makePath proper] at child
      have done := each.1 av _ _ (makePath_proper filled.1) child
      rw [put_of_lookup found] at done
      rw [done]
      exact rest _ (later _)

/-- What is removed sets nothing. -/
theorem filter_handleValues_object :
    (handleValues (.object fields) path (.object bt)).filter (·.sets) =
      (diffFields fields path bt).filter (·.sets) := by
  have removed : ((fields.filter fun field => (bt.lookup field.1).isNone).map fun field =>
      (⟨.remove, makePath path field.1, .null⟩ : Operation α)).filter (·.sets) = [] := by
    apply List.filter_eq_nil_iff.mpr
    intro operation member
    obtain ⟨field, -, rfl⟩ := List.mem_map.mp member
    simp [Operation.sets]
  rw [handleValues, List.filter_append, removed, List.append_nil]

/-- A document without empty keys is laid over any other. -/
theorem Doc.Named.lays {bv : Doc α} (named : bv.Named) : Lays bv := by
  induction named with
  | null =>
    intro av path around proper context
    cases av <;> simp [handleValues, overlay, apply, Operation.sets, Doc.isNull]
  | scalar value =>
    intro av path around proper context
    have set := context.apply_replace av (.scalar value)
    cases av with
    | scalar old =>
      by_cases equal : old = value
      · simp [handleValues, overlay, equal, apply]
      · rw [handleValues, if_neg equal]
        exact set
    | null => exact set
    | object fields => exact set
  | @object bt distinct filled values ih =>
    intro av path around proper context
    have set := context.apply_replace av (.object bt)
    cases av with
    | null => exact set
    | scalar old => exact set
    | object fields =>
      rw [filter_handleValues_object, overlay]
      exact apply_diffFields distinct filled ih proper context fun _ _ => rfl

/-- A server that is sent the operations that set a value lays the second document over the
first. -/
theorem apply_createPatch {b : Doc α} (named : b.Named) (a : Doc α) :
    apply ((createPatch a b).filter (·.sets)) a = some (overlay a b) :=
  named.lays a [] id (by simp) Context.root

/-- Nothing is set in an object that has every value of the second one. -/
theorem filter_diffFields
    (each : ∀ field ∈ bt, fields.lookup field.1 = none ∧ field.2.isNull = true ∨
      ∃ av, fields.lookup field.1 = some av ∧
        (handleValues av (makePath path field.1) field.2).filter (·.sets) = []) :
    (diffFields fields path bt).filter (·.sets) = [] := by
  induction bt with
  | nil => rw [diffFields, List.filter_nil]
  | cons field bt ih =>
    rw [List.forall_mem_cons] at each
    rw [diffFields, List.filter_append, ih each.2, List.append_nil]
    obtain ⟨absent, null⟩ | ⟨av, found, settled⟩ := each.1
    · simp [absent, Operation.sets, null]
    · rw [found]
      exact settled

end CtrlMesh.Lib.JsonPatch
