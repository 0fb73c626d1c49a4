import CtrlMesh.Lib.Assoc
import CtrlMesh.Sharding.Partition

/-!
# The labels of a namespace

A namespace under the control of the mesh carries its own name and the number of one of 32 buckets.
The admission webhook (`pkg/webhook/ns`, `pkg/webhook/resources`) and the patch at start-up
(`patchrunnable`) set these labels by code of their own, on namespaces and on the objects in them.
A nil label map is empty: whoever writes to one makes it first. A string is given by its runes; an
invalid byte is the rune U+FFFD.
-/

namespace CtrlMesh.Rand

/-- One round of the loop of `Hash`, in 64-bit integers. -/
def hashStep (mod hash : Int64) (char : Char) : Int64 := (hash * 33 + .ofNat char.toNat) % mod

/-- `rand.Hash`. -/
def hash (str : String) (mod : Int64) : Int64 := str.toList.foldl (hashStep mod) 0

/-- The product and the sum of every round are those of the integers. -/
def Exact (str : String) (mod : Int64) : Prop :=
  ∀ (before : List Char) (char : Char) (after : List Char), str.toList = before ++ char :: after →
    let hash : Int64 := before.foldl (hashStep mod) 0
    (hash * 33).toInt = hash.toInt * 33 ∧
      (hash * 33 + .ofNat char.toNat).toInt = hash.toInt * 33 + (char.toNat : Int)

theorem toNat_lt (char : Char) : char.toNat < 0x110000 := by
  have valid : char.toNat.isValidChar := char.valid
  unfold Nat.isValidChar at valid
  omega

theorem toInt_product {hash : Int64} (low : 0 ≤ hash.toInt) (high : hash.toInt < 32) :
    (hash * 33).toInt = hash.toInt * 33 := by
  have factor : (33 : Int64).toInt = 33 := by decide
  rw [Int64.toInt_mul, factor]
  apply Int.bmod_eq_of_le <;> omega

variable {char : Char} {key : String}

theorem toInt_sum {hash : Int64} (low : 0 ≤ hash.toInt) (high : hash.toInt < 32) :
    (hash * 33 + .ofNat char.toNat).toInt = hash.toInt * 33 + char.toNat := by
  have rune : (Int64.ofNat char.toNat).toInt = char.toNat := by
    apply Int64.toInt_ofNat_of_lt
    have bound := toNat_lt char
    omega
  have bound := toNat_lt char
  rw [Int64.toInt_add, toInt_product low high, rune]
  apply Int.bmod_eq_of_le <;> omega

/-- One round keeps the hash in its range. -/
theorem hashStep_range {hash : Int64} (low : 0 ≤ hash.toInt) (high : hash.toInt < 32)
    (char : Char) : 0 ≤ (hashStep 32 hash char).toInt ∧ (hashStep 32 hash char).toInt < 32 := by
  have modulus : (32 : Int64).toInt = 32 := by decide
  have positive : 0 ≤ hash.toInt * 33 + char.toNat := by omega
  have remainder : (hashStep 32 hash char).toInt = (hash.toInt * 33 + char.toNat) % 32 := by
    rw [hashStep, Int64.toInt_mod, toInt_sum low high, modulus, Int.tmod_eq_emod_of_nonneg positive]
  rw [remainder]
  omega

theorem foldl_hashStep_range (chars : List Char) {hash : Int64} (low : 0 ≤ hash.toInt)
    (high : hash.toInt < 32) : 0 ≤ (chars.foldl (hashStep 32) hash).toInt ∧
      (chars.foldl (hashStep 32) hash).toInt < 32 := by
  induction chars generalizing hash with
  | nil => exact ⟨low, high⟩
  | cons char chars ih =>
    have next := hashStep_range low high char
    exact ih next.1 next.2

theorem hash_range (str : String) : 0 ≤ (hash str 32).toInt ∧ (hash str 32).toInt < 32 :=
  foldl_hashStep_range str.toList (by decide) (by decide)

theorem exact_hash (str : String) : Exact str 32 := by
  intro before char after _
  have range := @foldl_hashStep_range before 0 (by decide) (by decide)
  exact ⟨toInt_product range.1 range.2, toInt_sum range.1 range.2⟩

end CtrlMesh.Rand

namespace CtrlMesh.Sharding

open Labels Api Lib

/-- The label keys, with the one that puts a namespace under the control of the mesh. -/
structure LabelFlags extends Flags where
  meshControlLabel : String := "ctrlmesh.kusionstack.io/control"

/-- The value of the shard-hash label, for `constants.DefaultShardingSize` buckets. -/
def nsHash (name : String) : String := toString (Rand.hash name 32).toInt

/-- Every namespace falls in the bucket range of exactly one of any number of shards, and its hash
is computed without overflow. -/
theorem existsUnique_getRange (name : String) {shardingSize : Int} (shards : 1 ≤ shardingSize) :
    (∃! id : Int, (1 ≤ id ∧ id ≤ shardingSize) ∧ nsHash name ∈ (getRange id shardingSize 32).2.2) ∧
      (0 ≤ (Rand.hash name 32).toInt ∧ (Rand.hash name 32).toInt < 32) ∧ Rand.Exact name 32 := by
  have range := Rand.hash_range name
  refine ⟨?_, range, Rand.exact_hash name⟩
  have positive : 0 < shardingSize := by omega
  have size : 0 ≤ batchSize shardingSize 32 := (batchSize_pos positive (by decide)).le
  obtain ⟨id, inside, member⟩ := getRange_covers positive range.1 range.2
  refine ⟨id, ⟨mem_intsFrom.mp inside, member⟩, ?_⟩
  rintro other ⟨-, member'⟩
  rcases lt_trichotomy other id with less | same | more
  · exact absurd member (getRange_disjoint less size member')
  · exact same
  · exact absurd member' (getRange_disjoint more size member)

theorem existsUnique_getRange_default :
    (∃! id : Int, (1 ≤ id ∧ id ≤ 5) ∧ nsHash "default" ∈ (getRange id 5 32).2.2) ∧
      (0 ≤ (Rand.hash "default" 32).toInt ∧ (Rand.hash "default" 32).toInt < 32) ∧
      Rand.Exact "default" 32 :=
  existsUnique_getRange "default" (by decide)

/-- A label is set to the value unless it is there and passes; and whether it was set. -/
def setUnless (labels : LabelSet) (key : String) (passes : String → Bool) (value : String) :
    LabelSet × Bool :=
  if (labels.lookup key).any passes then (labels, false) else (labels.insert key value, true)

/-- `shouldUpdateNs` of the webhook: the labels it leaves and whether it changed any. -/
def shouldUpdateNs (flags : LabelFlags) (name : String) (labels : LabelSet) : LabelSet × Bool :=
  let (labels, control) := setUnless labels flags.meshControlLabel (fun _ => true) "true"
  let (labels, shard) := setUnless labels flags.namespaceShardLabel (· = name) name
  let (labels, bucket) := setUnless labels flags.shardHashLabel (· = nsHash name) (nsHash name)
  (labels, control || shard || bucket)

/-- `updateLabel` of the patch at start-up. -/
def updateLabel (flags : LabelFlags) (name : String) (labels : LabelSet) :
    Except String (LabelSet × Bool) :=
  let found := fun key => "label " ++ key ++ " already exist but can not find " ++
    flags.meshControlLabel
  if flags.meshControlLabel ∉ labels then
    if flags.shardHashLabel ∈ labels then throw (found flags.shardHashLabel)
    else if flags.namespaceShardLabel ∈ labels then throw (found flags.namespaceShardLabel)
    else pure (((labels.insert flags.meshControlLabel "true").insert
      flags.namespaceShardLabel name).insert flags.shardHashLabel (nsHash name), true)
  else if labels.lookup flags.shardHashLabel ≠ some (nsHash name) then
    pure ((labels.insert flags.namespaceShardLabel name).insert flags.shardHashLabel
      (nsHash name), true)
  else if labels.lookup flags.namespaceShardLabel ≠ some name then
    pure (labels.insert flags.namespaceShardLabel name, true)
  else pure (labels, false)

/-- `ctrlmesh.IsControlledByMesh`. -/
def isControlledByMesh (flags : LabelFlags) (labels : Option LabelSet) : Bool :=
  match labels with
  | none => false
  | some labels => labels.lookup flags.meshControlLabel = some "true"

/-- `ctrlmesh.ShouldSyncLabels`. -/
def shouldSyncLabels (flags : LabelFlags) : List String :=
  [flags.shardHashLabel, flags.meshControlLabel, flags.namespaceShardLabel]

/-- The loop of both functions below: the labels among the keys. -/
def pickLabels (labels : LabelSet) (keys : List String) : LabelSet :=
  keys.foldl (fun res key => match labels.lookup key with
    | none => res
    | some val => res.insert key val) ∅

/-- `getSyncLabels` of the webhook, for the labels of the namespace. -/
def getSyncLabels (flags : LabelFlags) (labels : Option LabelSet) : LabelSet :=
  if !isControlledByMesh flags labels then ∅
  else pickLabels (labels.getD ∅) (shouldSyncLabels flags)

/-- `getShardingLabel` of the patch at start-up, for the labels of a namespace that is not nil. -/
def getShardingLabel (flags : LabelFlags) (labels : Option LabelSet) : LabelSet :=
  match labels with
  | none => ∅
  | some labels =>
    if !isControlledByMesh flags labels then ∅ else pickLabels labels (shouldSyncLabels flags)

/-- `shouldPatchLabel`. -/
def shouldPatchLabel (old target : LabelSet) : LabelSet :=
  insertSome (fun key val => old.lookup key ≠ some val) target.entries ∅

/-- What a JSON merge patch of labels leaves: every label of the patch, and the others. -/
def mergePatch (labels patch : LabelSet) : LabelSet := patch ∪ labels

/-- The labels a namespace should have: its own name and bucket, and a control label, which keeps
its value. -/
def stamped (flags : LabelFlags) (name : String) (labels : LabelSet) (key : String) :
    Option String :=
  if key = flags.shardHashLabel then some (nsHash name)
  else if key = flags.namespaceShardLabel then some name
  else if key = flags.meshControlLabel then
    some ((labels.lookup flags.meshControlLabel).getD "true")
  else labels.lookup key

variable {flags : LabelFlags} {name : String} {labels labels' : LabelSet}

theorem lookup_setUnless_value (value other : String) :
    (setUnless labels key (· = value) value).1.lookup other =
      if other = key then some value else labels.lookup other := by
  unfold setUnless
  split
  · next passed =>
    have kept : labels.lookup key = some value := by simpa [Option.any_eq_true] using passed
    by_cases here : other = key
    · rw [here, kept, if_pos rfl]
    · rw [if_neg here]
  · exact lookup_insert_ite labels

theorem lookup_setUnless_any (value other : String) :
    (setUnless labels key (fun _ => true) value).1.lookup other =
      if other = key then some ((labels.lookup key).getD value) else labels.lookup other := by
  unfold setUnless
  cases found : labels.lookup key with
  | none => simpa using lookup_insert_ite labels
  | some val =>
    by_cases here : other = key
    · rw [here, if_pos rfl]
      exact found
    · rw [if_neg here]
      rfl

/-- The webhook leaves the labels a namespace should have. -/
theorem lookup_shouldUpdateNs (flags : LabelFlags) (name : String) (labels : LabelSet)
    (key : String) :
    (shouldUpdateNs flags name labels).1.lookup key = stamped flags name labels key := by
  change (setUnless (setUnless (setUnless labels flags.meshControlLabel _ "true").1
    flags.namespaceShardLabel _ name).1 flags.shardHashLabel _ (nsHash name)).1.lookup key = _
  rw [lookup_setUnless_value, lookup_setUnless_value, lookup_setUnless_any]
  rfl

/-- So does the patch at start-up, where it reports no error. -/
theorem lookup_updateLabel (different : flags.namespaceShardLabel ≠ flags.shardHashLabel)
    {changed : Bool} (updated : updateLabel flags name labels = .ok (labels', changed))
    (key : String) : labels'.lookup key = stamped flags name labels key := by
  have controlled : flags.meshControlLabel ∈ labels → key = flags.meshControlLabel →
      labels.lookup key = some ((labels.lookup flags.meshControlLabel).getD "true") := by
    intro inside same
    obtain ⟨val, found⟩ := Option.isSome_iff_exists.mp (AList.lookup_isSome.mpr inside)
    rw [same, found]
    rfl
  unfold updateLabel at updated
  split at updated
  · next outside =>
    have absent : labels.lookup flags.meshControlLabel = none := AList.lookup_eq_none.mpr outside
    split at updated
    · cases updated
    · split at updated
      · cases updated
      · cases updated
        rw [lookup_insert_ite, lookup_insert_ite, lookup_insert_ite, stamped, absent]
        rfl
  · next inside =>
    have inside : flags.meshControlLabel ∈ labels := not_not.mp inside
    split at updated
    · cases updated
      rw [lookup_insert_ite, lookup_insert_ite, stamped]
      split_ifs with isHash isNamespace isControl
      · rfl
      · rfl
      · exact controlled inside isControl
      · rfl
    · next hashed =>
      have hashed : labels.lookup flags.shardHashLabel = some (nsHash name) := not_not.mp hashed
      split at updated
      · cases updated
        rw [lookup_insert_ite, stamped]
        split_ifs with isNamespace isHash isHash isControl
        · exact absurd (isNamespace.symm.trans isHash) different
        · rfl
        · rw [isHash, hashed]
        · exact controlled inside isControl
        · rfl
      · next placed =>
        have placed : labels.lookup flags.namespaceShardLabel = some name := not_not.mp placed
        cases updated
        rw [stamped]
        split_ifs with isHash isNamespace isControl
        · rw [isHash, hashed]
        · rw [isNamespace, placed]
        · exact controlled inside isControl
        · rfl

/-- A namespace with the labels it should have is left as it is by both. -/
theorem unchanged_of_stamped (different : flags.namespaceShardLabel ≠ flags.shardHashLabel)
    (same : ∀ key, labels'.lookup key = stamped flags name labels key) :
    shouldUpdateNs flags name labels' = (labels', false) ∧
      updateLabel flags name labels' = .ok (labels', false) := by
  have hashed : labels'.lookup flags.shardHashLabel = some (nsHash name) := by
    rw [same, stamped, if_pos rfl]
  have placed : labels'.lookup flags.namespaceShardLabel = some name := by
    rw [same, stamped, if_neg different, if_pos rfl]
  have controlled : (labels'.lookup flags.meshControlLabel).isSome := by
    rw [same, stamped]
    split_ifs with isHash isNamespace isControl
    · rfl
    · rfl
    · rfl
    · exact absurd rfl isControl
  have inside : flags.meshControlLabel ∈ labels' := AList.lookup_isSome.mp controlled
  constructor
  · obtain ⟨val, found⟩ := Option.isSome_iff_exists.mp controlled
    simp [shouldUpdateNs, setUnless, found, placed, hashed]
  · simp [updateLabel, inside, hashed, placed]
    rfl

theorem getShardingLabel_eq (labels : Option LabelSet) :
    getShardingLabel flags labels = getSyncLabels flags labels := by
  cases labels <;> rfl

/-- A merged patch overrides the labels by those it was made for. -/
theorem lookup_mergePatch {old target : LabelSet} :
    (mergePatch old (shouldPatchLabel old target)).lookup key =
      (target.lookup key).or (old.lookup key) := by
  have patched : (shouldPatchLabel old target).lookup key =
      (target.lookup key).filter fun val => old.lookup key ≠ some val := by
    rw [shouldPatchLabel, lookup_insertSome target.nodupKeys]
    simp
    rfl
  cases wanted : target.lookup key with
  | none =>
    have outside : key ∉ shouldPatchLabel old target := by
      rw [← AList.lookup_eq_none, patched, wanted]
      rfl
    rw [mergePatch, AList.lookup_union_right outside]
    rfl
  | some val =>
    by_cases kept : old.lookup key = some val
    · have outside : key ∉ shouldPatchLabel old target := by
        rw [← AList.lookup_eq_none, patched, wanted]
        simp [Option.filter, kept]
      rw [mergePatch, AList.lookup_union_right outside, kept]
      rfl
    · have written : (shouldPatchLabel old target).lookup key = some val := by
        rw [patched, wanted]
        simp [Option.filter, kept]
      have inside : key ∈ shouldPatchLabel old target := by
        rw [← AList.lookup_isSome, written]
        rfl
      rw [mergePatch, AList.lookup_union_left inside, written]
      rfl

/-- Where the patch at start-up reports no error it leaves the labels the webhook leaves, and
neither changes them again; and an object that is patched has its own labels, overridden by those
the webhook gives it. -/
theorem labelling_agrees (different : flags.namespaceShardLabel ≠ flags.shardHashLabel)
    (name : String) (labels : LabelSet) :
    (∀ labels' changed, updateLabel flags name labels = .ok (labels', changed) →
      (∀ key, labels'.lookup key = (shouldUpdateNs flags name labels).1.lookup key) ∧
      ∀ result ∈ [labels', (shouldUpdateNs flags name labels).1],
        shouldUpdateNs flags name result = (result, false) ∧
          updateLabel flags name result = .ok (result, false)) ∧
    ∀ (nsLabels : Option LabelSet) (objLabels : LabelSet) (key : String),
      (mergePatch objLabels (shouldPatchLabel objLabels
        (getShardingLabel flags nsLabels))).lookup key =
        ((getSyncLabels flags nsLabels).lookup key).or (objLabels.lookup key) := by
  constructor
  · intro labels' changed updated
    have patched := lookup_updateLabel different updated
    have admitted := lookup_shouldUpdateNs flags name labels
    refine ⟨fun key => (patched key).trans (admitted key).symm, fun result member => ?_⟩
    rcases List.mem_pair.mp member with rfl | rfl
    · exact unchanged_of_stamped different patched
    · exact unchanged_of_stamped different admitted
  · intro nsLabels objLabels key
    rw [getShardingLabel_eq]
    exact lookup_mergePatch

/-- A namespace that was labelled under another name. -/
def renamedLabels : LabelSet :=
  ((AList.singleton "ctrlmesh.kusionstack.io/control" "true").insert
    "ctrlmesh.kusionstack.io/namespace" "other").insert "team" "mesh"

theorem labelling_agrees_renamed :
    (∀ labels' changed, updateLabel {} "default" renamedLabels = .ok (labels', changed) →
      (∀ key, labels'.lookup key = (shouldUpdateNs {} "default" renamedLabels).1.lookup key) ∧
      ∀ result ∈ [labels', (shouldUpdateNs {} "default" renamedLabels).1],
        shouldUpdateNs {} "default" result = (result, false) ∧
          updateLabel {} "default" result = .ok (result, false)) ∧
    ∀ (nsLabels : Option LabelSet) (objLabels : LabelSet) (key : String),
      (mergePatch objLabels (shouldPatchLabel objLabels
        (getShardingLabel {} nsLabels))).lookup key =
        ((getSyncLabels {} nsLabels).lookup key).or (objLabels.lookup key) :=
  labelling_agrees (by decide) "default" renamedLabels

end CtrlMesh.Sharding
