import CtrlMesh.Api.Proto
import CtrlMesh.Lib.Wire

/-!
# The specification files of a proxy

`storage` of `pkg/proxy/proto`: the expected and the current specification are each kept in a file,
so that a restarted proxy finds them again. A file is opened without truncation, read to its end
once and written where the last access left off. A process that stops loses the offsets only.
-/

namespace CtrlMesh.Proxy

open Api Lib.Wire

/-- The encoding of an `APIGroupResource`. -/
def apiGroupResource : Message APIGroupResource :=
  (Message.cons 1 Slot.strings (Message.cons 2 Slot.strings Message.nil (by decide))
    (by decide)).iso (fun (groups, resources, ()) => ⟨groups, resources⟩)
    (fun value => (value.apiGroups, value.resources, ())) (fun _ => rfl) (fun _ => rfl)

/-- The encoding of a `Limit`. -/
def limit : Message Limit :=
  (Message.cons 1 Slot.string (Message.cons 2 (Slot.messages apiGroupResource) Message.nil
    (by decide)) (by decide)).iso (fun (selector, resources, ()) => ⟨selector, resources⟩)
    (fun value => (value.objectSelector, value.resources, ())) (fun _ => rfl) (fun _ => rfl)

/-- The encoding of an `Endpoint`. -/
def endpoint : Message Endpoint :=
  (Message.cons 1 Slot.string (Message.cons 2 Slot.string (Message.cons 3 Slot.string
    (Message.cons 4 (Slot.messages limit) Message.nil (by decide)) (by decide)) (by decide))
    (by decide)).iso (fun (name, ip, shardName, limits, ()) => ⟨name, ip, shardName, limits⟩)
    (fun value => (value.name, value.ip, value.shardName, value.limits, ())) (fun _ => rfl)
    (fun _ => rfl)

/-- The encoding of a `SpecMeta`. -/
def specMeta : Message SpecMeta :=
  (Message.cons 1 Slot.string (Message.cons 2 Slot.string Message.nil (by decide))
    (by decide)).iso (fun (shardName, hash, ()) => ⟨shardName, hash⟩)
    (fun value => (value.shardName, value.hash, ())) (fun _ => rfl) (fun _ => rfl)

/-- The encoding of a `ProxySpec`. -/
def proxySpec : Message ProxySpec :=
  (Message.cons 1 (Slot.submessage specMeta) (Message.cons 2 (Slot.messages limit)
    (Message.cons 3 (Slot.messages endpoint) Message.nil (by decide)) (by decide))
    (by decide)).iso (fun (specMeta, limits, endpoints, ()) => ⟨specMeta, limits, endpoints⟩)
    (fun value => (value.specMeta, value.limits, value.endpoints, ())) (fun _ => rfl)
    (fun _ => rfl)

/-- An open file; the contents outlive the process. -/
structure File where
  content : Bytes
  offset : Nat

namespace File

/-- `os.OpenFile(_, os.O_RDWR|os.O_CREATE, _)`. -/
def openFile (content : Bytes) : File := ⟨content, 0⟩

/-- `io.ReadAll`. -/
def readAll (file : File) : Bytes × File :=
  (file.content.drop file.offset, { file with offset := max file.offset file.content.length })

/-- `(*os.File).Write`; a gap before the offset would be filled with zeros. -/
def write (file : File) (bytes : Bytes) : File where
  content := file.content.take file.offset ++
    List.replicate (file.offset - file.content.length) 0 ++ bytes ++
    file.content.drop (file.offset + bytes.length)
  offset := file.offset + bytes.length

end File

/-- `storage`: the two files. -/
structure Storage where
  expectedSpecFile : File
  currentSpecFile : File

/-- `newStorage`, over the contents of the two files. -/
def newStorage (expected current : Bytes) : Storage :=
  ⟨File.openFile expected, File.openFile current⟩

/-- The specification in a file; an empty file holds none. -/
def parseSpec (bytes : Bytes) : Except String (Option ProxySpec) :=
  if bytes.length > 0 then
    match proxySpec.unmarshal bytes with
    | none => throw "proto: cannot parse invalid wire-format data"
    | some spec => pure (some spec)
  else pure none

/-- `storage.loadData`. -/
def Storage.loadData (s : Storage) :
    Except String (Option ProxySpec × Option ProxySpec) × Storage :=
  let (expectedSpecBytes, expectedSpecFile) := s.expectedSpecFile.readAll
  let (currentSpecBytes, currentSpecFile) := s.currentSpecFile.readAll
  (do
    let expectedSpec ← parseSpec expectedSpecBytes
    let currentSpec ← parseSpec currentSpecBytes
    return (expectedSpec, currentSpec), ⟨expectedSpecFile, currentSpecFile⟩)

/-- The error of `mockFailure` while the blocking file exists. -/
def mockFailure (blocked : Bool) : Except String Unit :=
  if blocked then throw "mock failure for /ctrlmesh/mock-proto-manage-failure exists" else pure ()

/-- The body both writes share. -/
def File.writeSpec (file : File) (blocked : Bool) (spec : ProxySpec) : Except String File := do
  mockFailure blocked
  return file.write (proxySpec.marshal spec)

/-- `storage.writeExpectedSpec`. -/
def Storage.writeExpectedSpec (s : Storage) (blocked : Bool) (spec : ProxySpec) :
    Except String Storage := do
  let file ← s.expectedSpecFile.writeSpec blocked spec
  return { s with expectedSpecFile := file }

/-- `storage.writeCurrentSpec`. -/
def Storage.writeCurrentSpec (s : Storage) (blocked : Bool) (spec : ProxySpec) :
    Except String Storage := do
  let file ← s.currentSpecFile.writeSpec blocked spec
  return { s with currentSpecFile := file }

/-- A write, or a restart of the process. -/
inductive Event where
  | writeExpected (blocked : Bool) (spec : ProxySpec)
  | writeCurrent (blocked : Bool) (spec : ProxySpec)
  | restart

/-- A new process opens the files and reads them. -/
def Storage.restart (s : Storage) : Storage :=
  (newStorage s.expectedSpecFile.content s.currentSpecFile.content).loadData.2

/-- A failed write leaves the files alone. -/
def Storage.step (s : Storage) : Event → Storage
  | .writeExpected blocked spec => (s.writeExpectedSpec blocked spec).toOption.getD s
  | .writeCurrent blocked spec => (s.writeCurrentSpec blocked spec).toOption.getD s
  | .restart => s.restart

/-- The storage after a history, from the first start of a proxy. -/
def run (events : List Event) : Storage := events.foldl Storage.step (newStorage [] []).loadData.2

/-- What the next process loads. -/
def reload (events : List Event) : Except String (Option ProxySpec × Option ProxySpec) :=
  (newStorage (run events).expectedSpecFile.content
    (run events).currentSpecFile.content).loadData.1

/-- The specification an event writes to the expected file. -/
def Event.expectedWrite : Event → List ProxySpec
  | .writeExpected false spec => [spec]
  | _ => []

/-- The specification an event writes to the current file. -/
def Event.currentWrite : Event → List ProxySpec
  | .writeCurrent false spec => [spec]
  | _ => []

/-- What was written as expected. -/
def expectedWrites (events : List Event) : List ProxySpec := events.flatMap Event.expectedWrite

/-- What was written as current. -/
def currentWrites (events : List Event) : List ProxySpec := events.flatMap Event.currentWrite

/-- The file holds the encodings of all writes, and the next one goes to its end. -/
structure Appended (file : File) (writes : List ProxySpec) : Prop where
  content : file.content = writes.flatMap proxySpec.marshal
  atEnd : file.offset = file.content.length

variable {file : File} {writes : List ProxySpec}

theorem Appended.write (appended : Appended file writes) (spec : ProxySpec) :
    Appended (file.write (proxySpec.marshal spec)) (writes ++ [spec]) := by
  have content : (file.write (proxySpec.marshal spec)).content =
      file.content ++ proxySpec.marshal spec := by
    simp [File.write, appended.atEnd]
  constructor
  · rw [content, appended.content, List.flatMap_append]
    simp
  · rw [content, List.length_append, ← appended.atEnd]
    rfl

theorem Appended.idle (appended : Appended file writes) : Appended file (writes ++ []) := by
  rwa [List.append_nil]

/-- Reading a reopened file puts the next write at its end again. -/
theorem Appended.reopen (appended : Appended file writes) :
    Appended (File.openFile file.content).readAll.2 (writes ++ []) := by
  constructor
  · rw [List.append_nil]
    exact appended.content
  · simp [File.openFile, File.readAll]

/-- Both files of a storage hold all their writes. -/
structure Storage.Holds (s : Storage) (expected current : List ProxySpec) : Prop where
  expectedFile : Appended s.expectedSpecFile expected
  currentFile : Appended s.currentSpecFile current

variable {s : Storage} {expected current : List ProxySpec} {old : SpecMeta}

theorem Storage.Holds.step (holds : s.Holds expected current) (event : Event) :
    (s.step event).Holds (expected ++ event.expectedWrite) (current ++ event.currentWrite) := by
  cases event with
  | writeExpected blocked spec =>
    cases blocked with
    | false => exact ⟨holds.expectedFile.write spec, holds.currentFile.idle⟩
    | true => exact ⟨holds.expectedFile.idle, holds.currentFile.idle⟩
  | writeCurrent blocked spec =>
    cases blocked with
    | false => exact ⟨holds.expectedFile.idle, holds.currentFile.write spec⟩
    | true => exact ⟨holds.expectedFile.idle, holds.currentFile.idle⟩
  | restart => exact ⟨holds.expectedFile.reopen, holds.currentFile.reopen⟩

theorem Storage.Holds.run (holds : s.Holds expected current) (events : List Event) :
    (events.foldl Storage.step s).Holds (expected ++ expectedWrites events)
      (current ++ currentWrites events) := by
  induction events generalizing s expected current with
  | nil => exact ⟨holds.expectedFile.idle, holds.currentFile.idle⟩
  | cons event events ih =>
    have later := ih (holds.step event)
    simpa [expectedWrites, currentWrites] using later

/-- After every history each file holds the encodings of all its writes, one after another. -/
theorem run_holds (events : List Event) :
    (run events).Holds (expectedWrites events) (currentWrites events) := by
  have started : (newStorage [] []).loadData.2.Holds [] [] := ⟨⟨rfl, rfl⟩, ⟨rfl, rfl⟩⟩
  exact started.run events

/-- What a file with the given writes is loaded as. -/
def merged (writes : List ProxySpec) : Option ProxySpec :=
  if writes.flatMap proxySpec.marshal = [] then none
  else some (writes.foldl proxySpec.merge proxySpec.empty)

theorem parseSpec_concat : parseSpec (writes.flatMap proxySpec.marshal) = .ok (merged writes) := by
  by_cases empty : writes.flatMap proxySpec.marshal = []
  · simp [parseSpec, merged, empty]
    rfl
  · have nonempty : (writes.flatMap proxySpec.marshal).length > 0 := List.length_pos_iff.mpr empty
    rw [parseSpec, if_pos nonempty, proxySpec.unmarshal_concat, merged, if_neg empty]
    rfl

/-- A new process loads the merge of all writes. -/
theorem reload_eq (events : List Event) :
    reload events = .ok (merged (expectedWrites events), merged (currentWrites events)) := by
  have holds := run_holds events
  have expected := holds.expectedFile.content
  have current := holds.currentFile.content
  simp only [reload, newStorage, Storage.loadData, File.openFile, File.readAll, List.drop_zero,
    expected, current, parseSpec_concat]
  rfl

/-- Later meta data sets every field that earlier meta data set. -/
def HidesMeta (last earlier : Option SpecMeta) : Prop :=
  ∀ old, earlier = some old → ∃ new, last = some new ∧
    (new.shardName = "" → old.shardName = "") ∧ (new.hash = "" → old.hash = "")

/-- A later specification hides an earlier one that leaves it no element to append to and no field
to inherit. -/
def Hides (last earlier : ProxySpec) : Prop :=
  earlier.limits = [] ∧ earlier.endpoints = [] ∧ HidesMeta last.specMeta earlier.specMeta

/-- Merging of meta data, field by field. -/
def mergeMeta : Option SpecMeta → Option SpecMeta → Option SpecMeta :=
  (Slot.submessage specMeta).merge

theorem mergeMeta_some (new : SpecMeta) : mergeMeta (some old) (some new) =
    some ⟨if new.shardName = "" then old.shardName else new.shardName,
      if new.hash = "" then old.hash else new.hash⟩ := rfl

theorem mergeMeta_none_left {new : Option SpecMeta} : mergeMeta none new = new :=
  (Slot.submessage specMeta).merge_empty new

theorem mergeMeta_none_right (old : Option SpecMeta) : mergeMeta old none = old := rfl

theorem merge_eq (into value : ProxySpec) : proxySpec.merge into value =
    { specMeta := mergeMeta into.specMeta value.specMeta
      limits := into.limits ++ value.limits
      endpoints := into.endpoints ++ value.endpoints } := rfl

theorem hidesMeta_none {last : Option SpecMeta} : HidesMeta last none := by
  intro old impossible
  cases impossible

theorem hidesMeta_some {new : SpecMeta} : HidesMeta (some new) (some old) ↔
    (new.shardName = "" → old.shardName = "") ∧ (new.hash = "" → old.hash = "") := by
  simp [HidesMeta]

theorem not_hidesMeta_none : ¬HidesMeta none (some old) := by
  simp [HidesMeta]

theorem mergeMeta_eq_right_iff (earlier last : Option SpecMeta) :
    mergeMeta earlier last = last ↔ HidesMeta last earlier := by
  cases earlier with
  | none => exact iff_of_true mergeMeta_none_left hidesMeta_none
  | some old =>
    cases last with
    | none => exact iff_of_false (by simp [mergeMeta_none_right]) not_hidesMeta_none
    | some new =>
      rw [mergeMeta_some, hidesMeta_some, Option.some.injEq]
      obtain ⟨name, hash⟩ := new
      by_cases named : name = "" <;> by_cases hashed : hash = "" <;> simp [named, hashed]

theorem hidesMeta_merge (last earlier next : Option SpecMeta) :
    HidesMeta last (mergeMeta earlier next) ↔ HidesMeta last earlier ∧ HidesMeta last next := by
  cases earlier with
  | none => simp [mergeMeta_none_left, hidesMeta_none]
  | some old =>
    cases next with
    | none => simp [mergeMeta_none_right, hidesMeta_none]
    | some new =>
      rw [mergeMeta_some]
      cases last with
      | none => simp [not_hidesMeta_none]
      | some last =>
        rw [hidesMeta_some, hidesMeta_some, hidesMeta_some]
        by_cases named : new.shardName = "" <;> by_cases hashed : new.hash = "" <;>
          simp [named, hashed] <;> tauto

variable {last : ProxySpec}

/-- Merging a specification into one it hides gives back the specification. -/
theorem merge_eq_right_iff (earlier : ProxySpec) :
    proxySpec.merge earlier last = last ↔ Hides last earlier := by
  rw [merge_eq, Hides, ← mergeMeta_eq_right_iff]
  obtain ⟨lastMeta, limits, endpoints⟩ := last
  rw [ProxySpec.mk.injEq]
  constructor
  · rintro ⟨sameMeta, sameLimits, sameEndpoints⟩
    exact ⟨by simpa using sameLimits, by simpa using sameEndpoints, sameMeta⟩
  · rintro ⟨noLimits, noEndpoints, sameMeta⟩
    exact ⟨sameMeta, by simp [noLimits], by simp [noEndpoints]⟩

theorem hides_merge (earlier next : ProxySpec) :
    Hides last (proxySpec.merge earlier next) ↔ Hides last earlier ∧ Hides last next := by
  simp only [Hides, merge_eq, hidesMeta_merge, List.append_eq_nil_iff]
  tauto

theorem hides_empty : Hides last proxySpec.empty :=
  ⟨rfl, rfl, hidesMeta_none⟩

theorem hides_foldl (earlier : List ProxySpec) (into : ProxySpec) :
    Hides last (earlier.foldl proxySpec.merge into) ↔
      Hides last into ∧ ∀ spec ∈ earlier, Hides last spec := by
  induction earlier generalizing into with
  | nil => simp
  | cons spec earlier ih =>
    rw [List.foldl_cons, ih, hides_merge, List.forall_mem_cons, and_assoc]

/-- The empty specification hides only itself. -/
theorem eq_empty_of_hides_empty {spec : ProxySpec} (hidden : Hides proxySpec.empty spec) :
    spec = proxySpec.empty := by
  obtain ⟨noLimits, noEndpoints, noMeta⟩ := hidden
  obtain ⟨specMeta, limits, endpoints⟩ := spec
  obtain rfl : limits = [] := noLimits
  obtain rfl : endpoints = [] := noEndpoints
  cases specMeta with
  | none => rfl
  | some old => exact absurd noMeta not_hidesMeta_none

/-- The last write to a file is not empty and hides all earlier ones. -/
def Survives (writes : List ProxySpec) : Prop :=
  ∀ last, writes.getLast? = some last →
    last ≠ ⟨none, [], []⟩ ∧ ∀ earlier ∈ writes.dropLast, Hides last earlier

theorem flatMap_marshal_eq_nil :
    writes.flatMap proxySpec.marshal = [] ↔ ∀ spec ∈ writes, spec = proxySpec.empty := by
  rw [List.flatMap_eq_nil_iff]
  simp only [Message.marshal_eq_nil]

/-- A file is loaded as its last write exactly when that write survives. -/
theorem merged_eq_getLast_iff : merged writes = writes.getLast? ↔ Survives writes := by
  rcases List.eq_nil_or_concat writes with rfl | ⟨earlier, last, rfl⟩
  · simp [merged, Survives]
  · rw [List.concat_eq_append, Survives, List.getLast?_concat, List.dropLast_concat]
    have read : (earlier ++ [last]).foldl proxySpec.merge proxySpec.empty = last ↔
        ∀ spec ∈ earlier, Hides last spec := by
      rw [List.foldl_append, List.foldl_cons, List.foldl_nil, merge_eq_right_iff, hides_foldl]
      exact and_iff_right hides_empty
    simp only [Option.some.injEq, forall_eq', merged]
    constructor
    · intro same
      split at same
      · cases same
      · next nonempty =>
        have hidden := read.mp (Option.some.inj same)
        refine ⟨?_, hidden⟩
        rintro rfl
        apply nonempty
        rw [flatMap_marshal_eq_nil]
        intro spec member
        rcases List.mem_append.mp member with before | here
        · exact eq_empty_of_hides_empty (hidden spec before)
        · exact List.mem_singleton.mp here
    · rintro ⟨set, hidden⟩
      have nonempty : (earlier ++ [last]).flatMap proxySpec.marshal ≠ [] := by
        rw [ne_eq, flatMap_marshal_eq_nil]
        exact fun empty => set (empty last (by simp))
      rw [if_neg nonempty, read.mpr hidden]

/-- A new process finds the last specification written to each file exactly when no earlier write
shows through and the last one is not empty. -/
theorem reload_last_iff (events : List Event) :
    reload events = .ok ((expectedWrites events).getLast?, (currentWrites events).getLast?) ↔
      Survives (expectedWrites events) ∧ Survives (currentWrites events) := by
  rw [reload_eq, Except.ok.injEq, Prod.mk.injEq, merged_eq_getLast_iff, merged_eq_getLast_iff]

/-- A specification of one limit. -/
def sampleSpec (hash : String) : ProxySpec :=
  ⟨some ⟨"shard", hash⟩, [⟨"null", []⟩], []⟩

/-- After two writes the limits of both are loaded. -/
theorem reload_keeps_earlier_limits :
    ¬∀ events : List Event, reload events =
      .ok ((expectedWrites events).getLast?, (currentWrites events).getLast?) := by
  intro last
  have loaded := last [.writeExpected false (sampleSpec "a"), .writeExpected false (sampleSpec "b")]
  rw [reload_eq, Except.ok.injEq, Prod.mk.injEq, merged_eq_getLast_iff] at loaded
  have hidden := (loaded.1 (sampleSpec "b") rfl).2 (sampleSpec "a") (by decide)
  exact absurd hidden.1 (by decide)

end CtrlMesh.Proxy
