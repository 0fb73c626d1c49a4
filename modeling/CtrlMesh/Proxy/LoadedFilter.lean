import CtrlMesh.Proxy.Injector
import CtrlMesh.Proxy.LoadState
import CtrlMesh.Proxy.Process

/-!
# A loaded filter

Once a proxy has loaded a specification, its controller should see the same objects for good. A
specification with other limits has another hash and is refused, but it is written to the file of
the expected one all the same; a new process reads that file as one specification with the limits of
all writes, under the name and the hash of the last. If that write was one that can be loaded, so
are the limits of those that were refused. Otherwise only limits of the first specification are
repeated, and a limit that comes again changes nothing.
-/

namespace CtrlMesh.Proxy.Process

open Labels Lib Api

/-- The two specifications restrict the same resources, and to the same objects. -/
def SameFilter (unmarshal : String → LabelSelector) (spec spec' : ProxySpec) : Prop :=
  ∀ gr, ((convertProtoSpecToInternal unmarshal spec).getObjectSelector gr).isSome =
      ((convertProtoSpecToInternal unmarshal spec').getObjectSelector gr).isSome ∧
    ∀ ls,
      labelSelectorMatches ((convertProtoSpecToInternal unmarshal spec).getObjectSelector gr) ls =
        labelSelectorMatches ((convertProtoSpecToInternal unmarshal spec').getObjectSelector gr) ls

/-- From the first state on in which the proxy has a current specification, every process has one of
the same shard and hash that filters alike. -/
def KeepsFilter (unmarshal : String → LabelSelector) (enc : Encoder) (events : List Event) : Prop :=
  ∀ before after w sm current, events = before ++ after →
    Lib.run (step enc) .start before = some w → w.specManager = some sm →
    sm.currentSpec = some current →
      Along (step enc) (fun w' => ∀ sm' ∈ w'.specManager, ∃ current' ∈ sm'.currentSpec,
        Agrees current current' ∧ SameFilter unmarshal current current') w after

/-- The specification that a new process finds in a file. -/
def loaded (file : File) : Option ProxySpec := (parseSpec file.content).toOption.join

/-- The condition on a step: if a new process will load the expected specification over the current
one, it has no other limits. -/
def Careful (w : State) : Event → Prop
  | .update _ _ => True
  | .restart _ => ∀ expected ∈ loaded w.storage.expectedSpecFile,
    ∀ current ∈ loaded w.storage.currentSpecFile, Agrees current expected →
      expected.limits ⊆ current.limits

/-- The limits of the specifications that arrive in a run. -/
def limitsGiven (enc : Encoder)
    (events : List Event) : Set (List Limit) :=
  {limits | ∃ cfg faults, .update cfg faults ∈ events ∧
    (generateProtoConfig enc cfg).limits = limits}

section

variable {spec old current : ProxySpec} {writes : List ProxySpec} {shardName : String}
  {limits : List Limit} {enc : Encoder} {unmarshal : String → LabelSelector}

/-- A text of the meta data that is set stands, and one that is not set leaves the earlier one. -/
theorem merge_text {text : SpecMeta → String}
    (merges : ∀ old new, (mergeMeta (some old) (some new)).map text =
      some (if text new = "" then text old else text new)) :
    ((proxySpec.merge old spec).specMeta.map text).getD "" =
      if (spec.specMeta.map text).getD "" = "" then (old.specMeta.map text).getD ""
      else (spec.specMeta.map text).getD "" := by
  rw [merge_eq]
  cases old.specMeta with
  | none =>
    rw [mergeMeta_none_left]
    by_cases unset : (spec.specMeta.map text).getD "" = ""
    · rw [if_pos unset]
      exact unset
    · rw [if_neg unset]
  | some old =>
    cases spec.specMeta with
    | none => rfl
    | some new =>
      dsimp only
      rw [merges old new]
      rfl

theorem hash_merge :
    (proxySpec.merge old spec).hash = if spec.hash = "" then old.hash else spec.hash :=
  merge_text (fun _ _ => rfl)

theorem shardName_merge : (proxySpec.merge old spec).shardName =
    if spec.shardName = "" then old.shardName else spec.shardName :=
  merge_text (fun _ _ => rfl)

theorem getD_merged :
    (merged writes).getD proxySpec.empty = writes.foldl proxySpec.merge proxySpec.empty := by
  unfold merged
  split
  · next nothing =>
    rw [flatMap_marshal_eq_nil] at nothing
    induction writes with
    | nil => rfl
    | cons spec writes ih =>
      have ⟨first, rest⟩ := List.forall_mem_cons.mp nothing
      rw [List.foldl_cons, first, proxySpec.merge_empty]
      exact ih rest
  · rfl

/-- A file after one more write. -/
theorem merged_concat (hashed : spec.hash ≠ "") :
    merged (writes ++ [spec]) =
      some (proxySpec.merge ((merged writes).getD proxySpec.empty) spec) := by
  have nonempty : (writes ++ [spec]).flatMap proxySpec.marshal ≠ [] := by
    rw [ne_eq, flatMap_marshal_eq_nil]
    intro empty
    rw [empty spec (by simp)] at hashed
    exact hashed rfl
  rw [merged, if_neg nonempty, List.foldl_append, List.foldl_cons, List.foldl_nil, getD_merged]

variable (enc) in
/-- A specification of the shard under the hash of the limits. It has them at its end, and others
only that are among them. -/
structure Fits (shardName : String) (limits : List Limit) (spec : ProxySpec) : Prop where
  shardName : spec.shardName = shardName
  hash : spec.hash = enc.hash limits
  repeats : ∃ earlier, spec.limits = earlier ++ limits ∧ earlier ⊆ limits

theorem Fits.agrees (left : Fits enc shardName limits spec)
    (right : Fits enc shardName limits current) : Agrees spec current :=
  ⟨left.shardName.trans right.shardName.symm, left.hash.trans right.hash.symm⟩

theorem Fits.merge (left : Fits enc shardName limits old) (right : Fits enc shardName limits spec) :
    Fits enc shardName limits (proxySpec.merge old spec) := by
  refine ⟨?_, ?_, ?_⟩
  · rw [shardName_merge, left.shardName, right.shardName, ite_self]
  · rw [hash_merge, left.hash, right.hash, ite_self]
  · obtain ⟨before, oldIs, oldAgain⟩ := left.repeats
    obtain ⟨between, newIs, newAgain⟩ := right.repeats
    refine ⟨before ++ limits ++ between, ?_, ?_⟩
    · simp only [merge_eq, oldIs, newIs, List.append_assoc]
    · simp [oldAgain, newAgain]

theorem selectorsOf_append (early late : List Limit) (gr : GroupResource) :
    selectorsOf unmarshal (early ++ late) gr =
      selectorsOf unmarshal early gr ++ selectorsOf unmarshal late gr :=
  List.filterMap_append

/-- Limits that come again do not matter. -/
theorem Fits.filter (fits : Fits enc shardName limits spec) (unmarshal : String → LabelSelector) :
    SameFilter unmarshal spec ⟨none, limits, []⟩ := by
  intro gr
  obtain ⟨earlier, same, again⟩ := fits.repeats
  have subset : selectorsOf unmarshal earlier gr ⊆ selectorsOf unmarshal limits gr :=
    List.filterMap_subset _ again
  rw [getObjectSelector_converted, getObjectSelector_converted, same, selectorsOf_append]
  exact mergeAll_append_of_subset subset

theorem Fits.sameFilter (left : Fits enc shardName limits spec)
    (right : Fits enc shardName limits current) : SameFilter unmarshal spec current := by
  intro gr
  obtain ⟨leftSome, leftMatches⟩ := left.filter unmarshal gr
  obtain ⟨rightSome, rightMatches⟩ := right.filter unmarshal gr
  exact ⟨leftSome.trans rightSome.symm, fun ls => (leftMatches ls).trans (rightMatches ls).symm⟩

end

section

variable {j j' : Journal} {sm : SpecManager} {spec : ProxySpec} {shardName : String}
  {limits : List Limit} {enc : Encoder} {given : Set (List Limit)}

theorem agrees_of_checkLoadable {current : ProxySpec}
    (checked : SpecManager.checkLoadable (some current) spec = .ok ()) : Agrees current spec := by
  simp only [SpecManager.checkLoadable] at checked
  split at checked
  · cases checked
  next shard =>
  split at checked
  · cases checked
  next hash => exact ⟨not_not.mp shard, not_not.mp hash⟩

/-- What `UpdateSpec` does with its two writes. -/
theorem Journal.updateSpec_cases (j : Journal) {faults : Faults} :
    j.updateSpec sm spec faults = { j with specManager := none } ∨
    (∃ sm', sm'.currentSpec = sm.currentSpec ∧ sm.currentSpec ≠ none ∧
      j.updateSpec sm spec faults = ⟨j.expected ++ [spec], j.current, some sm'⟩) ∨
    (∀ current ∈ sm.currentSpec, Agrees current spec) ∧
      (j.updateSpec sm spec faults = ⟨j.expected ++ [spec], j.current, none⟩ ∨
        ∃ sm', sm'.currentSpec = some spec ∧ j.updateSpec sm spec faults =
          ⟨j.expected ++ [spec], j.current ++ [spec], some sm'⟩) := by
  have accepted (checked : SpecManager.checkLoadable sm.currentSpec spec = .ok ()) :
      (sm.updateSpec spec).currentSpec = some spec := by
    rw [SpecManager.updateSpec, checked]
  have refused {reason : String} (checked : SpecManager.checkLoadable sm.currentSpec spec =
      .error reason) : (sm.updateSpec spec).currentSpec = sm.currentSpec := by
    rw [SpecManager.updateSpec, checked]
  unfold updateSpec
  split
  · exact .inl rfl
  split
  · next reason checked =>
    refine .inr (.inl ⟨_, refused checked, fun absent => ?_, rfl⟩)
    rw [absent] at checked
    cases checked
  · next checked =>
    refine .inr (.inr ⟨fun current held => ?_, ?_⟩)
    · rw [held] at checked
      exact agrees_of_checkLoadable checked
    · split
      · exact .inl rfl
      · exact .inr ⟨_, accepted checked, rfl⟩

variable (enc given) in
/-- Nothing is loaded yet. There is an expected specification only if the process stopped before it
was loaded. -/
structure Unloaded (j : Journal) : Prop where
  current : j.current = []
  manager : ∀ sm ∈ j.specManager, sm.currentSpec = none ∧ merged j.expected = none
  expected : ∀ spec ∈ merged j.expected, ∃ shardName, ∃ limits ∈ given,
    Fits enc shardName limits spec

variable (enc) in
/-- A specification with the limits is loaded. -/
structure Loaded (shardName : String) (limits : List Limit) (j : Journal) : Prop where
  current : ∃ spec ∈ merged j.current, Fits enc shardName limits spec
  manager : ∀ sm ∈ j.specManager, ∃ spec ∈ sm.currentSpec, Fits enc shardName limits spec
  expected : ∀ spec ∈ merged j.expected, spec.hash ≠ "" ∧
    (spec.hash = enc.hash limits → limits <:+ spec.limits)

/-- The expected file after one more write. -/
theorem expected_concat (writes : List ProxySpec) (hashed : spec.hash ≠ "")
    (ends : spec.hash = enc.hash limits → limits <:+ spec.limits) :
    ∀ spec' ∈ merged (writes ++ [spec]), spec'.hash ≠ "" ∧
      (spec'.hash = enc.hash limits → limits <:+ spec'.limits) := by
  rw [merged_concat hashed]
  rintro spec' ⟨⟩
  rw [hash_merge, if_neg hashed]
  exact ⟨hashed, fun same => (ends same).trans (List.suffix_append _ _)⟩

/-- A specification arrives, or is read back from its file. -/
theorem Loaded.updateSpec (loaded : Loaded enc shardName limits j)
    (held : ∃ current ∈ sm.currentSpec, Fits enc shardName limits current) (hashed : spec.hash ≠ "")
    (ends : spec.hash = enc.hash limits → limits <:+ spec.limits)
    (fits : ∀ current ∈ sm.currentSpec, Agrees current spec → Fits enc shardName limits spec)
    (faults : Faults) : Loaded enc shardName limits (j.updateSpec sm spec faults) := by
  have expected := expected_concat j.expected hashed ends
  obtain ⟨old, oldHeld, oldFits⟩ := held
  obtain same | ⟨sm', kept, -, same⟩ | ⟨agrees, same | ⟨sm', taken, same⟩⟩ := j.updateSpec_cases
  · rw [same]
    exact ⟨loaded.current, nofun, loaded.expected⟩
  · rw [same]
    refine ⟨loaded.current, ?_, expected⟩
    rintro _ ⟨⟩
    exact ⟨old, kept.trans oldHeld, oldFits⟩
  · rw [same]
    exact ⟨loaded.current, nofun, expected⟩
  · have new : Fits enc shardName limits spec := fits old oldHeld (agrees old oldHeld)
    obtain ⟨current, read, currentFits⟩ := loaded.current
    rw [same]
    refine ⟨⟨proxySpec.merge current spec, ?_, currentFits.merge new⟩, ?_, expected⟩
    · rw [merged_concat hashed, read]
      rfl
    · rintro _ ⟨⟩
      exact ⟨spec, taken, new⟩

/-- The first specification, or what is read back of it. -/
theorem Unloaded.updateSpec (unloaded : Unloaded enc given j) (unheld : sm.currentSpec = none)
    (earlier : ∀ old ∈ merged j.expected, Fits enc shardName limits old) (member : limits ∈ given)
    (hashed : enc.hash limits ≠ "") (fits : Fits enc shardName limits spec) (faults : Faults) :
    Unloaded enc given (j.updateSpec sm spec faults) ∨
      Loaded enc shardName limits (j.updateSpec sm spec faults) := by
  have hashed : spec.hash ≠ "" := fits.hash ▸ hashed
  have expected : ∃ spec', merged (j.expected ++ [spec]) = some spec' ∧
      Fits enc shardName limits spec' := by
    rw [merged_concat hashed]
    cases read : merged j.expected with
    | none => exact ⟨spec, congrArg some (proxySpec.merge_empty spec), fits⟩
    | some old => exact ⟨proxySpec.merge old spec, rfl, (earlier old read).merge fits⟩
  obtain ⟨spec', read, fits'⟩ := expected
  obtain same | ⟨sm', -, held, -⟩ | ⟨-, same | ⟨sm', taken, same⟩⟩ := j.updateSpec_cases
  · rw [same]
    exact .inl ⟨unloaded.current, nofun, unloaded.expected⟩
  · exact absurd unheld held
  · rw [same]
    refine .inl ⟨unloaded.current, nofun, ?_⟩
    rw [read]
    rintro _ ⟨⟩
    exact ⟨shardName, limits, member, fits'⟩
  · rw [same]
    refine .inr ⟨⟨spec, ?_, fits⟩, ?_, ?_⟩
    · rw [unloaded.current, merged_concat hashed]
      exact congrArg some (proxySpec.merge_empty spec)
    · rintro _ ⟨⟩
      exact ⟨spec, taken, fits⟩
    · refine expected_concat j.expected hashed fun _ => ?_
      obtain ⟨earlier, same, -⟩ := fits.repeats
      exact ⟨earlier, same.symm⟩

/-- The condition on a step, in terms of the journal. -/
def Journal.Careful (j : Journal) : Event → Prop
  | .update _ _ => True
  | .restart _ => ∀ expected ∈ merged j.expected, ∀ current ∈ merged j.current,
    Agrees current expected → expected.limits ⊆ current.limits

theorem Keeps.careful_iff {w : State} (keeps : Keeps w j) {event : Event} :
    Careful w event ↔ j.Careful event := by
  cases event with
  | update cfg faults => exact Iff.rfl
  | restart faults =>
    have expected : loaded w.storage.expectedSpecFile = merged j.expected := by
      rw [loaded, keeps.files.expectedFile.content, parseSpec_concat]
      rfl
    have current : loaded w.storage.currentSpecFile = merged j.current := by
      rw [loaded, keeps.files.currentFile.content, parseSpec_concat]
      rfl
    rw [Careful, expected, current, Journal.Careful]

variable {events : List Event} {event : Event}

theorem mem_limitsGiven {cfg : ShardingConfig} {faults : Faults}
    (member : .update cfg faults ∈ events) :
    (generateProtoConfig enc cfg).limits ∈ limitsGiven enc events :=
  ⟨cfg, faults, member, rfl⟩

theorem Loaded.step (loaded : Loaded enc shardName limits j)
    (digest : ∀ limits, enc.hash limits ≠ "") (free : Set.InjOn enc.hash (limitsGiven enc events))
    (source : limits ∈ limitsGiven enc events) (member : event ∈ events) (careful : j.Careful event)
    (stepped : j.step enc event = some j') : Loaded enc shardName limits j' := by
  cases event with
  | update cfg faults =>
    obtain ⟨sm, running, rfl⟩ := Option.map_eq_some_iff.mp stepped
    have held := loaded.manager sm running
    have own : enc.hash (generateProtoConfig enc cfg).limits = enc.hash limits →
        (generateProtoConfig enc cfg).limits = limits :=
      free (mem_limitsGiven member) source
    have hashed : (generateProtoConfig enc cfg).hash ≠ "" := digest _
    refine loaded.updateSpec held hashed (fun same => ?_) (fun current read agrees => ?_) faults
    · exact ⟨[], (own same).symm⟩
    · obtain ⟨current', read', fits⟩ := held
      obtain rfl : current = current' := Option.some.inj (read.symm.trans read')
      have hashes : enc.hash (generateProtoConfig enc cfg).limits = enc.hash limits :=
        agrees.2.symm.trans fits.hash
      exact ⟨agrees.1.symm.trans fits.shardName, hashes, [], own hashes, nofun⟩
  | restart faults =>
    cases stepped
    obtain ⟨current, read, fits⟩ := loaded.current
    unfold Journal.restart
    dsimp only
    cases expected : merged j.expected with
    | none =>
      refine ⟨loaded.current, ?_, loaded.expected⟩
      rintro _ ⟨⟩
      exact loaded.current
    | some spec =>
      obtain ⟨hashed, ends⟩ := loaded.expected spec expected
      refine loaded.updateSpec loaded.current hashed ends (fun current' read' agrees => ?_) faults
      obtain rfl : current = current' := Option.some.inj (read.symm.trans read')
      have same : spec.hash = enc.hash limits := agrees.2.symm.trans fits.hash
      obtain ⟨earlier, split⟩ := ends same
      refine ⟨agrees.1.symm.trans fits.shardName, same, earlier, split.symm, fun limit inside => ?_⟩
      -- A limit of the expected file is in the current file, and so among the first ones.
      have inCurrent : limit ∈ current.limits := by
        apply careful spec expected current read agrees
        rw [← split]
        exact List.mem_append_left _ inside
      obtain ⟨repeated, currentIs, again⟩ := fits.repeats
      rw [currentIs] at inCurrent
      obtain early | late := List.mem_append.mp inCurrent
      · exact again early
      · exact late

theorem Unloaded.step (digest : ∀ limits, enc.hash limits ≠ "")
    (unloaded : Unloaded enc (limitsGiven enc events) j) (member : event ∈ events)
    (stepped : j.step enc event = some j') :
    Unloaded enc (limitsGiven enc events) j' ∨
      ∃ shardName, ∃ limits ∈ limitsGiven enc events,
        Loaded enc shardName limits j' := by
  cases event with
  | update cfg faults =>
    obtain ⟨sm, running, rfl⟩ := Option.map_eq_some_iff.mp stepped
    obtain ⟨unheld, unexpected⟩ := unloaded.manager sm running
    have fits : Fits enc (generateProtoConfig enc cfg).shardName
        (generateProtoConfig enc cfg).limits (generateProtoConfig enc cfg) :=
      ⟨rfl, rfl, [], rfl, nofun⟩
    have earlier : ∀ old ∈ merged j.expected, Fits enc
        (generateProtoConfig enc cfg).shardName
        (generateProtoConfig enc cfg).limits old := by
      rw [unexpected]
      exact nofun
    obtain still | now :=
      unloaded.updateSpec unheld earlier (mem_limitsGiven member) (digest _) fits faults
    · exact .inl still
    · exact .inr ⟨_, _, mem_limitsGiven member, now⟩
  | restart faults =>
    cases stepped
    have nothing : merged j.current = none := by
      rw [unloaded.current]
      rfl
    unfold Journal.restart
    rw [nothing]
    dsimp only
    cases expected : merged j.expected with
    | none =>
      refine .inl ⟨unloaded.current, ?_, unloaded.expected⟩
      rintro _ ⟨⟩
      exact ⟨rfl, expected⟩
    | some spec =>
      obtain ⟨shardName, limits, source, fits⟩ := unloaded.expected spec expected
      have earlier : ∀ old ∈ merged j.expected, Fits enc shardName limits old := by
        rw [expected]
        rintro _ ⟨⟩
        exact fits
      have unheld : SpecManager.new.currentSpec = none := rfl
      obtain still | now := unloaded.updateSpec unheld earlier source (digest _) fits faults
      · exact .inl still
      · exact .inr ⟨_, _, source, now⟩

/-- The proxy has loaded nothing, or some specification of the run. -/
def Sound (enc : Encoder) (given : Set (List Limit)) (j : Journal) : Prop :=
  Unloaded enc given j ∨ ∃ shardName, ∃ limits ∈ given, Loaded enc shardName limits j

theorem sound_start : Sound enc given .start := by
  refine .inl ⟨rfl, ?_, nofun⟩
  rintro _ ⟨⟩
  exact ⟨rfl, rfl⟩

theorem Sound.step (digest : ∀ limits, enc.hash limits ≠ "")
    (free : Set.InjOn enc.hash (limitsGiven enc events))
    (sound : Sound enc (limitsGiven enc events) j) (member : event ∈ events)
    (careful : j.Careful event) (stepped : j.step enc event = some j') :
    Sound enc (limitsGiven enc events) j' := by
  obtain unloaded | ⟨shardName, limits, source, loaded⟩ := sound
  · exact unloaded.step digest member stepped
  · exact .inr ⟨shardName, limits, source, loaded.step digest free source member careful stepped⟩

end

variable {enc : Encoder}
  {events : List Event}

/-- An invariant of the journal is one of the process. -/
theorem exists_keeps {sound : Journal → Prop} {condition : Journal → Event → Prop} {w w' : State}
    {event : Event}
    (steps : ∀ j j', sound j → condition j event → j.step enc event = some j' → sound j')
    (kept : ∃ j, Keeps w j ∧ sound j) (met : ∀ j, Keeps w j → condition j event)
    (stepped : step enc w event = some w') : ∃ j, Keeps w' j ∧ sound j := by
  obtain ⟨j, keeps, holds⟩ := kept
  obtain ⟨j', stepped', keeps'⟩ := exists_of_rel_some (keeps_step w j keeps) stepped
  exact ⟨j', keeps', steps j j' holds (met j keeps) stepped'⟩

/-- The filter of a proxy never changes, if the hash tells the given limits apart and no new process
finds other limits under the name and the hash of the current specification. -/
theorem keepsFilter_of_careful (unmarshal : String → LabelSelector) (enc : Encoder)
    (events : List Event) (digest : ∀ limits, enc.hash limits ≠ "")
    (free : Set.InjOn enc.hash (limitsGiven enc events))
    (careful : EachStep (step enc) Careful .start events) : KeepsFilter unmarshal enc events := by
  intro before after w sm current split ran running held
  have each : EachStep (step enc) (fun w event => Careful w event ∧ event ∈ events) .start
      events := by
    intro before event after t t' split ran stepped
    refine ⟨careful before event after t t' split ran stepped, ?_⟩
    rw [split]
    exact List.mem_append_right _ List.mem_cons_self
  have sound : Along (step enc)
      (fun w => ∃ j, Keeps w j ∧ Sound enc (limitsGiven enc events) j)
      .start events := by
    refine along_of_eachStep (fun w event w' kept met stepped => ?_)
      ⟨_, keeps_start, sound_start⟩ each
    refine exists_keeps (fun j j' sound careful stepped => ?_) kept
      (fun j keeps => keeps.careful_iff.mp met.1) stepped
    exact sound.step digest free met.2 careful stepped
  obtain ⟨j, keeps, unloaded | ⟨shardName, limits, source, loaded⟩⟩ :=
    sound before after w split ran
  · have unheld := (unloaded.manager sm (keeps.specManager ▸ running)).1
    rw [held] at unheld
    cases unheld
  have fits : Fits enc shardName limits current := by
    obtain ⟨spec, read, fits⟩ := loaded.manager sm (keeps.specManager ▸ running)
    obtain rfl : current = spec := Option.some.inj (held.symm.trans read)
    exact fits
  subst split
  have later : Along (step enc)
      (fun w => ∃ j, Keeps w j ∧ Loaded enc shardName limits j) w after := by
    refine along_of_eachStep (fun w event w' kept met stepped => ?_) ⟨j, keeps, loaded⟩
      (each.after ran)
    refine exists_keeps (fun j j' loaded careful stepped => ?_) kept
      (fun j keeps => keeps.careful_iff.mp met.1) stepped
    exact loaded.step digest free source met.2 careful stepped
  intro first rest w' split' ran' sm' running'
  obtain ⟨j', keeps', loaded'⟩ := later first rest w' split' ran'
  obtain ⟨current', read', fits'⟩ := loaded'.manager sm' (keeps'.specManager ▸ running')
  exact ⟨current', read', fits.agrees fits', fits.sameFilter fits'⟩

/-- A run is careful if its journal is. -/
theorem careful_of_journal (careful : EachStep (Journal.step enc) Journal.Careful .start events) :
    EachStep (step enc) Careful .start events := by
  intro before event after w w' split ran stepped
  obtain ⟨j, ran', keeps⟩ := exists_of_rel_some keeps_run ran
  obtain ⟨j', stepped', -⟩ := exists_of_rel_some (keeps_step w j keeps) stepped
  exact keeps.careful_iff.mpr (careful before event after j j' split ran' stepped')

instance (j : Journal) : (event : Event) → Decidable (j.Careful event)
  | .update _ _ => isTrue trivial
  | .restart _ => inferInstanceAs (Decidable (∀ expected ∈ merged j.expected,
      ∀ current ∈ merged j.current, Agrees current expected →
        ∀ limit, limit ∈ expected.limits → limit ∈ current.limits))

/-- A ShardingConfig that restricts the pods to those with a label. -/
def shardBy (label : String) : ShardingConfig where
  metadata := { name := "shard", namespace_ := "ns" }
  spec := ⟨none, none, none,
    some [⟨[⟨["pods"], [""]⟩], some ⟨AList.singleton label "a", []⟩⟩], none⟩

/-- A text for each of the selectors that are used here. -/
def labelEncoder : Encoder where
  dumpJSON selector :=
    if (selector.bind (·.matchLabels.lookup "env")).isSome then "env" else "tier"
  hash limits := "hash-" ++ String.join (limits.map (·.objectSelector))

/-- Reads the texts back. -/
def shardRead (label : String) : LabelSelector := ⟨AList.singleton label "a", []⟩

theorem labelEncoder_ne (limits : List Limit) : labelEncoder.hash limits ≠ "" := by
  simp [labelEncoder]

theorem injOn_labelEncoder (known : ∀ cfg faults, .update cfg faults ∈ events →
      cfg = shardBy "env" ∨ cfg = shardBy "tier") :
    Set.InjOn labelEncoder.hash (limitsGiven labelEncoder events) := by
  rintro _ ⟨cfg, faults, member, rfl⟩ _ ⟨cfg', faults', member', rfl⟩ same
  obtain rfl | rfl := known cfg faults member <;> obtain rfl | rfl := known cfg' faults' member'
  · rfl
  · exact absurd same (by decide)
  · exact absurd same (by decide)
  · rfl

/-- Every write is made. -/
def written : Faults := ⟨false, false⟩

/-- The limits change, and the proxy is restarted before and after it has the new ones. -/
def editedRun : List Event :=
  [.update (shardBy "env") written, .restart written, .update (shardBy "tier") written,
    .restart written]

theorem keepsFilter_editedRun :
    EachStep (step labelEncoder) Careful .start editedRun ∧
      KeepsFilter shardRead labelEncoder editedRun := by
  have free : Set.InjOn labelEncoder.hash (limitsGiven labelEncoder editedRun) := by
    apply injOn_labelEncoder
    intro cfg faults member
    simp only [editedRun, List.mem_cons, Event.update.injEq, reduceCtorEq,
      List.not_mem_nil] at member
    tauto
  have careful : EachStep (step labelEncoder) Careful .start editedRun :=
    careful_of_journal (by decide)
  exact ⟨careful, keepsFilter_of_careful _ _ _ labelEncoder_ne free careful⟩

/-- The limits change and are changed back, and the proxy is restarted. -/
def reverted : List Event :=
  [.update (shardBy "tier") written, .update (shardBy "env") written, .restart written]

/-- The proxy before that run. -/
def beforeReverted : Journal :=
  (Lib.run (Journal.step labelEncoder) .start [.update (shardBy "env") written]).getD .start

/-- The proxy after that run. -/
def afterReverted : Journal :=
  (Lib.run (Journal.step labelEncoder) beforeReverted reverted).getD .start

/-- After the restart the limits that were refused are in force as well. -/
theorem filter_grows_at_restart :
    ¬∀ events, Set.InjOn labelEncoder.hash (limitsGiven labelEncoder events) →
      KeepsFilter shardRead labelEncoder events := by
  intro keepsFilter
  have free : Set.InjOn labelEncoder.hash (limitsGiven labelEncoder
      ([.update (shardBy "env") written] ++ reverted)) := by
    apply injOn_labelEncoder
    intro cfg faults member
    simp only [reverted, List.cons_append, List.nil_append, List.mem_cons, Event.update.injEq,
      reduceCtorEq, List.not_mem_nil] at member
    tauto
  have first : Lib.run (Journal.step labelEncoder) .start
      [.update (shardBy "env") written] = some beforeReverted := rfl
  have later : Lib.run (Journal.step labelEncoder) beforeReverted reverted =
      some afterReverted := rfl
  obtain ⟨w, ran, keeps⟩ := exists_of_some_rel keeps_run first
  obtain ⟨w', ran', keeps'⟩ := exists_of_some_rel (run_rel keeps_step keeps reverted) later
  have stays := keepsFilter _ free [.update (shardBy "env") written] reverted w _ _ rfl ran
    keeps.specManager rfl reverted [] w' (List.append_nil _).symm ran'
  dsimp only at stays
  rw [keeps'.specManager] at stays
  obtain ⟨current', read, -, same⟩ := stays _ rfl
  cases read
  have alike := (same ⟨"", "pods"⟩).2 (AList.singleton "env" "a")
  exact absurd alike (by decide)

end CtrlMesh.Proxy.Process
