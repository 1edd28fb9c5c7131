/- The snapshot of a catalogue is readable: what the loader checks of every row, and how each change
of the catalogue maintains it. -/
import BorealWork.Library.Transactions
import BorealWork.SourceOperations

namespace Boreal.Source
open Sorting Tables Transactions

variable {formats : JsonFormats} {state next : CatalogState}

/-- Every row stands under its own key and passes the loader's check on it. -/
structure Sound (formats : JsonFormats) (state : CatalogState) : Prop where
  versions : ∀ (key : RowKey) (version : SourceVersion),
    state.versions[key]? = some version → key = version.key
  relationships : ∀ (key : RowKey) (relationship : ArtifactRelationship),
    state.artifactRelationships[key]? = some relationship → key = relationship.key ∧
      checkRelationship state.versions state.artifactRevision relationship = .ok ()
  operations : ∀ (operationId : String) (record : ArtifactOperationRecord),
    state.artifactOperations[operationId]? = some record →
      checkArtifactOperation formats state.artifactRelationships ⟨operationId, record⟩ = .ok ()

/-- The snapshot is written out and loaded again as the same state. -/
def Readable (formats : JsonFormats) (state : CatalogState) : Prop :=
  restoreCatalogState formats (formats.state.toVec (persistedState state)) = .ok state

theorem sound_empty : Sound formats emptyState :=
  ⟨fun _ _ present => absurd present (by simp [emptyState]),
    fun _ _ present => absurd present (by simp [emptyState]),
    fun _ _ present => absurd present (by simp [emptyState])⟩

theorem persistedRows_perm {α : Type} (table : Std.ExtTreeMap RowKey α) :
    ((persistedRows table).map fun entry => (entry.key, entry.row)).Perm table.toList := by
  refine ((sortOn_perm _ _).map _).trans ?_
  rw [List.map_map]
  exact List.Perm.of_eq (List.map_id' _)

theorem persistedOperations_perm {α : Type} (table : Std.ExtTreeMap String α) :
    ((persistedOperations table).map fun entry => (entry.operationId, entry.record)).Perm
      table.toList := by
  refine ((sortOn_perm _ _).map _).trans ?_
  rw [List.map_map]
  exact List.Perm.of_eq (List.map_id' _)

theorem sortOn_rows_perm {α : Type} {key : α → RowKey} {table : Std.ExtTreeMap RowKey α}
    (own : ∀ (k : RowKey) (row : α), table[k]? = some row → k = key row) :
    ((sortOn key (rows table)).map fun row => (key row, id row)).Perm table.toList := by
  refine ((sortOn_perm key (rows table)).map _).trans ?_
  exact List.Perm.of_eq (rows_map_own own)

theorem mem_persistedOperations {α : Type} {table : Std.ExtTreeMap String α}
    {entry : PersistedOperation α} (member : entry ∈ persistedOperations table) :
    table[entry.operationId]? = some entry.record := by
  rw [persistedOperations, mem_sortOn, List.mem_map] at member
  obtain ⟨⟨operationId, record⟩, present, rfl⟩ := member
  exact Std.ExtTreeMap.mem_toList_iff_getElem?_eq_some.mp present

theorem restoreRows_persistedState (sound : Sound formats state) :
    restoreRows formats (persistedState state) = .ok state ↔
      state.artifactRelationships.size ≤ maxArtifactRelationships := by
  have count : (persistedState state).artifactRelationships.length =
      state.artifactRelationships.size := by
    rw [persistedState, (sortOn_perm _ _).length_eq, length_rows]
  constructor
  · intro restored
    simp only [restoreRows, Drain.bind_eq_ok, Drain.refuse_eq_ok, count] at restored
    exact not_lt.mp restored.choose_spec.1
  · intro few
    have versions : load SourceVersion.key id unchecked
        (.storage "catalog metadata contains duplicate source versions")
        (persistedState state).versions ∅ = .ok state.versions :=
      load_rows (fun _ _ => rfl) (sortOn_rows_perm sound.versions)
    have relationships : load (·.key) id
        (checkRelationship state.versions (persistedState state).artifactRevision)
        (.storage "catalog metadata contains duplicate artifact relationships")
        (persistedState state).artifactRelationships ∅ = .ok state.artifactRelationships := by
      refine load_rows ?_ (sortOn_rows_perm fun key row present =>
        (sound.relationships key row present).1)
      intro relationship member
      obtain ⟨key, present⟩ := mem_rows.mp (mem_sortOn.mp member)
      exact (sound.relationships key relationship present).2
    have operations : load PersistedOperation.operationId PersistedOperation.record
        (checkArtifactOperation formats state.artifactRelationships)
        (.storage "catalog metadata contains duplicate artifact operations")
        (persistedState state).artifactOperations ∅ = .ok state.artifactOperations := by
      refine load_rows ?_ (persistedOperations_perm _)
      intro entry member
      exact sound.operations _ _ (mem_persistedOperations member)
    have derived {α : Type} (table : Std.ExtTreeMap RowKey α) (duplicate : SourceError) :
        load PersistedRow.key PersistedRow.row unchecked duplicate (persistedRows table) ∅ =
          .ok table := load_rows (fun _ _ => rfl) (persistedRows_perm table)
    have captures : load PersistedOperation.operationId PersistedOperation.record unchecked
        (.storage "catalog metadata contains duplicate capture operations")
        (persistedState state).captureOperations ∅ = .ok state.captureOperations :=
      load_rows (fun _ _ => rfl) (persistedOperations_perm _)
    simp only [restoreRows, Drain.bind_eq_ok, Drain.refuse_eq_ok, count]
    exact ⟨(), not_lt.mpr few, _, versions, _, relationships, _, derived _ _, _, derived _ _, _, captures, _,
      operations, rfl⟩

theorem readable_iff (sound : Sound formats state) : Readable formats state ↔
    state.artifactRelationships.size ≤ maxArtifactRelationships := by
  rw [Readable, restoreCatalogState, formats.state.fromSlice_toVec]
  exact restoreRows_persistedState sound

theorem restoreRows_ok {persisted : PersistedCatalogState}
    (restored : restoreRows formats persisted = .ok state) : Sound formats state ∧
      state.artifactRelationships.size = persisted.artifactRelationships.length ∧
      state.artifactRelationships.size ≤ maxArtifactRelationships := by
  simp only [restoreRows, Drain.bind_eq_ok, Drain.refuse_eq_ok] at restored
  obtain ⟨_, few, versions, loadedVersions, relationships, loadedRelationships, _, _, _, _, _, _, operations,
    loadedOperations, same⟩ := restored
  cases same
  obtain ⟨_, _, ofVersions⟩ := load_spec loadedVersions
  obtain ⟨checkedRelationships, size, ofRelationships⟩ := load_spec loadedRelationships
  obtain ⟨checkedOperations, _, ofOperations⟩ := load_spec loadedOperations
  rw [Std.ExtTreeMap.size_empty, Nat.zero_add] at size
  refine ⟨⟨?_, ?_, ?_⟩, size, size.trans_le (not_lt.mp few)⟩
  · intro key version present
    rcases (ofVersions key version).mp present with old | ⟨row, _, named, rfl⟩
    · simp at old
    · exact named.symm
  · intro key relationship present
    rcases (ofRelationships key relationship).mp present with old | ⟨row, member, named, rfl⟩
    · simp at old
    · exact ⟨named.symm, checkedRelationships row member⟩
  · intro operationId record present
    rcases (ofOperations operationId record).mp present with old | ⟨entry, member, rfl, rfl⟩
    · simp at old
    · exact checkedOperations entry member

theorem restoreCatalogState_ok {bytes : List UInt8}
    (restored : restoreCatalogState formats bytes = .ok state) : Sound formats state ∧
      state.artifactRelationships.size ≤ maxArtifactRelationships := by
  simp only [restoreCatalogState, Drain.bind_eq_ok] at restored
  obtain ⟨persisted, _, rowsRestored⟩ := restored
  obtain ⟨sound, _, few⟩ := restoreRows_ok rowsRestored
  exact ⟨sound, few⟩

theorem checkRelationship_eq_ok {versions : Std.ExtTreeMap RowKey SourceVersion} {revision : UInt64}
    {relationship : ArtifactRelationship} : checkRelationship versions revision relationship = .ok () ↔
      validateArtifactRelationship relationship.toArtifactRelationshipInput = .ok () ∧
      ∃ source : SourceVersion, versions[relationship.source.versionKey]? = some source ∧
        source.contentDigest = relationship.source.contentDigest ∧
        relationship.artifactRevision ≠ 0 ∧ relationship.artifactRevision ≤ revision := by
  simp only [checkRelationship, Drain.bind_eq_ok, Drain.mapError_eq_ok]
  constructor
  · intro ⟨_, valid, found⟩
    refine ⟨valid, ?_⟩
    cases present : versions[relationship.source.versionKey]? with
    | none =>
      rw [present] at found
      cases found
    | some source =>
      rw [present] at found
      simp only at found
      split_ifs at found with refused
      rw [not_or, not_or, not_not, UInt64.not_lt] at refused
      exact ⟨source, rfl, refused⟩
  · intro ⟨valid, source, present, digest, positive, bounded⟩
    refine ⟨(), valid, ?_⟩
    rw [present]
    refine if_neg ?_
    rw [not_or, not_or, not_not, UInt64.not_lt]
    exact ⟨digest, positive, bounded⟩

theorem checkArtifactOperation_eq_ok {relationships : Std.ExtTreeMap RowKey ArtifactRelationship}
    {entry : PersistedOperation ArtifactOperationRecord} :
    checkArtifactOperation formats relationships entry = .ok () ↔
      ∃ relationship : ArtifactRelationship,
        relationships[entry.record.key]? = some relationship ∧
        relationship.operationId = entry.operationId ∧
        artifactRelationshipDigest formats relationship.toArtifactRelationshipInput =
          entry.record.requestDigest := by
  rw [checkArtifactOperation]
  cases relationships[entry.record.key]? with
  | none => simp
  | some relationship =>
    simp only [Option.some.injEq, exists_eq_left']
    constructor
    · intro accepted
      split_ifs at accepted with refused
      rwa [not_or, not_not, not_not] at refused
    · intro ⟨operation, digest⟩
      exact if_neg (by simp [operation, digest])

theorem le_nextRevision (revision : UInt64) : revision ≤ nextRevision revision := by
  rw [nextRevision]
  split_ifs with last
  · exact UInt64.le_refl revision
  · rw [← UInt64.toNat_inj] at last
    rw [UInt64.le_iff_toNat_le]
    simp only [UInt64.toNat_add, UInt64.toNat_one, UInt64.toNat_zero] at last ⊢
    have := revision.toNat_lt
    omega

theorem nextRevision_ne_zero (revision : UInt64) : nextRevision revision ≠ 0 := by
  rw [nextRevision]
  split_ifs with last
  · intro zero
    rw [zero] at last
    exact absurd last (by decide)
  · exact last

theorem le_max_revisions (a b : UInt64) : a ≤ max a b ∧ b ≤ max a b := by
  change a ≤ (if a ≤ b then b else a) ∧ b ≤ if a ≤ b then b else a
  split_ifs with below
  · exact ⟨below, UInt64.le_refl b⟩
  · exact ⟨UInt64.le_refl a, (UInt64.le_total a b).resolve_left below⟩

/-- A change of versions and derived rows only: relationships and their operations stay, and no
version is lost or gets another address. -/
structure Reworked (state next : CatalogState) : Prop where
  relationships : next.artifactRelationships = state.artifactRelationships
  operations : next.artifactOperations = state.artifactOperations
  revision : next.artifactRevision = state.artifactRevision
  owned : (∀ (key : RowKey) (version : SourceVersion),
      state.versions[key]? = some version → key = version.key) →
    ∀ (key : RowKey) (version : SourceVersion), next.versions[key]? = some version →
      key = version.key
  kept : ∀ (key : RowKey) (old : SourceVersion), state.versions[key]? = some old →
    ∃ new : SourceVersion, next.versions[key]? = some new ∧ new.contentDigest = old.contentDigest

theorem Reworked.refl (state : CatalogState) : Reworked state state :=
  ⟨rfl, rfl, rfl, id, fun _ old present => ⟨old, present, rfl⟩⟩

theorem Reworked.trans {middle : CatalogState} (first : Reworked state middle)
    (second : Reworked middle next) : Reworked state next where
  relationships := second.relationships.trans first.relationships
  operations := second.operations.trans first.operations
  revision := second.revision.trans first.revision
  owned := second.owned ∘ first.owned
  kept := by
    intro key old present
    obtain ⟨new, found, same⟩ := first.kept key old present
    obtain ⟨newer, foundNow, sameNow⟩ := second.kept key new found
    exact ⟨newer, foundNow, sameNow.trans same⟩

theorem Reworked.of_rows {parseRecords : Std.ExtTreeMap RowKey ParseRecord}
    {indexes : Std.ExtTreeMap RowKey IndexedSource}
    {captures : Std.ExtTreeMap String CaptureOperationRecord} {sourceRevision indexRevision : UInt64}
    (reworked : Reworked state next) :
    Reworked state { next with
      parseRecords, indexes, captureOperations := captures, sourceRevision, indexRevision } :=
  ⟨reworked.relationships, reworked.operations, reworked.revision, reworked.owned, reworked.kept⟩

theorem reworked_insert {version : SourceVersion}
    (same : ∀ old : SourceVersion, state.versions[version.key]? = some old →
      version.contentDigest = old.contentDigest) :
    Reworked state { state with versions := state.versions.insert version.key version } where
  relationships := rfl
  operations := rfl
  revision := rfl
  owned := by
    intro owned key other present
    rw [getElem?_insert] at present
    split_ifs at present with own
    · cases present
      exact own.symm
    · exact owned key other present
  kept := by
    intro key old present
    by_cases own : version.key = key
    · subst own
      exact ⟨version, getElem?_insert_self _ _ _, same old present⟩
    · exact ⟨old, (getElem?_insert_ne _ _ own).trans present, rfl⟩

theorem Sound.reworked (sound : Sound formats state) (reworked : Reworked state next) :
    Sound formats next where
  versions := reworked.owned sound.versions
  relationships := by
    intro key relationship present
    rw [reworked.relationships] at present
    obtain ⟨own, checked⟩ := sound.relationships key relationship present
    obtain ⟨valid, source, found, digest, revision⟩ := checkRelationship_eq_ok.mp checked
    obtain ⟨new, foundNow, same⟩ := reworked.kept _ source found
    rw [reworked.revision]
    exact ⟨own, checkRelationship_eq_ok.mpr ⟨valid, new, foundNow, same.trans digest, revision⟩⟩
  operations := by
    intro operationId record present
    rw [reworked.operations] at present
    rw [reworked.relationships]
    exact sound.operations operationId record present

section Changes

variable {σ : Type} {environment : Environment σ} {blobs blobs' : σ}

theorem authorizedVersion_ok {version stored : SourceVersion}
    (authorized : authorizedVersion state version = .ok stored) :
    state.versions[version.key]? = some stored ∧ stored.key = version.key := by
  simp only [authorizedVersion, Drain.bind_eq_ok] at authorized
  obtain ⟨_, _, found⟩ := authorized
  cases present : state.versions[version.key]? with
  | none =>
    rw [present] at found
    cases found
  | some actual =>
    rw [present] at found
    simp only at found
    split_ifs at found with other differs
    cases found
    rw [not_or, not_not, not_not] at other
    exact ⟨rfl, by rw [SourceVersion.key, SourceVersion.key, other.1, other.2]⟩

theorem reworked_named {version stored : SourceVersion} (parser : Option String)
    (authorized : authorizedVersion state version = .ok stored) :
    Reworked state { state with
      versions := state.versions.insert stored.key { stored with parserIdentity := parser } } := by
  obtain ⟨present, own⟩ := authorizedVersion_ok authorized
  refine @reworked_insert state { stored with parserIdentity := parser } ?_
  intro old found
  change state.versions[stored.key]? = some old at found
  rw [own, present] at found
  cases found
  rfl

variable {version : SourceVersion}

theorem captureVersion_reworked {projectId origin mediaType : String} {bytes : List UInt8}
    (captured : captureVersion environment state projectId origin bytes mediaType blobs =
      .ok (version, some next) blobs') : Reworked state next := by
  simp only [captureVersion, bind_eq_ok] at captured
  obtain ⟨_, _, _, _, _, _, _, _, _, stored⟩ := captured
  cases present : state.versions[(newVersion projectId origin bytes mediaType).key]? with
  | some existing =>
    simp only [present, bind_eq_ok, pure_eq_ok] at stored
    obtain ⟨_, _, _, answer, _⟩ := stored
    cases answer
  | none =>
    simp only [present, bind_eq_ok, pure_eq_ok] at stored
    obtain ⟨_, _, _, answer, _⟩ := stored
    cases answer
    refine Reworked.of_rows (@reworked_insert state (newVersion projectId origin bytes mediaType) ?_)
    intro old found
    rw [present] at found
    cases found

theorem captureOperation_reworked {request : SourceCaptureRequest} {receipt : SourceCaptureReceipt}
    (captured : captureOperation environment state request blobs =
      .ok (receipt, some next) blobs') : Reworked state next := by
  simp only [captureOperation, bind_eq_ok] at captured
  obtain ⟨_, _, _, stored⟩ := captured
  cases known : state.captureOperations[request.operationId]? with
  | some record =>
    simp only [known, bind_eq_ok, pure_eq_ok] at stored
    obtain ⟨_, _, _, answer, _⟩ := stored
    cases answer
  | none =>
    simp only [known, bind_eq_ok, pure_eq_ok] at stored
    obtain ⟨⟨version, changed⟩, _, captured, answer, _⟩ := stored
    cases answer
    cases changed with
    | none => exact (Reworked.refl state).of_rows
    | some middle => exact (captureVersion_reworked captured).of_rows

theorem updateParser_reworked {version updated : SourceVersion} {parser inputVersionId : String}
    (named : updateParser state version parser inputVersionId = .ok (updated, next)) :
    Reworked state next := by
  simp only [updateParser, Drain.bind_eq_ok] at named
  obtain ⟨_, _, _, _, stored, authorized, answer⟩ := named
  cases answer
  rw [← (authorizedVersion_ok authorized).2]
  exact reworked_named (some parser) authorized

theorem publishIndex_reworked (key : RowKey) (parser digest : String) (parsed : ParsedIndex) :
    Reworked state (publishIndex key parser digest parsed state) := by
  rw [publishIndex]
  split_ifs
  · exact Reworked.refl state
  · exact (Reworked.refl state).of_rows

theorem withdrawIndex_reworked (key : RowKey) : Reworked state (withdrawIndex key state) := by
  rw [withdrawIndex]
  split_ifs
  · exact (Reworked.refl state).of_rows
  · exact Reworked.refl state

theorem parseAndIndexState_reworked {parser : String} {limits : ParserLimits} {report : ParseReport}
    (parsed : parseAndIndexState environment state blobs version parser limits =
      .ok (report, next)) : Reworked state next := by
  simp only [parseAndIndexState, Drain.bind_eq_ok] at parsed
  obtain ⟨_, _, _, _, stored, authorized, bytes, _, answer⟩ := parsed
  cases answer
  refine (Reworked.trans (reworked_named (some parser) authorized) ?_).of_rows
  cases parseBytes environment.alphabet limits bytes with
  | ok parsed => exact publishIndex_reworked _ _ _ parsed
  | error error => exact withdrawIndex_reworked _

theorem eraseIndexes_reworked (keys : List RowKey) : Reworked state (eraseIndexes keys state) := by
  rw [eraseIndexes]
  split_ifs
  · exact Reworked.refl state
  · exact (Reworked.refl state).of_rows

theorem repairVersion_reworked {counts counts' : RepairCounts}
    (repaired : repairVersion environment blobs (counts, state) version = .ok (counts', next)) :
    Reworked state next := by
  simp only [repairVersion, Drain.bind_eq_ok] at repaired
  obtain ⟨present, _, repaired⟩ := repaired
  split_ifs at repaired with unavailable
  · cases repaired
    exact Reworked.refl state
  · simp only [Drain.bind_eq_ok] at repaired
    obtain ⟨⟨report, parsed⟩, indexed, answer⟩ := repaired
    have kept : Reworked state parsed := parseAndIndexState_reworked indexed
    dsimp only at answer
    split_ifs at answer
    all_goals
      cases answer
      exact kept

theorem repairState_reworked {projectId : Option String} {resetIndexes : Bool} {report : RepairReport}
    (repaired : repairState environment projectId blobs resetIndexes state = .ok (report, next)) :
    Reworked state next := by
  simp only [repairState, Drain.bind_eq_ok] at repaired
  obtain ⟨versions, _, ⟨counts, middle⟩, passed, answer⟩ := repaired
  cases answer
  have start : Reworked state
      (if resetIndexes then eraseIndexes (indexKeys projectId state) state else state) := by
    split_ifs
    · exact eraseIndexes_reworked _
    · exact Reworked.refl state
  -- the pass over the versions, each of them repaired in the state the ones before it left
  have pass : Reworked state middle :=
    Drain.foldlM_invariant (P := fun progress => Reworked state progress.2)
      (fun progress version progress' kept turn => kept.trans (repairVersion_reworked turn))
      start passed
  exact pass.trans (eraseIndexes_reworked _)

end Changes

section Recording

variable {σ : Type} {environment : Environment σ} {blobs : σ} {input : ArtifactRelationshipInput}

theorem checkRelationship_mono {versions versions' : Std.ExtTreeMap RowKey SourceVersion}
    {revision revision' : UInt64} {relationship : ArtifactRelationship}
    (kept : ∀ (key : RowKey) (version : SourceVersion),
      versions[key]? = some version → versions'[key]? = some version)
    (grown : revision ≤ revision') (checked : checkRelationship versions revision relationship = .ok ()) :
    checkRelationship versions' revision' relationship = .ok () := by
  obtain ⟨valid, source, found, digest, positive, bounded⟩ := checkRelationship_eq_ok.mp checked
  exact checkRelationship_eq_ok.mpr
    ⟨valid, source, kept _ _ found, digest, positive, UInt64.le_trans bounded grown⟩

theorem checkArtifactOperation_mono
    {relationships relationships' : Std.ExtTreeMap RowKey ArtifactRelationship}
    {entry : PersistedOperation ArtifactOperationRecord}
    (kept : ∀ (key : RowKey) (relationship : ArtifactRelationship),
      relationships[key]? = some relationship → relationships'[key]? = some relationship)
    (checked : checkArtifactOperation formats relationships entry = .ok ()) :
    checkArtifactOperation formats relationships' entry = .ok () := by
  obtain ⟨relationship, found, operation, digest⟩ := checkArtifactOperation_eq_ok.mp checked
  exact checkArtifactOperation_eq_ok.mpr ⟨relationship, kept _ _ found, operation, digest⟩

theorem insertRelationship_sound (sound : Sound environment.formats state)
    (valid : validateArtifactRelationship input = .ok ())
    (stored : ∃ source : SourceVersion, state.versions[input.source.versionKey]? = some source ∧
      source.contentDigest = input.source.contentDigest)
    (fresh : state.artifactRelationships[input.key]? = none) :
    Sound environment.formats (insertRelationship environment state input).2 where
  versions := sound.versions
  relationships := by
    intro key relationship present
    change (state.artifactRelationships.insert input.key _)[key]? = some relationship at present
    rw [getElem?_insert] at present
    split_ifs at present with own
    · cases present
      obtain ⟨source, found, digest⟩ := stored
      refine ⟨own.symm, checkRelationship_eq_ok.mpr ⟨valid, source, found, digest, ?_, ?_⟩⟩
      · exact nextRevision_ne_zero _
      · exact UInt64.le_refl _
    · obtain ⟨named, checked⟩ := sound.relationships key relationship present
      exact ⟨named, checkRelationship_mono (fun _ _ => id) (le_nextRevision _) checked⟩
  operations := by
    intro operationId record present
    change (state.artifactOperations.insert input.operationId _)[operationId]? = some record at present
    rw [getElem?_insert] at present
    split_ifs at present with own
    · cases present
      exact checkArtifactOperation_eq_ok.mpr ⟨_, getElem?_insert_self _ _ _, own, rfl⟩
    · refine checkArtifactOperation_mono ?_ (sound.operations operationId record present)
      -- the new row stands under a key that no older relationship has
      intro key relationship found
      refine (getElem?_insert_ne _ _ ?_).trans found
      rintro rfl
      rw [fresh] at found
      cases found

theorem readIdentity_ok {identity : SourceIdentity} {maxBytes : ℕ} {readback : SourceReadback}
    (read : readIdentity environment state blobs identity maxBytes = .ok readback) :
    ∃ source : SourceVersion, state.versions[identity.versionKey]? = some source ∧
      source.contentDigest = identity.contentDigest := by
  simp only [readIdentity, Drain.bind_eq_ok] at read
  obtain ⟨_, _, _, _, _, _, found⟩ := read
  cases present : state.versions[identity.versionKey]? with
  | none =>
    rw [present] at found
    cases found
  | some source =>
    rw [present] at found
    simp only [Drain.bind_eq_ok, Drain.refuse_eq_ok, not_not] at found
    exact ⟨source, rfl, found.choose_spec.1⟩

theorem recordRelationship_ok {receipt : ArtifactRelationshipReceipt}
    (sound : Sound environment.formats state) (valid : validateArtifactRelationship input = .ok ())
    (recorded : recordRelationship environment state blobs input = .ok (receipt, some next)) :
    Sound environment.formats next ∧
      next.artifactRelationships.size ≤ maxArtifactRelationships := by
  rw [recordRelationship] at recorded
  cases known : state.artifactOperations[input.operationId]? with
  | some existing =>
    simp only [known, Drain.bind_eq_ok] at recorded
    obtain ⟨_, _, answer⟩ := recorded
    cases answer
  | none =>
    simp only [known, Drain.bind_eq_ok, Drain.refuse_eq_ok, Bool.not_eq_true] at recorded
    obtain ⟨_, taken, readback, read, _, few, answer⟩ := recorded
    cases answer
    have fresh := contains_eq_false.mp taken
    refine ⟨insertRelationship_sound sound valid (readIdentity_ok read) fresh, ?_⟩
    change (state.artifactRelationships.insert input.key _).size ≤ _
    rw [size_insert_fresh fresh]
    exact not_le.mp few

end Recording

section Merging

variable {σ : Type} {environment : Environment σ} {blobs blobs' : σ} {target imported : CatalogState}

structure Apart (target imported : CatalogState) : Prop where
  versions : ∀ key ∈ imported.versions, key ∉ target.versions
  relationships : ∀ key ∈ imported.artifactRelationships, key ∉ target.artifactRelationships
  operations : ∀ key ∈ imported.artifactOperations, key ∉ target.artifactOperations

theorem mergeProjectState_size (apart : Apart target imported) :
    (mergeProjectState target imported).artifactRelationships.size =
      target.artifactRelationships.size + imported.artifactRelationships.size :=
  size_union_of_apart apart.relationships

theorem mergeProjectState_sound (ours : Sound formats target) (theirs : Sound formats imported)
    (apart : Apart target imported) : Sound formats (mergeProjectState target imported) where
  versions := by
    intro key version present
    rcases (getElem?_union_of_apart apart.versions).mp present with old | new
    · exact ours.versions key version old
    · exact theirs.versions key version new
  relationships := by
    intro key relationship present
    have revisions := le_max_revisions target.artifactRevision imported.artifactRevision
    rcases (getElem?_union_of_apart apart.relationships).mp present with old | new
    · obtain ⟨own, checked⟩ := ours.relationships key relationship old
      refine ⟨own, checkRelationship_mono ?_ revisions.1 checked⟩
      exact fun _ _ found => (getElem?_union_of_apart apart.versions).mpr (.inl found)
    · obtain ⟨own, checked⟩ := theirs.relationships key relationship new
      refine ⟨own, checkRelationship_mono ?_ revisions.2 checked⟩
      exact fun _ _ found => (getElem?_union_of_apart apart.versions).mpr (.inr found)
  operations := by
    intro operationId record present
    rcases (getElem?_union_of_apart apart.operations).mp present with old | new
    · refine checkArtifactOperation_mono ?_ (ours.operations operationId record old)
      exact fun _ _ found => (getElem?_union_of_apart apart.relationships).mpr (.inl found)
    · refine checkArtifactOperation_mono ?_ (theirs.operations operationId record new)
      exact fun _ _ found => (getElem?_union_of_apart apart.relationships).mpr (.inr found)

structure Belongs (projectId : String) (state : CatalogState) : Prop where
  versions : ∀ key ∈ state.versions, (ofLex key).1 = projectId
  relationships : ∀ key ∈ state.artifactRelationships, (ofLex key).1 = projectId

variable {projectId : String}

theorem validateBundleProjectState_ok (sound : Sound formats state)
    (valid : validateBundleProjectState state projectId = .ok ()) : Belongs projectId state := by
  rw [validateBundleProjectState] at valid
  split_ifs at valid with inside
  obtain ⟨versions, relationships, _⟩ := inside
  rw [List.all_eq_true] at versions relationships
  constructor
  · intro key member
    obtain ⟨version, present⟩ := mem_iff.mp member
    have named := versions version (mem_rows.mpr ⟨key, present⟩)
    rw [sound.versions key version present]
    simp only [validBundleVersion, Bool.and_eq_true, decide_eq_true_eq] at named
    exact named.1.1.1.1.1
  · intro key member
    obtain ⟨relationship, present⟩ := mem_iff.mp member
    rw [(sound.relationships key relationship present).1]
    exact of_decide_eq_true (relationships relationship (mem_rows.mpr ⟨key, present⟩))

theorem not_mem_of_filter_isEmpty {α : Type} {table : Std.ExtTreeMap RowKey α}
    (unpopulated : (table.filter (inProject projectId)).isEmpty = true) {key : RowKey}
    (inside : (ofLex key).1 = projectId) : key ∉ table := by
  rw [not_mem_iff]
  cases present : table[key]? with
  | none => rfl
  | some row =>
    have kept : key ∈ table.filter (inProject projectId) :=
      mem_iff.mpr ⟨row, getElem?_filter.mpr ⟨present, decide_eq_true inside⟩⟩
    rw [Std.ExtTreeMap.isEmpty_iff.mp unpopulated] at kept
    exact absurd kept Std.ExtTreeMap.not_mem_empty

theorem apart_of_unpopulated (unpopulated : projectScopeIsPopulated (projectState target projectId) = false)
    (belongs : Belongs projectId imported)
    (free : ¬imported.artifactOperations.keys.any target.artifactOperations.contains = true) :
    Apart target imported := by
  simp only [projectScopeIsPopulated, projectState, Bool.or_eq_false_iff, Bool.not_eq_false'] at unpopulated
  obtain ⟨⟨⟨⟨⟨versions, relationships⟩, _⟩, _⟩, _⟩, _⟩ := unpopulated
  refine ⟨?_, ?_, ?_⟩
  · exact fun key member => not_mem_of_filter_isEmpty versions (belongs.versions key member)
  · exact fun key member => not_mem_of_filter_isEmpty relationships (belongs.relationships key member)
  · intro key member taken
    exact free (List.any_eq_true.mpr
      ⟨key, Std.ExtTreeMap.mem_keys.mpr member, Std.ExtTreeMap.contains_iff_mem.mpr taken⟩)

theorem importBundle_ok {bundle : SourceCatalogBundle} {packed : List SourceBundleBlob} {total : ℕ}
    (loaded : importBundle environment bundle projectId = .ok (imported, packed, total)) :
    Sound environment.formats imported ∧ Belongs projectId imported ∧
      ∃ metadata : SourceBundleMetadata,
        decodeSourceBundle environment.formats bundle.bytes = .ok (metadata, packed, total) ∧
        metadata.catalog.artifactRelationships.length = imported.artifactRelationships.size := by
  simp only [importBundle, Drain.bind_eq_ok, Drain.mapError_eq_ok] at loaded
  obtain ⟨_, _, _, _, _, _, ⟨metadata, _, _⟩, decoded, _, _, _, restored, _, valid, _, _, answer⟩ := loaded
  cases answer
  rw [restoreCatalogState, environment.formats.state.fromSlice_toVec] at restored
  obtain ⟨sound, size, _⟩ := restoreRows_ok restored
  exact ⟨sound, validateBundleProjectState_ok sound valid, metadata, decoded, size.symm⟩

theorem restoreImported_ok {packed : List SourceBundleBlob} {total : ℕ}
    {readback : SourceBundleReadback} (belongs : Belongs projectId imported)
    (restored : restoreImported environment state imported packed total projectId blobs =
      .ok (readback, some next) blobs') :
    projectScopeIsPopulated (projectState state projectId) = false ∧ Apart state imported ∧
      next = mergeProjectState state imported := by
  rw [restoreImported] at restored
  split_ifs at restored with populated
  · simp only [bind_eq_ok, pure_eq_ok] at restored
    obtain ⟨_, _, _, answer, _⟩ := restored
    cases answer
  · rw [Bool.not_eq_true] at populated
    simp only [bind_eq_ok, ofExcept_eq_ok, Drain.refuse_eq_ok, pure_eq_ok, not_or] at restored
    obtain ⟨_, _, ⟨⟨_, free⟩, _⟩, _, _, _, answer, _⟩ := restored
    cases answer
    exact ⟨populated, apart_of_unpopulated populated belongs free, rfl⟩

end Merging

end Boreal.Source
