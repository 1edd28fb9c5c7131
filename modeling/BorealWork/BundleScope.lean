/- Restoring a bundle: what it does to the other projects, and when the restored project knows all the
versions that its records name. -/
import BorealWork.CatalogTransactions

namespace Boreal.Source
open Sorting Tables Transactions

variable {σ : Type} {environment : Environment σ} {catalog : Catalog σ} {projectId : String}
  {state imported : CatalogState}

structure Scoped (projectId : String) (state : CatalogState) : Prop where
  versions : ∀ (key : RowKey) (row : SourceVersion), state.versions[key]? = some row →
    (ofLex key).1 = projectId
  relationships : ∀ (key : RowKey) (row : ArtifactRelationship),
    state.artifactRelationships[key]? = some row → (ofLex key).1 = projectId
  parseRecords : ∀ (key : RowKey) (row : ParseRecord), state.parseRecords[key]? = some row →
    (ofLex key).1 = projectId
  indexes : ∀ (key : RowKey) (row : IndexedSource), state.indexes[key]? = some row →
    (ofLex key).1 = projectId
  captures : ∀ (operationId : String) (record : CaptureOperationRecord),
    state.captureOperations[operationId]? = some record → record.projectId = projectId
  operations : ∀ (operationId : String) (record : ArtifactOperationRecord),
    state.artifactOperations[operationId]? = some record → record.projectId = projectId

structure Free (projectId : String) (state : CatalogState) : Prop where
  versions : ∀ (key : RowKey) (row : SourceVersion), state.versions[key]? = some row →
    (ofLex key).1 ≠ projectId
  relationships : ∀ (key : RowKey) (row : ArtifactRelationship),
    state.artifactRelationships[key]? = some row → (ofLex key).1 ≠ projectId
  parseRecords : ∀ (key : RowKey) (row : ParseRecord), state.parseRecords[key]? = some row →
    (ofLex key).1 ≠ projectId
  indexes : ∀ (key : RowKey) (row : IndexedSource), state.indexes[key]? = some row →
    (ofLex key).1 ≠ projectId
  captures : ∀ (operationId : String) (record : CaptureOperationRecord),
    state.captureOperations[operationId]? = some record → record.projectId ≠ projectId
  operations : ∀ (operationId : String) (record : ArtifactOperationRecord),
    state.artifactOperations[operationId]? = some record → record.projectId ≠ projectId

structure Named (projectId : String) (state : CatalogState) : Prop where
  captures : ∀ (operationId : String) (record : CaptureOperationRecord),
    state.captureOperations[operationId]? = some record → record.projectId = projectId →
      ∃ version : SourceVersion,
        state.versions[(toLex (projectId, record.sourceVersionId) : RowKey)]? = some version
  parseRecords : ∀ (key : RowKey) (record : ParseRecord), state.parseRecords[key]? = some record →
    (ofLex key).1 = projectId → ∃ version : SourceVersion, state.versions[key]? = some version

theorem rejected_of_isEmpty_filter {κ ν : Type} [LinearOrder κ] {table : Std.ExtTreeMap κ ν}
    {keep : κ → ν → Bool} (empty : (table.filter keep).isEmpty = true) {key : κ} {row : ν}
    (present : table[key]? = some row) : keep key row = false := by
  rw [Bool.eq_false_iff]
  intro kept
  have found := getElem?_filter.mpr ⟨present, kept⟩
  rw [Std.ExtTreeMap.isEmpty_iff.mp empty, Std.ExtTreeMap.getElem?_empty] at found
  cases found

theorem free_of_unpopulated (unpopulated : projectScopeIsPopulated (projectState state projectId) = false) :
    Free projectId state := by
  simp only [projectScopeIsPopulated, projectState, Bool.or_eq_false_iff, Bool.not_eq_false']
    at unpopulated
  obtain ⟨⟨⟨⟨⟨versions, relationships⟩, parseRecords⟩, indexes⟩, captures⟩, operations⟩ := unpopulated
  exact ⟨fun _ _ present => of_decide_eq_false (rejected_of_isEmpty_filter versions present),
    fun _ _ present => of_decide_eq_false (rejected_of_isEmpty_filter relationships present),
    fun _ _ present => of_decide_eq_false (rejected_of_isEmpty_filter parseRecords present),
    fun _ _ present => of_decide_eq_false (rejected_of_isEmpty_filter indexes present),
    fun _ _ present => of_decide_eq_false (rejected_of_isEmpty_filter captures present),
    fun _ _ present => of_decide_eq_false (rejected_of_isEmpty_filter operations present)⟩

theorem scoped_of_valid {formats : JsonFormats} (sound : Sound formats imported)
    (valid : validateBundleProjectState imported projectId = .ok ()) : Scoped projectId imported := by
  have belongs := validateBundleProjectState_ok sound valid
  rw [validateBundleProjectState] at valid
  split_ifs at valid with inside
  obtain ⟨_, _, parseRecords, indexes, captures, operations⟩ := inside
  rw [List.all_eq_true] at parseRecords indexes captures operations
  constructor
  · intro key row present
    exact belongs.versions key (mem_iff.mpr ⟨row, present⟩)
  · intro key row present
    exact belongs.relationships key (mem_iff.mpr ⟨row, present⟩)
  · intro key row present
    exact of_decide_eq_true
      (parseRecords key (Std.ExtTreeMap.mem_keys.mpr (mem_iff.mpr ⟨row, present⟩)))
  · intro key row present
    exact of_decide_eq_true (indexes key (Std.ExtTreeMap.mem_keys.mpr (mem_iff.mpr ⟨row, present⟩)))
  · intro operationId record present
    exact of_decide_eq_true (captures record (mem_rows.mpr ⟨operationId, present⟩))
  · intro operationId record present
    exact of_decide_eq_true (operations record (mem_rows.mpr ⟨operationId, present⟩))

theorem importBundle_scoped {bundle : SourceCatalogBundle} {packed : List SourceBundleBlob}
    {total : ℕ} (loaded : importBundle environment bundle projectId = .ok (imported, packed, total)) :
    Scoped projectId imported := by
  obtain ⟨sound, _⟩ := importBundle_ok loaded
  simp only [importBundle, Drain.bind_eq_ok] at loaded
  obtain ⟨_, _, _, _, _, _, _, _, _, _, _, _, _, valid, _, _, answer⟩ := loaded
  cases answer
  exact scoped_of_valid sound valid

structure Framed (projectId : String) (state next : CatalogState) : Prop where
  versions : ∀ key : RowKey, (ofLex key).1 ≠ projectId → next.versions[key]? = state.versions[key]?
  relationships : ∀ key : RowKey, (ofLex key).1 ≠ projectId →
    next.artifactRelationships[key]? = state.artifactRelationships[key]?
  parseRecords : ∀ key : RowKey, (ofLex key).1 ≠ projectId →
    next.parseRecords[key]? = state.parseRecords[key]?
  indexes : ∀ key : RowKey, (ofLex key).1 ≠ projectId → next.indexes[key]? = state.indexes[key]?
  captures : ∀ (operationId : String) (record : CaptureOperationRecord),
    record.projectId ≠ projectId → (next.captureOperations[operationId]? = some record ↔
      state.captureOperations[operationId]? = some record)
  operations : ∀ (operationId : String) (record : ArtifactOperationRecord),
    record.projectId ≠ projectId → (next.artifactOperations[operationId]? = some record ↔
      state.artifactOperations[operationId]? = some record)
  keptCaptures : ∀ (operationId : String) (record : CaptureOperationRecord),
    state.captureOperations[operationId]? = some record →
      next.captureOperations[operationId]? = some record
  keptOperations : ∀ (operationId : String) (record : ArtifactOperationRecord),
    state.artifactOperations[operationId]? = some record →
      next.artifactOperations[operationId]? = some record
  sourceRevision : state.sourceRevision ≤ next.sourceRevision
  indexRevision : state.indexRevision ≤ next.indexRevision
  artifactRevision : state.artifactRevision ≤ next.artifactRevision

theorem Framed.refl (projectId : String) (state : CatalogState) : Framed projectId state state :=
  ⟨fun _ _ => rfl, fun _ _ => rfl, fun _ _ => rfl, fun _ _ => rfl, fun _ _ _ => Iff.rfl,
    fun _ _ _ => Iff.rfl, fun _ _ => id, fun _ _ => id, UInt64.le_refl _, UInt64.le_refl _,
    UInt64.le_refl _⟩

theorem getElem?_union_outside {α : Type} {table fresh : Std.ExtTreeMap RowKey α}
    (inside : ∀ (key : RowKey) (row : α), fresh[key]? = some row → (ofLex key).1 = projectId)
    {key : RowKey} (outside : (ofLex key).1 ≠ projectId) : (table ∪ fresh)[key]? = table[key]? := by
  rw [Std.ExtTreeMap.getElem?_union]
  cases present : fresh[key]? with
  | none => rfl
  | some row => exact absurd (inside key row present) outside

theorem getElem?_union_inside {α : Type} {table fresh : Std.ExtTreeMap RowKey α}
    (outside : ∀ (key : RowKey) (row : α), table[key]? = some row → (ofLex key).1 ≠ projectId)
    {key : RowKey} (inside : (ofLex key).1 = projectId) : (table ∪ fresh)[key]? = fresh[key]? := by
  rw [Std.ExtTreeMap.getElem?_union]
  cases present : table[key]? with
  | none => exact Option.or_none
  | some row => exact absurd inside (outside key row present)

theorem getElem?_union_records {α : Type} {table fresh : Std.ExtTreeMap String α}
    {project : α → String} (apart : ∀ operationId ∈ fresh, operationId ∉ table)
    (inside : ∀ (operationId : String) (record : α), fresh[operationId]? = some record →
      project record = projectId) (operationId : String) (record : α)
    (outside : project record ≠ projectId) :
    (table ∪ fresh)[operationId]? = some record ↔ table[operationId]? = some record := by
  rw [getElem?_union_of_apart apart]
  refine or_iff_left ?_
  intro present
  exact outside (inside operationId record present)

theorem mergeProjectState_framed (theirs : Scoped projectId imported)
    (captures : ∀ operationId ∈ imported.captureOperations, operationId ∉ state.captureOperations)
    (operations : ∀ operationId ∈ imported.artifactOperations,
      operationId ∉ state.artifactOperations) :
    Framed projectId state (mergeProjectState state imported) where
  versions := fun _ => getElem?_union_outside theirs.versions
  relationships := fun _ => getElem?_union_outside theirs.relationships
  parseRecords := fun _ => getElem?_union_outside theirs.parseRecords
  indexes := fun _ => getElem?_union_outside theirs.indexes
  captures := getElem?_union_records captures theirs.captures
  operations := getElem?_union_records operations theirs.operations
  keptCaptures := fun _ _ present => (getElem?_union_of_apart captures).mpr (.inl present)
  keptOperations := fun _ _ present => (getElem?_union_of_apart operations).mpr (.inl present)
  sourceRevision := (le_max_revisions _ _).1
  indexRevision := (le_max_revisions _ _).1
  artifactRevision := (le_max_revisions _ _).1

theorem mergeProjectState_named (free : Free projectId state)
    (captures : ∀ operationId ∈ imported.captureOperations, operationId ∉ state.captureOperations) :
    Named projectId (mergeProjectState state imported) ↔ Named projectId imported := by
  have versions (sourceVersionId : String) :
      (mergeProjectState state imported).versions[(toLex (projectId, sourceVersionId) : RowKey)]? =
        imported.versions[(toLex (projectId, sourceVersionId) : RowKey)]? :=
    getElem?_union_inside free.versions rfl
  constructor
  · intro named
    constructor
    · intro operationId record present own
      rw [← versions]
      exact named.captures operationId record
        ((getElem?_union_of_apart captures).mpr (.inr present)) own
    · intro key record present own
      have merged := named.parseRecords key record
        ((getElem?_union_inside free.parseRecords own).trans present) own
      rwa [mergeProjectState, getElem?_union_inside free.versions own] at merged
  · intro named
    constructor
    · intro operationId record present own
      rw [versions]
      rcases (getElem?_union_of_apart captures).mp present with old | new
      · exact absurd own (free.captures operationId record old)
      · exact named.captures operationId record new own
    · intro key record present own
      rw [mergeProjectState, getElem?_union_inside free.versions own]
      rw [mergeProjectState, getElem?_union_inside free.parseRecords own] at present
      exact named.parseRecords key record present own

section Duplicates

variable {formats : JsonFormats}

structure NamedAlike (projectId : String) (state imported : CatalogState) : Prop where
  captures : ∀ (operationId : String) (record : CaptureOperationRecord),
    record.projectId = projectId → (state.captureOperations[operationId]? = some record ↔
      imported.captureOperations[operationId]? = some record)
  parseRecords : ∀ (key : RowKey) (record : ParseRecord), (ofLex key).1 = projectId →
    (state.parseRecords[key]? = some record ↔ imported.parseRecords[key]? = some record)
  versions : ∀ key : RowKey, (ofLex key).1 = projectId →
    (key ∈ state.versions ↔ key ∈ imported.versions)

theorem NamedAlike.named (alike : NamedAlike projectId state imported) :
    Named projectId state ↔ Named projectId imported := by
  have transfer {one other : CatalogState} (alike : NamedAlike projectId one other)
      (named : Named projectId one) : Named projectId other := by
    constructor
    · intro operationId record present own
      have found := named.captures operationId record
        ((alike.captures operationId record own).mpr present) own
      exact mem_iff.mp ((alike.versions _ rfl).mp (mem_iff.mpr found))
    · intro key record present own
      have found := named.parseRecords key record
        ((alike.parseRecords key record own).mpr present) own
      exact mem_iff.mp ((alike.versions key own).mp (mem_iff.mpr found))
  have back : NamedAlike projectId imported state :=
    ⟨fun operationId record own => (alike.captures operationId record own).symm,
      fun key record own => (alike.parseRecords key record own).symm,
      fun key own => (alike.versions key own).symm⟩
  exact ⟨transfer alike, transfer back⟩

theorem mem_persistedOperations_iff {α : Type} {table : Std.ExtTreeMap String α} {operationId : String}
    {record : α} : ⟨operationId, record⟩ ∈ persistedOperations table ↔
      table[operationId]? = some record := by
  constructor
  · exact mem_persistedOperations
  · intro present
    rw [persistedOperations, mem_sortOn, List.mem_map]
    exact ⟨(operationId, record), Std.ExtTreeMap.mem_toList_iff_getElem?_eq_some.mpr present, rfl⟩

theorem mem_persistedRows_iff {α : Type} {table : Std.ExtTreeMap RowKey α}
    {projectId sourceVersionId : String} {row : α} :
    ⟨projectId, sourceVersionId, row⟩ ∈ persistedRows table ↔
      table[(toLex (projectId, sourceVersionId) : RowKey)]? = some row := by
  rw [persistedRows, mem_sortOn, List.mem_map]
  constructor
  · rintro ⟨⟨key, row'⟩, member, same⟩
    cases same
    exact Std.ExtTreeMap.mem_toList_iff_getElem?_eq_some.mp member
  · intro present
    exact ⟨(_, row), Std.ExtTreeMap.mem_toList_iff_getElem?_eq_some.mpr present, rfl⟩

theorem mem_versions_iff {table : Std.ExtTreeMap RowKey SourceVersion}
    (owned : ∀ (key : RowKey) (version : SourceVersion), table[key]? = some version → key = version.key)
    {key : RowKey} : key ∈ table ↔ ∃ version ∈ (sortOn SourceVersion.key (rows table)).map
      ({ · with availability := .available }), version.key = key := by
  rw [mem_iff]
  constructor
  · intro ⟨version, present⟩
    refine ⟨_, List.mem_map.mpr ⟨version, mem_sortOn.mpr (mem_rows.mpr ⟨key, present⟩), rfl⟩, ?_⟩
    exact (owned key version present).symm
  · rintro ⟨_, member, rfl⟩
    obtain ⟨version, stored, rfl⟩ := List.mem_map.mp member
    obtain ⟨key', present⟩ := mem_rows.mp (mem_sortOn.mp stored)
    cases owned key' version present
    exact ⟨version, present⟩

theorem mem_filter_inProject {α : Type} {table : Std.ExtTreeMap RowKey α} {key : RowKey}
    (own : (ofLex key).1 = projectId) : key ∈ table.filter (inProject projectId) ↔ key ∈ table := by
  rw [mem_iff, mem_iff]
  refine exists_congr fun row => ?_
  rw [getElem?_filter]
  exact and_iff_left (decide_eq_true own)

theorem filter_owned {table : Std.ExtTreeMap RowKey SourceVersion} {keep : RowKey → SourceVersion → Bool}
    (owned : ∀ (key : RowKey) (version : SourceVersion), table[key]? = some version → key = version.key)
    (key : RowKey) (version : SourceVersion) (present : (table.filter keep)[key]? = some version) :
    key = version.key :=
  owned key version (getElem?_filter.mp present).1

theorem namedAlike_of_bytes (ours : Sound formats state) (theirs : Sound formats imported)
    (same : projectMetadataBytes formats (projectState state projectId) projectId =
      projectMetadataBytes formats imported projectId) : NamedAlike projectId state imported := by
  unfold projectMetadataBytes at same
  have texts := congrArg formats.state.fromSlice same
  rw [formats.state.fromSlice_toVec, formats.state.fromSlice_toVec] at texts
  have persisted := Except.ok.inj texts
  have captures := congrArg (·.captureOperations) persisted
  have parseRecords := congrArg (·.parseRecords) persisted
  have versions := congrArg (·.versions) persisted
  dsimp only [persistedState, projectState] at captures parseRecords versions
  constructor
  · intro operationId record own
    have listed := iff_of_eq (congrArg (⟨operationId, record⟩ ∈ ·) captures)
    rw [mem_persistedOperations_iff, mem_persistedOperations_iff, getElem?_filter, getElem?_filter,
      getElem?_filter, decide_eq_true own] at listed
    simpa using listed
  · intro key record own
    have named : (toLex (projectId, (ofLex key).2) : RowKey) = key := by
      rw [← own]
      rfl
    have inside (row : ParseRecord) : inProject projectId key row = true := decide_eq_true own
    have listed := iff_of_eq (congrArg (⟨projectId, (ofLex key).2, record⟩ ∈ ·) parseRecords)
    rw [mem_persistedRows_iff, mem_persistedRows_iff, named, getElem?_filter, getElem?_filter,
      getElem?_filter] at listed
    simpa only [inside, and_true] using listed
  · intro key own
    rw [← mem_filter_inProject own, ← mem_filter_inProject own, ← @mem_filter_inProject _ _ imported.versions _ own,
      mem_versions_iff (filter_owned (filter_owned ours.versions)), versions,
      ← mem_versions_iff (filter_owned theirs.versions)]

end Duplicates

section Restoring

variable {bundle : SourceCatalogBundle} {packed : List SourceBundleBlob} {total : ℕ} {blobs blobs' : σ}

theorem restoreImported_cases {readback : SourceBundleReadback} {change : Option CatalogState}
    (restored : restoreImported environment state imported packed total projectId blobs =
      .ok (readback, change) blobs') :
    (projectScopeIsPopulated (projectState state projectId) = true ∧ change = none ∧
      projectMetadataBytes environment.formats (projectState state projectId) projectId =
        projectMetadataBytes environment.formats imported projectId) ∨
    (projectScopeIsPopulated (projectState state projectId) = false ∧
      change = some (mergeProjectState state imported) ∧
      (∀ operationId ∈ imported.captureOperations, operationId ∉ state.captureOperations) ∧
      ∀ operationId ∈ imported.artifactOperations, operationId ∉ state.artifactOperations) := by
  rw [restoreImported] at restored
  split_ifs at restored with populated
  · simp only [replayBundle, bind_eq_ok, ofExcept_eq_ok, Drain.refuse_eq_ok, pure_eq_ok, not_not]
      at restored
    obtain ⟨_, _, ⟨_, _, ⟨same, _⟩, _⟩, answer, _⟩ := restored
    cases answer
    exact .inl ⟨populated, rfl, same⟩
  · simp only [bind_eq_ok, ofExcept_eq_ok, Drain.refuse_eq_ok, pure_eq_ok, not_or,
      List.any_eq_true, Std.ExtTreeMap.mem_keys, Std.ExtTreeMap.contains_iff_mem, not_exists,
      not_and] at restored
    obtain ⟨_, _, ⟨⟨captures, operations⟩, _⟩, _, _, _, answer, _⟩ := restored
    cases answer
    exact .inr ⟨Bool.eq_false_iff.mpr populated, rfl, captures, operations⟩

/-- How the next write of a catalogue ends; in memory nothing goes wrong. -/
def writeOutcome (catalog : Catalog σ) : WriteOutcome := catalog.disk.elim .written (·.writeOutcome)

/-- A restore fails and leaves the metadata as they are, or it leaves the other projects alone and a
project that knows all the versions its records name. -/
def ScopedResult (environment : Environment σ) (projectId : String) (catalog : Catalog σ) :
    EStateM.Result SourceError (Catalog σ) SourceBundleReadback → Prop
  | .error _ final => metadata environment final = metadata environment catalog ∧
      (final.state = catalog.state ∨ metadata environment catalog = .ok final.state)
  | .ok _ final => ∃ state, metadata environment catalog = .ok state ∧
      Framed projectId state final.state ∧ Named projectId final.state

/-- A bundle that the call accepts: its records name its versions where the call answers, and it adds
nothing to a readable catalogue where the write ends without its synchronisation. -/
def RestorableAs (environment : Environment σ) (projectId : String) (catalog : Catalog σ)
    (imported : CatalogState) (packed : List SourceBundleBlob) (total : ℕ) : Prop :=
  ∀ state, acquirePersistentLock catalog.disk = .ok () →
    reloadPersistentState environment catalog = .ok state →
    (∃ answer blobs, restoreImported environment state imported packed total projectId catalog.blobs =
      .ok answer blobs) →
    (projectScopeIsPopulated (projectState state projectId) = true ∨
      writeOutcome catalog = .written → Named projectId imported) ∧
    (projectScopeIsPopulated (projectState state projectId) = false →
      ∀ error, writeOutcome catalog = .unsynced error →
        mergeProjectState state imported = state ∧ Readable environment.formats state)

def Restorable (environment : Environment σ) (bundle : SourceCatalogBundle) (projectId : String)
    (catalog : Catalog σ) : Prop :=
  ∀ (imported : CatalogState) (packed : List SourceBundleBlob) (total : ℕ),
    importBundle environment bundle projectId = .ok (imported, packed, total) →
      RestorableAs environment projectId catalog imported packed total

theorem writeOutcome_some {disk : Disk} (present : catalog.disk = some disk) :
    writeOutcome catalog = disk.writeOutcome := by
  rw [writeOutcome, present]
  rfl

theorem transacted_scoped_iff {result : EStateM.Result SourceError (Catalog σ) SourceBundleReadback}
    (sound : Sound environment.formats catalog.state) (theirs : Sound environment.formats imported)
    (belongs : Belongs projectId imported) (inside : Scoped projectId imported)
    (outcome : Transacted environment (fun state =>
      restoreImported environment state imported packed total projectId) catalog result) :
    ScopedResult environment projectId catalog result ↔
      RestorableAs environment projectId catalog imported packed total := by
  cases outcome with
  | locked error lock =>
    refine iff_of_true ⟨rfl, .inl rfl⟩ ?_
    intro state free
    rw [lock] at free
    cases free
  | unread error lock reload =>
    refine iff_of_true ⟨rfl, .inl rfl⟩ ?_
    intro state _ reloaded
    rw [reload] at reloaded
    cases reloaded
  | failed error state blobs lock reload ran =>
    have untouched : Untouched environment catalog ⟨blobs, state, catalog.disk⟩ :=
      untouched_reloaded reload
    refine iff_of_true ⟨untouched.metadata, untouched.2⟩ ?_
    rintro state' _ reloaded ⟨answer, blobs', accepted⟩
    cases reload.symm.trans reloaded
    rw [ran] at accepted
    cases accepted
  | answered value state blobs lock reload ran =>
    rcases restoreImported_cases ran with ⟨populated, _, same⟩ | ⟨_, impossible, _⟩
    · have ours : Fit environment.formats False state := reload_fit ⟨sound, False.elim⟩ reload
      have alike := (namedAlike_of_bytes ours.1 theirs same).named
      constructor
      · rintro ⟨_, _, _, named⟩ state' _ reloaded _
        cases reload.symm.trans reloaded
        refine ⟨fun _ => alike.mp named, ?_⟩
        intro unpopulated
        rw [populated] at unpopulated
        cases unpopulated
      · intro restorable
        have named := (restorable state lock reload ⟨_, _, ran⟩).1 (.inl populated)
        exact ⟨state, metadata_reloaded reload, Framed.refl projectId state, alike.mpr named⟩
    · cases impossible
  | changed value state next blobs lock reload ran written =>
    rcases restoreImported_cases ran with ⟨_, impossible, _⟩ | ⟨unpopulated, same, captures, operations⟩
    · cases impossible
    · cases same
      have alike := mergeProjectState_named (free_of_unpopulated unpopulated) captures
      have succeeds : writeOutcome catalog = .written := by
        unfold writeOutcome
        cases present : catalog.disk with
        | none => rfl
        | some disk => exact written disk present
      constructor
      · rintro ⟨_, _, _, named⟩ state' _ reloaded _
        cases reload.symm.trans reloaded
        refine ⟨fun _ => alike.mp named, ?_⟩
        intro _ error unsynced
        rw [succeeds] at unsynced
        cases unsynced
      · intro restorable
        have named := (restorable state lock reload ⟨_, _, ran⟩).1 (.inr succeeds)
        exact ⟨state, metadata_reloaded reload,
          mergeProjectState_framed inside captures operations, alike.mpr named⟩
  | refused error value state next blobs disk lock reload ran present outcome =>
    have untouched : Untouched environment catalog ⟨blobs, state, catalog.disk⟩ :=
      untouched_reloaded reload
    have refused : writeOutcome catalog = .refused error :=
      (writeOutcome_some present).trans outcome
    refine iff_of_true ⟨untouched.metadata, untouched.2⟩ ?_
    intro state' _ reloaded _
    cases reload.symm.trans reloaded
    rcases restoreImported_cases ran with ⟨_, impossible, _⟩ | ⟨unpopulated, _⟩
    · cases impossible
    · refine ⟨?_, fun _ error unsynced => ?_⟩
      · rintro (populated | succeeds)
        · rw [unpopulated] at populated
          cases populated
        · rw [refused] at succeeds
          cases succeeds
      · rw [refused] at unsynced
        cases unsynced
  | unsynced error value state next blobs disk lock reload ran present outcome =>
    rcases restoreImported_cases ran with ⟨_, impossible, _⟩ | ⟨unpopulated, same, captures, operations⟩
    · cases impossible
    · cases same
      have ours : Fit environment.formats False state := reload_fit ⟨sound, False.elim⟩ reload
      have apart : Apart state imported := by
        refine apart_of_unpopulated unpopulated belongs ?_
        rw [List.any_eq_true]
        intro ⟨operationId, member, taken⟩
        exact operations operationId (Std.ExtTreeMap.mem_keys.mp member)
          (Std.ExtTreeMap.contains_iff_mem.mp taken)
      have merged := mergeProjectState_sound ours.1 theirs apart
      have unsynced : writeOutcome catalog = .unsynced error :=
        (writeOutcome_some present).trans outcome
      have known := metadata_reloaded reload
      constructor
      · rintro ⟨same, _⟩ state' _ reloaded _
        cases reload.symm.trans reloaded
        refine ⟨?_, fun _ _ _ => ?_⟩
        · rintro (populated | succeeds)
          · rw [unpopulated] at populated
            cases populated
          · rw [unsynced] at succeeds
            cases succeeds
        · rw [metadata_snapshot, known] at same
          exact (restored_snapshot merged).mp same
      · intro restorable
        have adds := (restorable state lock reload ⟨_, _, ran⟩).2 unpopulated error unsynced
        refine ⟨?_, .inr known⟩
        rw [metadata_snapshot, known]
        exact (restored_snapshot merged).mpr adds

/-- A restore keeps to its project exactly when the bundle's records name versions of the bundle and
its write is synced, where it comes to that. -/
theorem restoreBundle_scoped_iff (reachable : Reachable environment catalog) :
    ScopedResult environment projectId catalog (restoreBundle environment bundle projectId catalog) ↔
      Restorable environment bundle projectId catalog := by
  unfold Restorable
  cases loaded : importBundle environment bundle projectId with
  | error error =>
    have failed : restoreBundle environment bundle projectId catalog = .error error catalog := by
      rw [restoreBundle, loaded]
      exact bind_of_error (ofExcept_error _ _)
    rw [failed]
    refine iff_of_true ⟨rfl, .inl rfl⟩ ?_
    intro imported packed total impossible
    cases impossible
  | ok answer =>
    obtain ⟨imported, packed, total⟩ := answer
    obtain ⟨theirs, belongs, _⟩ := importBundle_ok loaded
    have entered : restoreBundle environment bundle projectId catalog =
        transact environment (fun state =>
          restoreImported environment state imported packed total projectId) catalog := by
      rw [restoreBundle, loaded]
      rfl
    rw [entered, transacted_scoped_iff reachable.sound theirs belongs (importBundle_scoped loaded)
      (transact_cases _ _ _)]
    constructor
    · intro restorable _ _ _ same
      cases same
      exact restorable
    · intro restorable
      exact restorable imported packed total rfl

end Restoring

/-- One capture operation of a version that is not there. -/
def dangling : CatalogState :=
  { emptyState with
    captureOperations := (∅ : Std.ExtTreeMap String CaptureOperationRecord).insert "first"
      ⟨contentDigest [], "borealis", "sv_borealis_missing"⟩ }

def danglingEnvironment : Environment (Std.ExtTreeMap String (List UInt8)) :=
  inMemory (favouringFormats (bundleMetadata "borealis" dangling)) plainAlphabet

def danglingBundle : SourceCatalogBundle :=
  ⟨sourceBundleFormatV1, "borealis", (encodeSourceBundle
    (danglingEnvironment.formats.metadata.toVec (bundleMetadata "borealis" dangling)) []).toOption.getD []⟩

theorem dangling_sound {formats : JsonFormats} : Sound formats dangling :=
  sound_empty.reworked (Reworked.refl emptyState).of_rows

theorem dangling_valid : validateBundleProjectState dangling "borealis" = .ok () := by
  rw [validateBundleProjectState, if_pos]
  have captures : rows dangling.captureOperations = [_] := rows_single _ _
  refine ⟨?_, ?_, ?_, ?_, ?_, ?_⟩
  · simp [dangling, emptyState, rows]
  · simp [dangling, emptyState, rows]
  · simp [dangling, emptyState]
  · simp [dangling, emptyState]
  · rw [captures]
    rfl
  · simp [dangling, emptyState, rows]

theorem dangling_complete : validateBundleBlobs dangling [] = .ok () := by
  have none : rows dangling.versions = [] :=
    List.length_eq_zero_iff.mp (by simp [dangling, emptyState])
  rw [validateBundleBlobs, expectedBlobs, none]
  rfl

theorem import_dangling : importBundle danglingEnvironment danglingBundle "borealis" =
    .ok (dangling, [], 0) := by
  have short : danglingEnvironment.formats.metadata.toVec (bundleMetadata "borealis" dangling) = [] := by
    rw [danglingEnvironment, inMemory, favouringFormats]
    exact Formats.Format.favouring_toVec _
  obtain ⟨bytes, encoded⟩ : ∃ bytes, encodeSourceBundle
      (danglingEnvironment.formats.metadata.toVec (bundleMetadata "borealis" dangling)) [] =
        .ok bytes := by
    rw [short]
    exact ⟨_, rfl⟩
  rw [danglingBundle, encoded]
  refine importBundle_encoded (by decide) dangling_sound ?_ rfl dangling_valid dangling_complete
    ⟨by simp, List.Pairwise.nil⟩ (by decide) encoded
  simp [dangling, emptyState]

theorem emptyState_unpopulated (projectId : String) :
    projectScopeIsPopulated (projectState emptyState projectId) = false := by
  simp only [projectScopeIsPopulated, projectState, Bool.or_eq_false_iff, Bool.not_eq_false']
  refine ⟨⟨⟨⟨⟨?_, ?_⟩, ?_⟩, ?_⟩, ?_⟩, ?_⟩
  all_goals exact isEmpty_filter fun key row present => absurd present (by simp [emptyState])

theorem dangling_restored : ¬ScopedResult danglingEnvironment "borealis" (withBlobStore ∅)
    (restoreBundle danglingEnvironment danglingBundle "borealis" (withBlobStore ∅)) := by
  have unpopulated := emptyState_unpopulated "borealis"
  have absent (operationId : String) :
      operationId ∉ (∅ : Std.ExtTreeMap String CaptureOperationRecord) := Std.ExtTreeMap.not_mem_empty
  have restored : restoreBundle danglingEnvironment danglingBundle "borealis" (withBlobStore ∅) =
      .ok (bundleReadback "borealis" dangling 0 0 false)
        ⟨∅, mergeProjectState emptyState dangling, none⟩ := by
    simp only [restoreBundle, bind_eq_ok, ofExcept_eq_ok]
    refine ⟨_, _, ⟨import_dangling, rfl⟩, transact_memory ?_⟩
    exact restoreImported_fresh unpopulated (fun operationId _ => absent operationId)
      (fun _ _ => Std.ExtTreeMap.not_mem_empty) (forM_nil_ok.mpr rfl)
  rw [restored]
  rintro ⟨_, _, _, named⟩
  rw [mergeProjectState_named (free_of_unpopulated unpopulated) fun operationId _ => absent operationId]
    at named
  obtain ⟨version, found⟩ := named.captures "first" _ (getElem?_insert_self _ _ _) rfl
  cases Std.ExtTreeMap.getElem?_empty.symm.trans found

theorem restoreBundle_scoped_cited :
    ScopedResult (inMemory plainFormats plainAlphabet) "borealis" (withBlobStore ∅)
      (restoreBundle (inMemory plainFormats plainAlphabet)
        (citedBundle (inMemory plainFormats plainAlphabet)) "borealis" (withBlobStore ∅)) := by
  have reachable : Reachable (inMemory plainFormats plainAlphabet) (withBlobStore ∅) :=
    ⟨_, [], ⟨∅, .inl rfl⟩, rfl⟩
  refine (restoreBundle_scoped_iff reachable).mpr ?_
  intro imported packed total loaded state _ _ _
  cases (@import_cited plainFormats plainAlphabet cited_short).symm.trans loaded
  have captures : (cited (inMemory plainFormats plainAlphabet)).captureOperations = ∅ := rfl
  have parseRecords : (cited (inMemory plainFormats plainAlphabet)).parseRecords = ∅ := rfl
  refine ⟨fun _ => ⟨?_, ?_⟩, fun _ _ unsynced => nomatch unsynced⟩
  · intro operationId record present
    rw [captures, Std.ExtTreeMap.getElem?_empty] at present
    cases present
  · intro key record present
    rw [parseRecords, Std.ExtTreeMap.getElem?_empty] at present
    cases present

end Boreal.Source
