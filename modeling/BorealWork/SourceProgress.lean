/- When the calls succeed: a store in memory, a catalogue in memory, fresh relationships, and the
bundle of a project that is not there yet. -/
import BorealWork.BundleCodec
import BorealWork.SourceReadability

namespace Boreal.Source
open Tables Transactions

theorem memoryBlobStore_put {blobs : Std.ExtTreeMap String (List UInt8)} {bytes : List UInt8}
    (own : ∀ existing : List UInt8, blobs[contentDigest bytes]? = some existing → existing = bytes) :
    memoryBlobStore.put (contentDigest bytes) bytes blobs =
      .ok () (blobs.insert (contentDigest bytes) bytes) := by
  have checked : verifyBytes (contentDigest bytes) bytes.length bytes = .ok () := by simp [verifyBytes]
  have valid : verifyInput (contentDigest bytes) bytes = .ok () := by
    rw [verifyInput, digestHex_contentDigest]
    exact checked
  simp only [memoryBlobStore, bind_eq_ok, ofExcept_eq_ok, get_eq_ok]
  refine ⟨(), blobs, ⟨valid, rfl⟩, blobs, blobs, ⟨rfl, rfl⟩, ?_⟩
  cases present : blobs[contentDigest bytes]? with
  | none => exact set_eq_ok.mpr rfl
  | some existing =>
    cases own existing present
    refine ofExcept_eq_ok.mpr ⟨checked, ?_⟩
    -- what is inserted is what stood there
    refine Std.ExtTreeMap.ext_getElem? fun key => ?_
    rw [getElem?_insert]
    split_ifs with same
    · exact same ▸ present
    · rfl

theorem memoryBlobStore_readVerified {blobs : Std.ExtTreeMap String (List UInt8)} {bytes : List UInt8}
    (present : blobs[contentDigest bytes]? = some bytes) :
    memoryBlobStore.readVerified blobs (contentDigest bytes) bytes.length = .ok bytes := by
  simp only [memoryBlobStore, present]
  simp [verifyBytes, bind, Except.bind, pure, Except.pure]

variable {σ : Type} {environment : Environment σ} {blobs blobs' : σ} {state : CatalogState}

theorem transact_memory {α : Type} {value : α} {next : CatalogState}
    {body : CatalogState → EStateM SourceError σ (α × Option CatalogState)}
    (ran : body state blobs = .ok (value, some next) blobs') :
    transact environment body ⟨blobs, state, none⟩ = .ok value ⟨blobs', next, none⟩ := by
  simp only [transact, acquirePersistentLock, reloadPersistentState, Option.bind_none, ran]

theorem captureVersion_fresh {projectId origin mediaType : String} {bytes : List UInt8}
    (project : validateProjectId projectId = .ok ()) (relative : validateOrigin origin = .ok ())
    (typed : isBlank mediaType = false)
    (fresh : state.versions[(newVersion projectId origin bytes mediaType).key]? = none)
    (stored : environment.store.put (contentDigest bytes) bytes blobs = .ok () blobs') :
    captureVersion environment state projectId origin bytes mediaType blobs =
      .ok (newVersion projectId origin bytes mediaType,
        some (insertVersion state (newVersion projectId origin bytes mediaType))) blobs' := by
  simp only [captureVersion, bind_eq_ok, ofExcept_eq_ok, Drain.refuse_eq_ok, fresh, pure_eq_ok]
  exact ⟨(), blobs, ⟨project, rfl⟩, (), blobs, ⟨relative, rfl⟩, (), blobs,
    ⟨by rw [typed]; decide, rfl⟩, (), blobs', stored, trivial, rfl⟩

theorem readIdentity_captured {projectId origin mediaType : String} {bytes : List UInt8}
    (project : validateProjectId projectId = .ok ()) (small : bytes.length ≤ defaultMaxArtifactBytes)
    (present : state.versions[(newVersion projectId origin bytes mediaType).key]? =
      some (newVersion projectId origin bytes mediaType))
    (stored : environment.store.readVerified blobs (contentDigest bytes) bytes.length = .ok bytes) :
    ∃ readback, readIdentity environment state blobs
      ⟨projectId, (newVersion projectId origin bytes mediaType).sourceVersionId, contentDigest bytes⟩
      defaultMaxArtifactBytes = .ok readback := by
  have visible : isBlank (newVersion projectId origin bytes mediaType).sourceVersionId = false := by
    have letter : isWhiteSpace 's' = false := by decide
    simp [newVersion, isBlank, letter]
  have address : (digestHex (contentDigest bytes)).isNone = false := by
    rw [digestHex_contentDigest]
    rfl
  have found : state.versions[SourceIdentity.versionKey ⟨projectId,
      (newVersion projectId origin bytes mediaType).sourceVersionId, contentDigest bytes⟩]? =
        some (newVersion projectId origin bytes mediaType) := present
  simp only [readIdentity, found, Drain.bind_eq_ok, Drain.refuse_eq_ok]
  exact ⟨_, (), by decide, (), project, (), by simp [visible, address], (), not_not.mpr rfl, (),
    not_lt.mpr small, bytes, stored, (), by simp [newVersion], rfl⟩

theorem recordRelationship_fresh {input : ArtifactRelationshipInput}
    (operation : state.artifactOperations[input.operationId]? = none)
    (key : state.artifactRelationships[input.key]? = none)
    (readable : ∃ readback, readIdentity environment state blobs input.source
      defaultMaxArtifactBytes = .ok readback)
    (room : state.artifactRelationships.size < maxArtifactRelationships) :
    recordRelationship environment state blobs input =
      .ok (⟨(insertRelationship environment state input).1, false⟩,
        some (insertRelationship environment state input).2) := by
  obtain ⟨readback, read⟩ := readable
  simp only [recordRelationship, operation, Drain.bind_eq_ok, Drain.refuse_eq_ok, Bool.not_eq_true]
  exact ⟨(), contains_eq_false.mpr key, readback, read, (), not_le.mpr room, rfl⟩

theorem step_record_fresh {input : ArtifactRelationshipInput}
    (valid : validateArtifactRelationship input = .ok ())
    (operation : state.artifactOperations[input.operationId]? = none)
    (key : state.artifactRelationships[input.key]? = none)
    (readable : ∃ readback, readIdentity environment state blobs input.source
      defaultMaxArtifactBytes = .ok readback)
    (room : state.artifactRelationships.size < maxArtifactRelationships) :
    step environment (.recordArtifactRelationship input) ⟨blobs, state, none⟩ =
      .ok () ⟨blobs, (insertRelationship environment state input).2, none⟩ := by
  have recorded := recordRelationship_fresh operation key readable room
  refine discard_eq_ok.mpr ⟨⟨(insertRelationship environment state input).1, false⟩, ?_⟩
  simp only [recordArtifactRelationship, bind_eq_ok, ofExcept_eq_ok]
  refine ⟨(), _, ⟨valid, rfl⟩, transact_memory ?_⟩
  simp only [bind_eq_ok, get_eq_ok, ofExcept_eq_ok]
  exact ⟨blobs, blobs, ⟨rfl, rfl⟩, recorded, rfl⟩

section Recordings

/-- Relationships that can be recorded one after the other. -/
structure Recordable (environment : Environment σ) (blobs : σ) (state : CatalogState)
    (inputs : List ArtifactRelationshipInput) : Prop where
  valid : ∀ input ∈ inputs, validateArtifactRelationship input = .ok ()
  readable : ∀ input ∈ inputs, ∃ readback, readIdentity environment state blobs input.source
    defaultMaxArtifactBytes = .ok readback
  operations : ∀ input ∈ inputs, state.artifactOperations[input.operationId]? = none
  keys : ∀ input ∈ inputs, state.artifactRelationships[input.key]? = none
  distinctOperations : (inputs.map (·.operationId)).Nodup
  distinctKeys : (inputs.map (·.key)).Nodup
  room : state.artifactRelationships.size + inputs.length ≤ maxArtifactRelationships

/-- What the recordings have added. -/
structure Recorded (inputs : List ArtifactRelationshipInput) (state next : CatalogState) : Prop where
  versions : next.versions = state.versions
  parseRecords : next.parseRecords = state.parseRecords
  indexes : next.indexes = state.indexes
  captures : next.captureOperations = state.captureOperations
  size : next.artifactRelationships.size = state.artifactRelationships.size + inputs.length
  relationships : ∀ (key : RowKey) (row : ArtifactRelationship),
    next.artifactRelationships[key]? = some row →
      state.artifactRelationships[key]? = some row ∨ ∃ input ∈ inputs, input.key = key
  operations : ∀ (operationId : String) (record : ArtifactOperationRecord),
    next.artifactOperations[operationId]? = some record →
      state.artifactOperations[operationId]? = some record ∨
        ∃ input ∈ inputs, input.operationId = operationId ∧ record.projectId = input.source.projectId

variable {input : ArtifactRelationshipInput} {inputs : List ArtifactRelationshipInput}

theorem Recordable.tail (recordable : Recordable environment blobs state (input :: inputs)) :
    Recordable environment blobs (insertRelationship environment state input).2 inputs := by
  obtain ⟨valid, readable, operations, keys, distinctOperations, distinctKeys, room⟩ := recordable
  rw [List.forall_mem_cons] at valid readable operations keys
  rw [List.map_cons, List.nodup_cons] at distinctOperations distinctKeys
  refine ⟨valid.2, readable.2, ?_, ?_, distinctOperations.2, distinctKeys.2, ?_⟩
  · intro other member
    refine (getElem?_insert_ne _ _ ?_).trans (operations.2 other member)
    intro same
    exact distinctOperations.1 (List.mem_map.mpr ⟨other, member, same.symm⟩)
  · intro other member
    refine (getElem?_insert_ne _ _ ?_).trans (keys.2 other member)
    intro same
    exact distinctKeys.1 (List.mem_map.mpr ⟨other, member, same.symm⟩)
  · change (state.artifactRelationships.insert input.key _).size + inputs.length ≤ _
    rw [size_insert_fresh keys.1]
    rw [List.length_cons] at room
    omega

theorem Recorded.cons {next : CatalogState}
    (fresh : state.artifactRelationships[input.key]? = none)
    (later : Recorded inputs (insertRelationship environment state input).2 next) :
    Recorded (input :: inputs) state next where
  versions := later.versions
  parseRecords := later.parseRecords
  indexes := later.indexes
  captures := later.captures
  size := by
    rw [later.size, List.length_cons]
    change (state.artifactRelationships.insert input.key _).size + _ = _
    rw [size_insert_fresh fresh]
    omega
  relationships := by
    intro key row present
    rcases later.relationships key row present with old | ⟨other, member, named⟩
    · change (state.artifactRelationships.insert input.key _)[key]? = some row at old
      rw [getElem?_insert] at old
      split_ifs at old with same
      · exact .inr ⟨input, List.mem_cons_self, same⟩
      · exact .inl old
    · exact .inr ⟨other, List.mem_cons_of_mem _ member, named⟩
  operations := by
    intro operationId record present
    rcases later.operations operationId record present with old | ⟨other, member, named⟩
    · change (state.artifactOperations.insert input.operationId _)[operationId]? = some record at old
      rw [getElem?_insert] at old
      split_ifs at old with same
      · cases old
        exact .inr ⟨input, List.mem_cons_self, same, rfl⟩
      · exact .inl old
    · exact .inr ⟨other, List.mem_cons_of_mem _ member, named⟩

theorem run_records (recordable : Recordable environment blobs state inputs) :
    ∃ next, run environment (inputs.map .recordArtifactRelationship) ⟨blobs, state, none⟩ =
        .ok () ⟨blobs, next, none⟩ ∧ Recorded inputs state next := by
  induction inputs generalizing state with
  | nil =>
    exact ⟨state, forM_nil_ok.mpr rfl, rfl, rfl, rfl, rfl, rfl, fun _ _ => .inl, fun _ _ => .inl⟩
  | cons input inputs ih =>
    obtain ⟨next, ran, recorded⟩ := ih recordable.tail
    have fresh := recordable.keys input List.mem_cons_self
    refine ⟨next, forM_cons_ok.mpr ⟨_, step_record_fresh ?_ ?_ fresh ?_ ?_, ran⟩, recorded.cons fresh⟩
    · exact recordable.valid input List.mem_cons_self
    · exact recordable.operations input List.mem_cons_self
    · exact recordable.readable input List.mem_cons_self
    · have := recordable.room
      rw [List.length_cons] at this
      omega

end Recordings

section Bundles

variable {imported : CatalogState} {packed : List SourceBundleBlob} {projectId : String}
  {bytes : List UInt8}

def bundleMetadata (projectId : String) (imported : CatalogState) : SourceBundleMetadata :=
  ⟨sourceBundleFormatV1, projectId, persistedState imported⟩

theorem persistedRows_empty {α : Type} : persistedRows (∅ : Std.ExtTreeMap RowKey α) = [] := by
  rw [persistedRows, Std.ExtTreeMap.toList_eq_nil_iff.mpr rfl]
  rfl

theorem importBundle_encoded (project : validateProjectId projectId = .ok ())
    (sound : Sound environment.formats imported)
    (few : imported.artifactRelationships.size ≤ maxArtifactRelationships)
    (underived : imported.indexes = ∅) (valid : validateBundleProjectState imported projectId = .ok ())
    (complete : validateBundleBlobs imported packed = .ok ()) (addressed : Addressed packed)
    (fewBlobs : packed.length ≤ 1000000)
    (encoded : encodeSourceBundle
      (environment.formats.metadata.toVec (bundleMetadata projectId imported)) packed = .ok bytes) :
    importBundle environment ⟨sourceBundleFormatV1, projectId, bytes⟩ projectId =
      .ok (imported, packed, (packed.map (·.bytes.length)).sum) := by
  have decoded := decodeSourceBundle_encodeSourceBundle addressed fewBlobs encoded
  have bounded : ¬maxSourceBundleBytes < bytes.length := by
    simp only [decodeSourceBundle, Drain.bind_eq_ok, Drain.refuse_eq_ok] at decoded
    exact decoded.choose_spec.1
  have restored : restoreCatalogState environment.formats
      (environment.formats.state.toVec (persistedState imported)) = .ok imported :=
    (readable_iff sound).mpr few
  simp only [importBundle, Drain.bind_eq_ok, Drain.refuse_eq_ok, Drain.mapError_eq_ok]
  refine ⟨(), project, (), ?_, (), bounded, _, decoded, (), ?_, imported, restored, (), valid, (),
    complete, rfl⟩
  · simp
  · simp [bundleMetadata, persistedState, underived, persistedRows_empty]

theorem restoreImported_fresh {total : ℕ}
    (unpopulated : projectScopeIsPopulated (projectState state projectId) = false)
    (captures : ∀ operationId ∈ imported.captureOperations,
      operationId ∉ state.captureOperations)
    (operations : ∀ operationId ∈ imported.artifactOperations,
      operationId ∉ state.artifactOperations)
    (stored : (packed.forM fun blob => environment.store.put blob.digest blob.bytes) blobs =
      .ok () blobs') :
    restoreImported environment state imported packed total projectId blobs =
      .ok (bundleReadback projectId imported packed.length total false,
        some (mergeProjectState state imported)) blobs' := by
  rw [restoreImported, if_neg (Bool.eq_false_iff.mp unpopulated)]
  simp only [bind_eq_ok, ofExcept_eq_ok, Drain.refuse_eq_ok, pure_eq_ok]
  refine ⟨(), blobs, ⟨?_, rfl⟩, (), blobs', stored, trivial, rfl⟩
  rw [not_or, List.any_eq_true, List.any_eq_true]
  refine ⟨?_, ?_⟩
  · rintro ⟨operationId, member, taken⟩
    exact captures operationId (Std.ExtTreeMap.mem_keys.mp member)
      (Std.ExtTreeMap.contains_iff_mem.mp taken)
  · rintro ⟨operationId, member, taken⟩
    exact operations operationId (Std.ExtTreeMap.mem_keys.mp member)
      (Std.ExtTreeMap.contains_iff_mem.mp taken)

end Bundles

end Boreal.Source
