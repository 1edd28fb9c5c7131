/- Captures and relationships under operation ids: a call that is repeated answers as it did before, a
call that fails leaves nothing behind. -/
import BorealWork.CatalogTransactions
import BorealWork.Library.Machines

namespace Boreal.Source
open Tables Transactions Machines Rendering

variable {σ : Type} (environment : Environment σ)

inductive SourceRequest
  | capture (request : SourceCaptureRequest)
  | relate (input : ArtifactRelationshipInput)
  deriving DecidableEq

inductive SourceReceipt
  | captured (receipt : SourceCaptureReceipt)
  | related (receipt : ArtifactRelationshipReceipt)
  deriving DecidableEq

/-- The two kinds of operations are kept in tables of their own. -/
inductive SourceOperation
  | capture (operationId : String)
  | relate (operationId : String)
  deriving DecidableEq

def SourceRequest.operation : SourceRequest → SourceOperation
  | .capture request => .capture request.operationId
  | .relate input => .relate input.operationId

/-- What a call meets: what has become of the blobs, and how the disk will behave. -/
structure SourceCall (σ : Type) where
  request : SourceRequest
  blobs : σ → σ
  lockFault : Option SourceError
  readFault : Option SourceError
  writeOutcome : WriteOutcome

def SourceCall.meet (call : SourceCall σ) (catalog : Catalog σ) : Catalog σ where
  blobs := call.blobs catalog.blobs
  state := catalog.state
  disk := catalog.disk.map fun disk =>
    ⟨disk.file, call.lockFault, call.readFault, call.writeOutcome⟩

def serveRequest : SourceRequest → EStateM SourceError (Catalog σ) SourceReceipt
  | .capture request => do
    let receipt ← captureWithOperation environment request
    return .captured receipt
  | .relate input => do
    let receipt ← recordArtifactRelationship environment input
    return .related receipt

def attempt (catalog : Catalog σ) (call : SourceCall σ) :
    Except SourceError SourceReceipt × Catalog σ :=
  match serveRequest environment call.request (call.meet catalog) with
  | .ok receipt final => (.ok receipt, final)
  | .error error final => (.error error, final)

/-- A catalogue that nothing was written to yet. -/
def Fresh (start : Catalog σ) : Prop :=
  ∃ blobs : σ, start = withBlobStore blobs ∨
    ∃ disk : Disk, disk.file = none ∧ withPersistentFilesystem environment blobs disk = .ok start

section Digests

variable (formats : JsonFormats)

def captureFields (request : SourceCaptureRequest) : List String :=
  [request.projectId, request.origin, request.mediaType, contentDigest request.bytes]

/-- The text whose address is the digest of a capture. -/
def captureText (request : SourceCaptureRequest) : List UInt8 :=
  (captureFields request).flatMap fun field =>
    utf8 (toString field.utf8ByteSize) ++ utf8 ":" ++ utf8 field ++ [0]

def SourceRequest.digested : SourceRequest → List (List UInt8)
  | .capture request => [captureText request, request.bytes]
  | .relate input => [formats.relationship.toVec input]

def CollisionFree (calls : List (SourceCall σ)) : Prop :=
  Set.InjOn contentDigest {bytes | ∃ call ∈ calls, bytes ∈ call.request.digested formats}

def framed (field : String) : List Char :=
  Nat.toDigits 10 field.utf8ByteSize ++ ':' :: (field.toList ++ ['\x00'])

theorem framed_prefixFree : PrefixFree framed := by
  intro a b s t same
  simp only [framed, List.append_assoc, List.cons_append, List.nil_append] at same
  obtain ⟨size, rest⟩ := toDigits_delimited (by decide) (by decide) (by decide) same
  have bytes := congrArg (List.flatMap String.utf8EncodeChar) rest
  rw [List.flatMap_append, List.flatMap_append] at bytes
  obtain ⟨texts, _⟩ := List.append_inj bytes (by
    rw [← utf8, ← utf8, length_utf8, length_utf8, size])
  obtain rfl := utf8_injective texts
  exact ⟨rfl, (List.cons.inj (List.append_cancel_left rest)).2⟩

theorem captureText_framed (request : SourceCaptureRequest) :
    captureText request = utf8 (String.ofList ((captureFields request).flatMap framed)) := by
  have encoded (text : List Char) : utf8 (String.ofList text) = text.flatMap String.utf8EncodeChar := by
    rw [utf8, String.toList_ofList]
  unfold captureText
  rw [encoded ((captureFields request).flatMap framed), List.flatMap_assoc]
  refine List.flatMap_congr fun field _ => ?_
  have digits : (toString field.utf8ByteSize).toList = Nat.toDigits 10 field.utf8ByteSize := by
    rw [Nat.toString_eq_repr, Nat.toList_repr]
  have colon : utf8 ":" = String.utf8EncodeChar ':' := rfl
  have null : String.utf8EncodeChar '\x00' = [0] := rfl
  rw [framed, List.flatMap_append, List.flatMap_cons, List.flatMap_append, List.flatMap_singleton, colon,
    null, utf8, utf8, digits]
  simp only [List.append_assoc]

theorem captureText_inj {request request' : SourceCaptureRequest}
    (operation : request.operationId = request'.operationId)
    (address : contentDigest request.bytes = contentDigest request'.bytes →
      request.bytes = request'.bytes)
    (same : captureText request = captureText request') : request = request' := by
  rw [captureText_framed, captureText_framed] at same
  have texts := String.ofList_injective (utf8_injective same)
  have fields : captureFields request = captureFields request' :=
    framed_prefixFree.flatMap rfl texts
  obtain ⟨operationId, projectId, origin, mediaType, bytes⟩ := request
  obtain ⟨operationId', projectId', origin', mediaType', bytes'⟩ := request'
  obtain ⟨rfl, rfl, rfl, digest⟩ : projectId = projectId' ∧ origin = origin' ∧
      mediaType = mediaType' ∧ contentDigest bytes = contentDigest bytes' := by
    simpa [captureFields] using fields
  obtain rfl := address digest
  obtain rfl := operation
  rfl

theorem digest_capture_inj {calls : List (SourceCall σ)} (free : CollisionFree formats calls)
    {call call' : SourceCall σ} (member : call ∈ calls) (member' : call' ∈ calls)
    {request request' : SourceCaptureRequest} (made : call.request = .capture request)
    (made' : call'.request = .capture request') (operation : request.operationId = request'.operationId)
    (same : captureRequestDigest request = captureRequestDigest request') : request = request' := by
  have digested {c : SourceCall σ} {r : SourceCaptureRequest} (listed : c ∈ calls)
      (asked : c.request = .capture r) {bytes : List UInt8} (part : bytes ∈ [captureText r, r.bytes]) :
      ∃ call ∈ calls, bytes ∈ call.request.digested formats := ⟨c, listed, by rw [asked]; exact part⟩
  refine captureText_inj operation ?_ ?_
  · exact free (digested member made (by simp)) (digested member' made' (by simp))
  · exact free (digested member made (by simp)) (digested member' made' (by simp)) same

theorem digest_relate_inj {calls : List (SourceCall σ)} (free : CollisionFree formats calls)
    {call call' : SourceCall σ} (member : call ∈ calls) (member' : call' ∈ calls)
    {input input' : ArtifactRelationshipInput} (made : call.request = .relate input)
    (made' : call'.request = .relate input')
    (same : artifactRelationshipDigest formats input = artifactRelationshipDigest formats input') :
    input = input' := by
  have texts : formats.relationship.toVec input = formats.relationship.toVec input' :=
    free ⟨call, member, by rw [made]; exact List.mem_cons_self⟩
      ⟨call', member', by rw [made']; exact List.mem_cons_self⟩ same
  have read := formats.relationship.fromSlice_toVec input
  rw [texts, formats.relationship.fromSlice_toVec input'] at read
  exact (Except.ok.inj read).symm

end Digests

section Growth

variable {environment} {state next : CatalogState} {blobs blobs' : σ} {change : Option CatalogState}

/-- Nothing that is stored is replaced or lost, and no revision falls. -/
structure Grown (state next : CatalogState) : Prop where
  versions : ∀ (key : RowKey) (version : SourceVersion),
    state.versions[key]? = some version → next.versions[key]? = some version
  relationships : ∀ (key : RowKey) (relationship : ArtifactRelationship),
    state.artifactRelationships[key]? = some relationship →
      next.artifactRelationships[key]? = some relationship
  captures : ∀ (operationId : String) (record : CaptureOperationRecord),
    state.captureOperations[operationId]? = some record →
      next.captureOperations[operationId]? = some record
  operations : ∀ (operationId : String) (record : ArtifactOperationRecord),
    state.artifactOperations[operationId]? = some record →
      next.artifactOperations[operationId]? = some record
  sourceRevision : state.sourceRevision ≤ next.sourceRevision
  indexRevision : state.indexRevision ≤ next.indexRevision
  artifactRevision : state.artifactRevision ≤ next.artifactRevision

theorem Grown.refl (state : CatalogState) : Grown state state :=
  ⟨fun _ _ => id, fun _ _ => id, fun _ _ => id, fun _ _ => id, UInt64.le_refl _, UInt64.le_refl _,
    UInt64.le_refl _⟩

theorem getElem?_insert_of_fresh {κ ν : Type} [LinearOrder κ] {table : Std.ExtTreeMap κ ν} {key : κ}
    (fresh : table[key]? = none) (row : ν) (other : κ) (old : ν) (present : table[other]? = some old) :
    (table.insert key row)[other]? = some old := by
  refine (getElem?_insert_ne _ _ ?_).trans present
  rintro rfl
  rw [fresh] at present
  cases present

theorem captureVersion_ok {projectId origin mediaType : String} {bytes : List UInt8}
    {version : SourceVersion}
    (captured : captureVersion environment state projectId origin bytes mediaType blobs =
      .ok (version, change) blobs') : validateProjectId projectId = .ok () ∧
    ((∃ existing availability, state.versions[(newVersion projectId origin bytes mediaType).key]? =
        some existing ∧ version = { existing with availability } ∧ change = none) ∨
      (state.versions[(newVersion projectId origin bytes mediaType).key]? = none ∧
        version = newVersion projectId origin bytes mediaType ∧
        change = some (insertVersion state version))) := by
  simp only [captureVersion, bind_eq_ok, ofExcept_eq_ok] at captured
  obtain ⟨_, _, ⟨project, _⟩, _, _, _, _, _, _, stored⟩ := captured
  refine ⟨project, ?_⟩
  cases present : state.versions[(newVersion projectId origin bytes mediaType).key]? with
  | some existing =>
    simp only [present, bind_eq_ok, pure_eq_ok] at stored
    obtain ⟨reused, _, found, answer, _⟩ := stored
    cases answer
    simp only [reuseVersion, bind_eq_ok, ofExcept_eq_ok, currentSnapshot, Drain.bind_eq_ok] at found
    obtain ⟨_, _, _, _, _, _, _, _, _, ⟨availability, _, same⟩, _⟩ := found
    cases same
    exact .inl ⟨existing, availability, rfl, rfl, rfl⟩
  | none =>
    simp only [present, bind_eq_ok, pure_eq_ok] at stored
    obtain ⟨_, _, _, answer, _⟩ := stored
    cases answer
    exact .inr ⟨rfl, rfl, rfl⟩

theorem captureVersion_grown {projectId origin mediaType : String} {bytes : List UInt8}
    {version : SourceVersion}
    (captured : captureVersion environment state projectId origin bytes mediaType blobs =
      .ok (version, change) blobs') : Grown state (change.getD state) := by
  obtain ⟨_, ⟨_, _, _, _, rfl⟩ | ⟨fresh, rfl, rfl⟩⟩ := captureVersion_ok captured
  · exact Grown.refl state
  · exact ⟨getElem?_insert_of_fresh fresh _, fun _ _ => id, fun _ _ => id, fun _ _ => id,
      le_nextRevision _, UInt64.le_refl _, UInt64.le_refl _⟩

theorem captureOperation_grown {request : SourceCaptureRequest} {receipt : SourceCaptureReceipt}
    (captured : captureOperation environment state request blobs = .ok (receipt, change) blobs') :
    Grown state (change.getD state) := by
  simp only [captureOperation, bind_eq_ok] at captured
  obtain ⟨_, _, _, stored⟩ := captured
  cases known : state.captureOperations[request.operationId]? with
  | some record =>
    simp only [known, bind_eq_ok, pure_eq_ok] at stored
    obtain ⟨_, _, _, answer, _⟩ := stored
    cases answer
    exact Grown.refl state
  | none =>
    simp only [known, bind_eq_ok, pure_eq_ok] at stored
    obtain ⟨⟨version, middle⟩, _, captured, answer, _⟩ := stored
    cases answer
    have grown := captureVersion_grown captured
    refine { grown with captures := ?_ }
    intro operationId record present
    have kept := grown.captures operationId record present
    refine getElem?_insert_of_fresh ?_ _ operationId record kept
    have same : (middle.getD state).captureOperations = state.captureOperations := by
      obtain ⟨_, ⟨_, _, _, _, rfl⟩ | ⟨_, _, rfl⟩⟩ := captureVersion_ok captured
      · rfl
      · rfl
    rw [same, known]

theorem recordRelationship_grown {input : ArtifactRelationshipInput} {receipt : ArtifactRelationshipReceipt}
    (recorded : recordRelationship environment state blobs input = .ok (receipt, change)) :
    Grown state (change.getD state) := by
  rw [recordRelationship] at recorded
  cases known : state.artifactOperations[input.operationId]? with
  | some existing =>
    simp only [known, Drain.bind_eq_ok] at recorded
    obtain ⟨_, _, answer⟩ := recorded
    cases answer
    exact Grown.refl state
  | none =>
    simp only [known, Drain.bind_eq_ok, Drain.refuse_eq_ok, Bool.not_eq_true] at recorded
    obtain ⟨_, taken, _, _, _, _, answer⟩ := recorded
    cases answer
    exact ⟨fun _ _ => id, getElem?_insert_of_fresh (contains_eq_false.mp taken) _, fun _ _ => id,
      getElem?_insert_of_fresh known _, UInt64.le_refl _, UInt64.le_refl _, le_nextRevision _⟩

end Growth

section Reading

variable {environment} {state next : CatalogState} {blobs : σ} {identity : SourceIdentity}

structure Readback (state : CatalogState) (identity : SourceIdentity) (version : SourceVersion) :
    Prop where
  project : validateProjectId identity.projectId = .ok ()
  named : ¬(isBlank identity.sourceVersionId = true ∨
    (digestHex identity.contentDigest).isNone = true)
  stored : state.versions[identity.versionKey]? = some version
  address : version.contentDigest = identity.contentDigest
  small : version.byteCount ≤ defaultMaxArtifactBytes

theorem readIdentity_eq_ok {readback : SourceReadback} :
    readIdentity environment state blobs identity defaultMaxArtifactBytes = .ok readback ↔
      ∃ version bytes, Readback state identity version ∧
        environment.store.readVerified blobs version.contentDigest version.byteCount = .ok bytes ∧
        bytes.length = version.byteCount ∧ contentDigest bytes = identity.contentDigest ∧
        readback = ⟨⟨version.projectId, version.sourceVersionId, version.contentDigest⟩,
          version.mediaType, bytes.length, bytes⟩ := by
  simp only [readIdentity, Drain.bind_eq_ok, Drain.refuse_eq_ok]
  constructor
  · rintro ⟨_, _, _, project, _, named, found⟩
    cases stored : state.versions[identity.versionKey]? with
    | none =>
      rw [stored] at found
      cases found
    | some version =>
      simp only [stored, Drain.bind_eq_ok, Drain.refuse_eq_ok, not_not, not_or, not_lt] at found
      obtain ⟨_, address, _, small, bytes, read, _, ⟨length, digest⟩, answer⟩ := found
      cases answer
      exact ⟨version, bytes, ⟨project, named, stored, address, small⟩, read, length, digest, rfl⟩
  · rintro ⟨version, bytes, ⟨project, named, stored, address, small⟩, read, length, digest, rfl⟩
    refine ⟨(), by decide, (), project, (), named, ?_⟩
    simp only [stored, Drain.bind_eq_ok, Drain.refuse_eq_ok, not_not, not_or, not_lt]
    exact ⟨(), address, (), small, bytes, read, (), ⟨length, digest⟩, rfl⟩

theorem Readback.grown {version : SourceVersion} (readback : Readback state identity version)
    (grown : Grown state next) : Readback next identity version :=
  { readback with stored := grown.versions _ _ readback.stored }

end Reading

section Notes

variable {environment} {state next : CatalogState}

/-- What the catalogue knows of a request that it answered. -/
def Noted (environment : Environment σ) (state : CatalogState) : SourceRequest → SourceReceipt → Prop
  | .capture request, .captured receipt =>
    validateOperationId request.operationId = .ok () ∧
    receipt.operationId = request.operationId ∧
    validateProjectId receipt.sourceVersion.projectId = .ok () ∧
    state.captureOperations[request.operationId]? = some ⟨captureRequestDigest request,
      receipt.sourceVersion.projectId, receipt.sourceVersion.sourceVersionId⟩ ∧
    ∃ availability, state.versions[receipt.sourceVersion.key]? =
      some { receipt.sourceVersion with availability }
  | .relate input, .related receipt =>
    validateArtifactRelationship input = .ok () ∧
    state.artifactOperations[input.operationId]? =
      some ⟨artifactRelationshipDigest environment.formats input, input.source.projectId,
        input.relationshipId⟩ ∧
    state.artifactRelationships[input.key]? = some receipt.relationship ∧
    ∃ version, Readback state input.source version
  | _, _ => False

theorem Noted.grown {request : SourceRequest} {receipt : SourceReceipt}
    (noted : Noted environment state request receipt) (grown : Grown state next) :
    Noted environment next request receipt := by
  cases request with
  | capture request =>
    cases receipt with
    | captured receipt =>
      obtain ⟨named, own, project, recorded, availability, stored⟩ := noted
      exact ⟨named, own, project, grown.captures _ _ recorded, availability, grown.versions _ _ stored⟩
    | related receipt => exact noted.elim
  | relate input =>
    cases receipt with
    | captured receipt => exact noted.elim
    | related receipt =>
      obtain ⟨valid, recorded, stored, version, readback⟩ := noted
      exact ⟨valid, grown.operations _ _ recorded, grown.relationships _ _ stored, version,
        readback.grown grown⟩

def Repeats : SourceReceipt → SourceReceipt → Prop
  | .captured receipt, .captured again =>
    again.operationId = receipt.operationId ∧
    (∃ availability, again.sourceVersion = { receipt.sourceVersion with availability }) ∧
    again.duplicate = true
  | .related receipt, .related again =>
    again.relationship = receipt.relationship ∧ again.duplicate = true
  | _, _ => False

variable {blobs blobs' : σ} {change : Option CatalogState}
  {request request' : SourceCaptureRequest} {receipt : SourceCaptureReceipt}

theorem replayCapture_ok {record : CaptureOperationRecord}
    (replayed : replayCapture environment state request record blobs = .ok receipt blobs') :
    record.requestDigest = captureRequestDigest request ∧ ∃ version availability,
      state.versions[(toLex (record.projectId, record.sourceVersionId) : RowKey)]? = some version ∧
      validateProjectId version.projectId = .ok () ∧
      receipt = ⟨request.operationId, { version with availability }, true, false⟩ := by
  simp only [replayCapture, bind_eq_ok, ofExcept_eq_ok, Drain.refuse_eq_ok, not_not] at replayed
  obtain ⟨_, _, ⟨digest, rfl⟩, found⟩ := replayed
  refine ⟨digest, ?_⟩
  cases stored : state.versions[(toLex (record.projectId, record.sourceVersionId) : RowKey)]? with
  | none =>
    rw [stored] at found
    exact (throw_eq_ok.mp found).elim
  | some version =>
    simp only [stored, bind_eq_ok, ofExcept_eq_ok, pure_eq_ok] at found
    obtain ⟨_, _, _, _, _, _, snapshot, _, ⟨taken, _⟩, answer, _⟩ := found
    simp only [currentSnapshot, availability, authorizedVersion, Drain.bind_eq_ok] at taken
    obtain ⟨present, ⟨_, ⟨_, project, _⟩, _⟩, same⟩ := taken
    cases same
    exact ⟨version, present, rfl, project, answer.symm⟩

theorem captureOperation_known {record : CaptureOperationRecord}
    (known : state.captureOperations[request.operationId]? = some record) :
    captureOperation environment state request blobs = .ok (receipt, change) blobs' ↔
      validateOperationId request.operationId = .ok () ∧ change = none ∧
        replayCapture environment state request record blobs = .ok receipt blobs' := by
  simp only [captureOperation, bind_eq_ok, ofExcept_eq_ok, known, pure_eq_ok]
  constructor
  · rintro ⟨_, _, ⟨named, rfl⟩, _, _, replayed, answer, rfl⟩
    cases answer
    exact ⟨named, rfl, replayed⟩
  · rintro ⟨named, rfl, replayed⟩
    exact ⟨(), blobs, ⟨named, rfl⟩, receipt, blobs', replayed, rfl, rfl⟩

theorem captureOperation_noted (owned : ∀ (key : RowKey) (version : SourceVersion),
      state.versions[key]? = some version → key = version.key)
    (captured : captureOperation environment state request blobs = .ok (receipt, change) blobs') :
    Noted environment (change.getD state) (.capture request) (.captured receipt) := by
  cases known : state.captureOperations[request.operationId]? with
  | some record =>
    obtain ⟨named, rfl, replayed⟩ := (captureOperation_known known).mp captured
    obtain ⟨digest, version, availability, stored, project, rfl⟩ := replayCapture_ok replayed
    have own := owned _ version stored
    have recorded : record = ⟨captureRequestDigest request, version.projectId,
        version.sourceVersionId⟩ := by
      obtain ⟨requestDigest, projectId, sourceVersionId⟩ := record
      cases own
      cases digest
      rfl
    rw [own] at stored
    exact ⟨named, rfl, project, known.trans (congrArg some recorded), version.availability, stored⟩
  | none =>
    simp only [captureOperation, bind_eq_ok, ofExcept_eq_ok, known, pure_eq_ok] at captured
    obtain ⟨_, _, ⟨named, rfl⟩, ⟨version, middle⟩, _, captured, answer, _⟩ := captured
    cases answer
    obtain ⟨project, ⟨existing, availability, present, rfl, rfl⟩ | ⟨fresh, rfl, rfl⟩⟩ :=
      captureVersion_ok captured
    · have own := owned _ existing present
      have projects : request.projectId = existing.projectId :=
        congrArg (fun key : RowKey => (ofLex key).1) own
      refine ⟨named, rfl, projects ▸ project, getElem?_insert_self _ _ _, existing.availability, ?_⟩
      rw [own] at present
      exact present
    · exact ⟨named, rfl, project, getElem?_insert_self _ _ _, .available, getElem?_insert_self _ _ _⟩

theorem captureOperation_repeats {again : SourceCaptureReceipt}
    (noted : Noted environment state (.capture request) (.captured receipt))
    (captured : captureOperation environment state request blobs = .ok (again, change) blobs') :
    change = none ∧ Repeats (.captured receipt) (.captured again) := by
  obtain ⟨_, own, _, recorded, availability, stored⟩ := noted
  obtain ⟨_, rfl, replayed⟩ := (captureOperation_known recorded).mp captured
  obtain ⟨_, version, availability', found, _, rfl⟩ := replayCapture_ok replayed
  have same := stored.symm.trans found
  cases same
  exact ⟨rfl, own.symm, ⟨availability', rfl⟩, rfl⟩

variable {version : SourceVersion}

theorem authorizedVersion_stored (project : validateProjectId version.projectId = .ok ())
    (stored : state.versions[version.key]? = some version) :
    authorizedVersion state version = .ok version := by
  simp [authorizedVersion, project, stored, Drain.ok_bind]

variable {bytes : List UInt8}

theorem currentSnapshot_available (project : validateProjectId version.projectId = .ok ())
    (stored : state.versions[version.key]? = some version)
    (read : environment.store.readVerified blobs version.contentDigest version.byteCount = .ok bytes) :
    currentSnapshot environment state blobs version =
      .ok { version with availability := .available } := by
  simp [currentSnapshot, availability, authorizedVersion_stored project stored, read, Drain.ok_bind]

theorem captureOperation_answers (noted : Noted environment state (.capture request) (.captured receipt))
    (put : environment.store.put receipt.sourceVersion.contentDigest request.bytes blobs =
      .ok () blobs')
    (read : environment.store.readVerified blobs' receipt.sourceVersion.contentDigest
      receipt.sourceVersion.byteCount = .ok bytes) :
    ∃ again, captureOperation environment state request blobs = .ok (again, none) blobs' := by
  obtain ⟨named, _, project, recorded, present, stored⟩ := noted
  have snapshot := @currentSnapshot_available _ environment state blobs'
    { receipt.sourceVersion with availability := present } bytes project stored read
  refine ⟨⟨request.operationId, { receipt.sourceVersion with availability := .available }, true, false⟩,
    (captureOperation_known recorded).mpr ⟨named, rfl, ?_⟩⟩
  have found : state.versions[(toLex (receipt.sourceVersion.projectId,
      receipt.sourceVersion.sourceVersionId) : RowKey)]? =
        some { receipt.sourceVersion with availability := present } := stored
  simp only [replayCapture, found, bind_eq_ok, ofExcept_eq_ok, Drain.refuse_eq_ok, get_eq_ok, pure_eq_ok]
  exact ⟨(), blobs, ⟨not_not.mpr rfl, rfl⟩, (), blobs', put, blobs', blobs', ⟨rfl, rfl⟩, _, blobs',
    ⟨snapshot, rfl⟩, rfl, rfl⟩

theorem captureOperation_conflict (noted : Noted environment state (.capture request) (.captured receipt))
    (reused : request'.operationId = request.operationId)
    (other : captureRequestDigest request' ≠ captureRequestDigest request) :
    captureOperation environment state request' blobs = .error .operationConflict blobs := by
  obtain ⟨named, _, _, recorded, _⟩ := noted
  rw [← reused] at named recorded
  have refused : Drain.refuse (captureRequestDigest request ≠ captureRequestDigest request')
      SourceError.operationConflict = .error .operationConflict := if_pos other.symm
  rw [captureOperation, bind_of_ok (ofExcept_eq_ok.mpr ⟨named, rfl⟩), recorded]
  refine bind_of_error ?_
  rw [replayCapture, refused]
  exact bind_of_error (ofExcept_error _ _)

variable {input input' : ArtifactRelationshipInput} {related : ArtifactRelationshipReceipt}

theorem replayRelationship_eq_ok {existing : ArtifactOperationRecord} :
    replayRelationship environment state blobs input existing = .ok related ↔
      existing = ⟨artifactRelationshipDigest environment.formats input, input.source.projectId,
        input.relationshipId⟩ ∧
      (∃ relationship, state.artifactRelationships[input.key]? = some relationship ∧
        related = ⟨relationship, true⟩) ∧
      ∃ readback, readIdentity environment state blobs input.source defaultMaxArtifactBytes =
        .ok readback := by
  have key : ArtifactOperationRecord.key ⟨artifactRelationshipDigest environment.formats input,
      input.source.projectId, input.relationshipId⟩ = input.key := rfl
  simp only [replayRelationship, Drain.bind_eq_ok, Drain.refuse_eq_ok, not_or, not_not]
  constructor
  · rintro ⟨_, ⟨digest, project, relationshipId⟩, found⟩
    obtain rfl : existing = ⟨artifactRelationshipDigest environment.formats input,
        input.source.projectId, input.relationshipId⟩ := by
      obtain ⟨_, _, _⟩ := existing
      cases digest
      cases project
      cases relationshipId
      rfl
    refine ⟨rfl, ?_⟩
    rw [key] at found
    cases stored : state.artifactRelationships[input.key]? with
    | none =>
      rw [stored] at found
      cases found
    | some relationship =>
      simp only [stored, Drain.bind_eq_ok] at found
      obtain ⟨readback, read, answer⟩ := found
      cases answer
      exact ⟨⟨relationship, rfl, rfl⟩, readback, read⟩
  · rintro ⟨rfl, ⟨relationship, stored, rfl⟩, readback, read⟩
    refine ⟨(), ⟨rfl, rfl, rfl⟩, ?_⟩
    rw [key]
    simp only [stored, Drain.bind_eq_ok]
    exact ⟨readback, read, rfl⟩

theorem recordRelationship_known {existing : ArtifactOperationRecord}
    (known : state.artifactOperations[input.operationId]? = some existing) :
    recordRelationship environment state blobs input = .ok (related, change) ↔
      change = none ∧ replayRelationship environment state blobs input existing = .ok related := by
  simp only [recordRelationship, known, Drain.bind_eq_ok]
  constructor
  · rintro ⟨_, replayed, answer⟩
    cases answer
    exact ⟨rfl, replayed⟩
  · rintro ⟨rfl, replayed⟩
    exact ⟨related, replayed, rfl⟩

theorem recordRelationship_noted (valid : validateArtifactRelationship input = .ok ())
    (recorded : recordRelationship environment state blobs input = .ok (related, change)) :
    Noted environment (change.getD state) (.relate input) (.related related) := by
  cases known : state.artifactOperations[input.operationId]? with
  | some existing =>
    obtain ⟨rfl, replayed⟩ := (recordRelationship_known known).mp recorded
    obtain ⟨rfl, ⟨relationship, stored, rfl⟩, readback, read⟩ := replayRelationship_eq_ok.mp replayed
    obtain ⟨version, _, kept, _⟩ := readIdentity_eq_ok.mp read
    exact ⟨valid, known, stored, version, kept⟩
  | none =>
    simp only [recordRelationship, known, Drain.bind_eq_ok, Drain.refuse_eq_ok] at recorded
    obtain ⟨_, _, _, read, _, _, answer⟩ := recorded
    cases answer
    obtain ⟨version, _, kept, _⟩ := readIdentity_eq_ok.mp read
    exact ⟨valid, getElem?_insert_self _ _ _, getElem?_insert_self _ _ _, version,
      ⟨kept.project, kept.named, kept.stored, kept.address, kept.small⟩⟩

theorem recordRelationship_repeats {again : ArtifactRelationshipReceipt}
    (noted : Noted environment state (.relate input) (.related related))
    (recorded : recordRelationship environment state blobs input = .ok (again, change)) :
    change = none ∧ Repeats (.related related) (.related again) := by
  obtain ⟨_, known, stored, _⟩ := noted
  obtain ⟨rfl, replayed⟩ := (recordRelationship_known known).mp recorded
  obtain ⟨_, ⟨relationship, found, rfl⟩, _⟩ := replayRelationship_eq_ok.mp replayed
  exact ⟨rfl, Option.some.inj (found.symm.trans stored), rfl⟩

theorem recordRelationship_answers (noted : Noted environment state (.relate input) (.related related))
    (cited : state.versions[input.source.versionKey]? = some version)
    (read : environment.store.readVerified blobs version.contentDigest version.byteCount = .ok bytes)
    (length : bytes.length = version.byteCount) (address : contentDigest bytes = version.contentDigest) :
    ∃ again, recordRelationship environment state blobs input = .ok (again, none) := by
  obtain ⟨_, known, stored, version', kept⟩ := noted
  cases kept.stored.symm.trans cited
  have readback := readIdentity_eq_ok.mpr
    ⟨version, bytes, kept, read, length, address.trans kept.address, rfl⟩
  exact ⟨_, (recordRelationship_known known).mpr
    ⟨rfl, replayRelationship_eq_ok.mpr ⟨rfl, ⟨_, stored, rfl⟩, _, readback⟩⟩⟩

theorem recordRelationship_conflict (noted : Noted environment state (.relate input) (.related related))
    (reused : input'.operationId = input.operationId)
    (other : artifactRelationshipDigest environment.formats input' ≠
      artifactRelationshipDigest environment.formats input) :
    recordRelationship environment state blobs input' = .error .operationConflict := by
  obtain ⟨_, known, _⟩ := noted
  rw [← reused] at known
  have refused : ∀ other' : Prop, ∀ _ : Decidable other', Drain.refuse
      (artifactRelationshipDigest environment.formats input ≠
        artifactRelationshipDigest environment.formats input' ∨ other') SourceError.operationConflict =
          .error .operationConflict := fun _ _ => if_pos (.inl other.symm)
  simp only [recordRelationship, known, replayRelationship, refused]
  rfl

end Notes

section Keeping

variable {environment} {catalog final : Catalog σ} {call : SourceCall σ}

/-- The memory is fit to be written, and says what the snapshot says. -/
def Kept (environment : Environment σ) (catalog : Catalog σ) : Prop :=
  Fit environment.formats True catalog.state ∧ metadata environment catalog = .ok catalog.state

def Unchanged (catalog final : Catalog σ) : Prop :=
  final.state = catalog.state ∧ final.file = catalog.file

theorem Kept.unchanged (kept : Kept environment catalog) (unchanged : Unchanged catalog final) :
    Kept environment final := by
  obtain ⟨state, file⟩ := unchanged
  refine ⟨state ▸ kept.1, ?_⟩
  have known := kept.2
  unfold metadata at known ⊢
  rw [file, state]
  exact known

theorem Kept.untouched (kept : Kept environment catalog)
    (untouched : Untouched environment catalog final) : Unchanged catalog final := by
  refine ⟨?_, untouched.1⟩
  rcases untouched.2 with same | known
  · exact same
  · rw [kept.2] at known
    exact (Except.ok.inj known).symm

@[simp] theorem meet_state (call : SourceCall σ) (catalog : Catalog σ) :
    (call.meet catalog).state = catalog.state := rfl

@[simp] theorem meet_file (call : SourceCall σ) (catalog : Catalog σ) :
    (call.meet catalog).file = catalog.file := by
  unfold SourceCall.meet Catalog.file
  cases catalog.disk with
  | none => rfl
  | some disk => rfl

theorem Fresh.kept {start : Catalog σ} (fresh : Fresh environment start) : Kept environment start := by
  obtain ⟨blobs, rfl | ⟨disk, unwritten, opened⟩⟩ := fresh
  · exact ⟨fit_empty, rfl⟩
  · rw [withPersistentFilesystem, unwritten] at opened
    cases opened
    refine ⟨fit_empty, ?_⟩
    unfold metadata Catalog.file
    rw [Option.bind_some, unwritten]

variable {α : Type} {value : α}
  {body : CatalogState → EStateM SourceError σ (α × Option CatalogState)} {blobs : σ}

theorem Kept.reloaded {state : CatalogState} (kept : Kept environment catalog)
    (reload : reloadPersistentState environment catalog = .ok state) : state = catalog.state := by
  have known := metadata_reloaded reload
  rw [kept.2] at known
  exact (Except.ok.inj known).symm

theorem Kept.transact_ok (kept : Kept environment catalog)
    (done : transact environment body catalog = .ok value final)
    (fit : ∀ next blobs, body catalog.state catalog.blobs = .ok (value, some next) blobs →
      Fit environment.formats True next) :
    Kept environment final ∧ ∃ change blobs,
      body catalog.state catalog.blobs = .ok (value, change) blobs ∧
      final.state = change.getD catalog.state ∧ (change = none → Unchanged catalog final) := by
  have outcome := transact_cases environment body catalog
  rw [done] at outcome
  cases outcome with
  | answered _ state blobs lock reload ran =>
    obtain rfl := kept.reloaded reload
    have unchanged : Unchanged catalog ⟨blobs, catalog.state, catalog.disk⟩ := ⟨rfl, rfl⟩
    exact ⟨kept.unchanged unchanged, none, blobs, ran, rfl, fun _ => unchanged⟩
  | changed _ state next blobs lock reload ran written =>
    obtain rfl := kept.reloaded reload
    have fits := fit next blobs ran
    refine ⟨⟨fits, ?_⟩, some next, blobs, ran, rfl, nofun⟩
    unfold metadata Catalog.file
    cases catalog.disk with
    | none => rfl
    | some disk => exact (readable_iff fits.1).mpr (fits.2 trivial)

/-- Nothing keeps a call from the lock and the snapshot. -/
def SourceCall.Unhindered (call : SourceCall σ) : Prop :=
  call.lockFault = none ∧ call.readFault = none

theorem Kept.meet (kept : Kept environment catalog) : Kept environment (call.meet catalog) :=
  kept.unchanged ⟨meet_state call catalog, meet_file call catalog⟩

theorem SourceCall.Unhindered.opens (free : call.Unhindered) (kept : Kept environment catalog) :
    acquirePersistentLock (call.meet catalog).disk = .ok () ∧
      reloadPersistentState environment (call.meet catalog) = .ok catalog.state := by
  have faults (fault : Option SourceError) (none' : fault = none) (pick : Disk → Option SourceError)
      (picked : ∀ file, pick ⟨file, call.lockFault, call.readFault, call.writeOutcome⟩ = fault) :
      (call.meet catalog).disk.bind pick = none := by
    unfold SourceCall.meet
    cases catalog.disk with
    | none => rfl
    | some disk => exact (picked disk.file).trans none'
  constructor
  · rw [acquirePersistentLock, faults _ free.1 (·.lockFault) fun _ => rfl]
  · exact reload_metadata (faults _ free.2 (·.readFault) fun _ => rfl) kept.meet.2

end Keeping

section Serving

variable {environment} {catalog next : Catalog σ} {call : SourceCall σ} {answer : SourceReceipt}
  {error : SourceError}

def SourceRequest.digest (formats : JsonFormats) : SourceRequest → String
  | .capture request => captureRequestDigest request
  | .relate input => artifactRelationshipDigest formats input

/-- A capture is looked up under its operation first; a relationship is checked on its own before. -/
def SourceRequest.WellFormed : SourceRequest → Prop
  | .capture _ => True
  | .relate input => validateArtifactRelationship input = .ok ()

def SourceCall.Synced (call : SourceCall σ) : Prop :=
  ∀ error : SourceError, call.writeOutcome ≠ .unsynced error

def recordBody (environment : Environment σ) (input : ArtifactRelationshipInput)
    (state : CatalogState) :
    EStateM SourceError σ (ArtifactRelationshipReceipt × Option CatalogState) := do
  MonadExcept.ofExcept (recordRelationship environment state (← get) input)

variable {state : CatalogState}

theorem recordBody_ok {input : ArtifactRelationshipInput} {blobs blobs' : σ}
    {result : ArtifactRelationshipReceipt × Option CatalogState} :
    recordBody environment input state blobs = .ok result blobs' ↔
      recordRelationship environment state blobs input = .ok result ∧ blobs = blobs' := by
  simp only [recordBody, bind_eq_ok, get_eq_ok, ofExcept_eq_ok]
  constructor
  · rintro ⟨_, _, ⟨rfl, rfl⟩, recorded, same⟩
    exact ⟨recorded, same⟩
  · rintro ⟨recorded, same⟩
    exact ⟨blobs, blobs, ⟨rfl, rfl⟩, recorded, same⟩

theorem serve_capture_ok {request : SourceCaptureRequest} :
    serveRequest environment (.capture request) catalog = .ok answer next ↔
      ∃ receipt, answer = .captured receipt ∧ transact environment
        (fun state => captureOperation environment state request) catalog = .ok receipt next := by
  simp only [serveRequest, bind_eq_ok, pure_eq_ok, captureWithOperation]
  constructor
  · rintro ⟨receipt, _, done, rfl, rfl⟩
    exact ⟨receipt, rfl, done⟩
  · rintro ⟨receipt, rfl, done⟩
    exact ⟨receipt, next, done, rfl, rfl⟩

theorem serve_relate_ok {input : ArtifactRelationshipInput} :
    serveRequest environment (.relate input) catalog = .ok answer next ↔
      validateArtifactRelationship input = .ok () ∧ ∃ receipt, answer = .related receipt ∧
        transact environment (recordBody environment input) catalog = .ok receipt next := by
  simp only [serveRequest, bind_eq_ok, pure_eq_ok, recordArtifactRelationship, ofExcept_eq_ok]
  constructor
  · rintro ⟨receipt, _, ⟨_, _, ⟨valid, rfl⟩, done⟩, rfl, rfl⟩
    exact ⟨valid, receipt, rfl, done⟩
  · rintro ⟨valid, receipt, rfl, done⟩
    exact ⟨receipt, next, ⟨(), catalog, ⟨valid, rfl⟩, done⟩, rfl, rfl⟩

theorem attempt_eq_ok : attempt environment catalog call = (.ok answer, next) ↔
    serveRequest environment call.request (call.meet catalog) = .ok answer next := by
  rw [attempt]
  cases serveRequest environment call.request (call.meet catalog) with
  | ok receipt final => simp
  | error error final => simp

theorem attempt_eq_error : attempt environment catalog call = (.error error, next) ↔
    serveRequest environment call.request (call.meet catalog) = .error error next := by
  rw [attempt]
  cases serveRequest environment call.request (call.meet catalog) with
  | ok receipt final => simp
  | error error' final => simp

theorem SourceCall.Synced.meet (synced : call.Synced) : Source.Synced (call.meet catalog) := by
  intro disk present
  unfold SourceCall.meet at present
  obtain ⟨_, _, rfl⟩ := Option.mem_map.mp present
  exact synced

theorem attempt_failed (kept : Kept environment catalog) (synced : call.Synced)
    (failed : attempt environment catalog call = (.error error, next)) : Unchanged catalog next := by
  have served := attempt_eq_error.mp failed
  have through : Unchanged (call.meet catalog) next := by
    cases made : call.request with
    | capture request =>
      rw [made, serveRequest, bind_eq_error] at served
      rcases served with failed | ⟨_, _, _, impossible⟩
      · exact kept.meet.untouched (transact_untouched synced.meet failed)
      · cases impossible
    | relate input =>
      rw [made, serveRequest, bind_eq_error] at served
      rcases served with failed | ⟨_, _, _, impossible⟩
      · rw [recordArtifactRelationship, bind_eq_error, ofExcept_eq_error] at failed
        rcases failed with ⟨_, rfl⟩ | ⟨_, _, valid, failed⟩
        · exact ⟨rfl, rfl⟩
        · obtain ⟨_, rfl⟩ := ofExcept_eq_ok.mp valid
          exact kept.meet.untouched (transact_untouched synced.meet failed)
      · cases impossible
  exact ⟨through.1, through.2.trans (meet_file call catalog)⟩

theorem attempt_answered (kept : Kept environment catalog)
    (answered : attempt environment catalog call = (.ok answer, next)) :
    Kept environment next ∧ Grown catalog.state next.state ∧
      Noted environment next.state call.request answer := by
  have served := attempt_eq_ok.mp answered
  cases made : call.request with
  | capture request =>
    rw [made, serve_capture_ok] at served
    obtain ⟨receipt, rfl, done⟩ := served
    obtain ⟨keptNext, change, blobs, ran, state, _⟩ := kept.meet.transact_ok done
      fun _ _ ran => kept.1.reworked (captureOperation_reworked ran)
    rw [state]
    exact ⟨keptNext, captureOperation_grown ran, captureOperation_noted kept.1.1.versions ran⟩
  | relate input =>
    rw [made, serve_relate_ok] at served
    obtain ⟨valid, receipt, rfl, done⟩ := served
    obtain ⟨keptNext, change, blobs, ran, state, _⟩ := kept.meet.transact_ok done (by
      intro changed blobs ran
      obtain ⟨sound, few⟩ := recordRelationship_ok kept.1.1 valid (recordBody_ok.mp ran).1
      exact ⟨sound, fun _ => few⟩)
    rw [state]
    have recorded := (recordBody_ok.mp ran).1
    exact ⟨keptNext, recordRelationship_grown recorded, recordRelationship_noted valid recorded⟩

variable {receipt : SourceReceipt}

theorem attempt_reused {request : SourceRequest}
    (kept : Kept environment catalog) (noted : Noted environment catalog.state request receipt)
    (reuses : call.request.operation = request.operation)
    (answered : attempt environment catalog call = (.ok answer, next)) :
    Unchanged catalog next ∧
      call.request.digest environment.formats = request.digest environment.formats ∧
      (call.request = request → Repeats receipt answer) := by
  have served := attempt_eq_ok.mp answered
  have back {middle : Catalog σ} (unchanged : Unchanged (call.meet catalog) middle) :
      Unchanged catalog middle :=
    ⟨unchanged.1, unchanged.2.trans (meet_file call catalog)⟩
  cases request with
  | capture request =>
    cases receipt with
    | related receipt => exact noted.elim
    | captured receipt =>
      cases made : call.request with
      | relate input =>
        rw [made] at reuses
        cases reuses
      | capture request' =>
        rw [made] at reuses
        have operation : request'.operationId = request.operationId :=
          SourceOperation.capture.inj reuses
        rw [made, serve_capture_ok] at served
        obtain ⟨again, rfl, done⟩ := served
        obtain ⟨_, change, blobs, ran, _, unchanged⟩ := kept.meet.transact_ok done
          fun _ _ ran => kept.1.reworked (captureOperation_reworked ran)
        have recorded := noted.2.2.2.1
        rw [← operation] at recorded
        obtain ⟨_, rfl, replayed⟩ := (captureOperation_known recorded).mp ran
        refine ⟨back (unchanged rfl), (replayCapture_ok replayed).1.symm, ?_⟩
        intro same
        cases same
        exact (captureOperation_repeats noted ran).2
  | relate input =>
    cases receipt with
    | captured receipt => exact noted.elim
    | related receipt =>
      cases made : call.request with
      | capture request' =>
        rw [made] at reuses
        cases reuses
      | relate input' =>
        rw [made] at reuses
        have operation : input'.operationId = input.operationId :=
          SourceOperation.relate.inj reuses
        rw [made, serve_relate_ok] at served
        obtain ⟨valid, again, rfl, done⟩ := served
        obtain ⟨_, change, blobs, ran, _, unchanged⟩ := kept.meet.transact_ok done (by
          intro changed blobs ran
          obtain ⟨sound, few⟩ := recordRelationship_ok kept.1.1 valid (recordBody_ok.mp ran).1
          exact ⟨sound, fun _ => few⟩)
        have recorded := noted.2.1
        rw [← operation] at recorded
        obtain ⟨rfl, replayed⟩ :=
          (recordRelationship_known recorded).mp (recordBody_ok.mp ran).1
        obtain ⟨existing, _⟩ := replayRelationship_eq_ok.mp replayed
        refine ⟨back (unchanged rfl), (congrArg (·.requestDigest) existing).symm, ?_⟩
        intro same
        cases same
        exact (recordRelationship_repeats noted (recordBody_ok.mp ran).1).2

/-- The store takes the bytes of a repeated capture and gives them back, or still has what a
repeated relationship cites. -/
def Served (environment : Environment σ) (state : CatalogState) (blobs : σ) :
    SourceRequest → SourceReceipt → Prop
  | .capture request, .captured receipt => ∃ blobs' bytes,
      environment.store.put receipt.sourceVersion.contentDigest request.bytes blobs = .ok () blobs' ∧
      environment.store.readVerified blobs' receipt.sourceVersion.contentDigest
        receipt.sourceVersion.byteCount = .ok bytes
  | .relate input, _ => ∃ version bytes,
      state.versions[input.source.versionKey]? = some version ∧
      environment.store.readVerified blobs version.contentDigest version.byteCount = .ok bytes ∧
      bytes.length = version.byteCount ∧ contentDigest bytes = version.contentDigest
  | .capture _, .related _ => False

theorem transact_answers {α : Type} {value : α} {blobs : σ}
    {body : CatalogState → EStateM SourceError σ (α × Option CatalogState)}
    (lock : acquirePersistentLock catalog.disk = .ok ())
    (reload : reloadPersistentState environment catalog = .ok state)
    (ran : body state catalog.blobs = .ok (value, none) blobs) :
    transact environment body catalog = .ok value { catalog with blobs, state } := by
  simp only [transact, lock, reload, ran]

theorem transact_fails {α : Type} {blobs : σ}
    {body : CatalogState → EStateM SourceError σ (α × Option CatalogState)}
    (lock : acquirePersistentLock catalog.disk = .ok ())
    (reload : reloadPersistentState environment catalog = .ok state)
    (ran : body state catalog.blobs = .error error blobs) :
    transact environment body catalog = .error error { catalog with blobs, state } := by
  simp only [transact, lock, reload, ran]

theorem attempt_answers (kept : Kept environment catalog)
    (noted : Noted environment catalog.state call.request receipt) (unhindered : call.Unhindered)
    (served : Served environment catalog.state (call.blobs catalog.blobs) call.request receipt) :
    ∃ again, (attempt environment catalog call).1 = .ok again := by
  obtain ⟨lock, reload⟩ := unhindered.opens kept
  cases made : call.request with
  | capture request =>
    rw [made] at noted served
    cases receipt with
    | related receipt => exact noted.elim
    | captured receipt =>
      obtain ⟨blobs, bytes, put, read⟩ := served
      obtain ⟨again, ran⟩ := captureOperation_answers noted put read
      have done := serve_capture_ok.mpr ⟨again, rfl, transact_answers lock reload ran⟩
      rw [← made] at done
      exact ⟨.captured again, congrArg Prod.fst (attempt_eq_ok.mpr done)⟩
  | relate input =>
    rw [made] at noted served
    cases receipt with
    | captured receipt => exact noted.elim
    | related receipt =>
      obtain ⟨version, bytes, cited, read, length, address⟩ := served
      obtain ⟨again, ran⟩ := recordRelationship_answers noted cited read length address
      have done := serve_relate_ok.mpr ⟨noted.1, again, rfl,
        transact_answers lock reload (recordBody_ok.mpr ⟨ran, rfl⟩)⟩
      rw [← made] at done
      exact ⟨.related again, congrArg Prod.fst (attempt_eq_ok.mpr done)⟩

theorem attempt_unsynced {request : SourceCaptureRequest} {receipt : SourceCaptureReceipt}
    {after : CatalogState} {blobs : σ} {disk : Disk} (kept : Kept environment catalog)
    (unhindered : call.Unhindered) (made : call.request = .capture request)
    (present : catalog.disk = some disk) (outcome : call.writeOutcome = .unsynced error)
    (ran : captureOperation environment catalog.state request (call.blobs catalog.blobs) =
      .ok (receipt, some after) blobs) :
    attempt environment catalog call = (.error error, ⟨blobs, catalog.state,
      some ⟨some (snapshot environment after), call.lockFault, call.readFault, call.writeOutcome⟩⟩) := by
  have met : (call.meet catalog).disk =
      some ⟨disk.file, call.lockFault, call.readFault, call.writeOutcome⟩ := by
    rw [SourceCall.meet, present]
    rfl
  have failed : transact environment (fun state => captureOperation environment state request)
      (call.meet catalog) = .error error _ :=
    transact_unsynced met unhindered.1 (unhindered.opens kept).2 ran outcome
  refine attempt_eq_error.mpr ?_
  rw [made]
  exact bind_of_error failed

theorem attempt_conflict {request : SourceRequest}
    (kept : Kept environment catalog) (noted : Noted environment catalog.state request receipt)
    (reuses : call.request.operation = request.operation) (unhindered : call.Unhindered)
    (wellFormed : call.request.WellFormed)
    (other : call.request.digest environment.formats ≠ request.digest environment.formats) :
    (attempt environment catalog call).1 = .error .operationConflict := by
  obtain ⟨lock, reload⟩ := unhindered.opens kept
  have failed {final : Catalog σ} (fails : serveRequest environment call.request
      (call.meet catalog) = .error .operationConflict final) :
      (attempt environment catalog call).1 = .error .operationConflict :=
    congrArg Prod.fst (attempt_eq_error.mpr fails)
  cases request with
  | capture request =>
    cases receipt with
    | related receipt => exact noted.elim
    | captured receipt =>
      cases made : call.request with
      | relate input =>
        rw [made] at reuses
        cases reuses
      | capture request' =>
        rw [made] at reuses other failed
        have conflict : captureOperation environment catalog.state request'
            (call.meet catalog).blobs = .error .operationConflict (call.meet catalog).blobs :=
          captureOperation_conflict noted (SourceOperation.capture.inj reuses) other
        exact failed (bind_of_error (transact_fails lock reload conflict))
  | relate input =>
    cases receipt with
    | captured receipt => exact noted.elim
    | related receipt =>
      cases made : call.request with
      | capture request' =>
        rw [made] at reuses
        cases reuses
      | relate input' =>
        rw [made] at reuses other failed wellFormed
        have conflict : recordRelationship environment catalog.state (call.meet catalog).blobs
            input' = .error .operationConflict :=
          recordRelationship_conflict noted (SourceOperation.relate.inj reuses) other
        have body : recordBody environment input' catalog.state (call.meet catalog).blobs =
            .error .operationConflict (call.meet catalog).blobs := by
          rw [recordBody, bind_of_ok (get_eq_ok.mpr ⟨rfl, rfl⟩), conflict]
          rfl
        have served : recordArtifactRelationship environment input' (call.meet catalog) = _ :=
          (bind_of_ok (ofExcept_eq_ok.mpr ⟨wellFormed, rfl⟩)).trans
            (transact_fails lock reload body)
        exact failed (bind_of_error served)

end Serving

section Runs

variable {environment} {start : Catalog σ} {calls : List (SourceCall σ)} {call : SourceCall σ}

theorem digest_inj {formats : JsonFormats} {call' : SourceCall σ}
    (free : CollisionFree formats calls) (member : call ∈ calls) (member' : call' ∈ calls)
    (reuses : call.request.operation = call'.request.operation)
    (same : call.request.digest formats = call'.request.digest formats) : call.request = call'.request := by
  cases made : call.request with
  | capture request =>
    cases made' : call'.request with
    | capture request' =>
      rw [made, made'] at reuses same
      exact congrArg SourceRequest.capture
        (digest_capture_inj formats free member member' made made'
          (SourceOperation.capture.inj reuses) same)
    | relate input =>
      rw [made, made'] at reuses
      cases reuses
  | relate input =>
    cases made' : call'.request with
    | capture request =>
      rw [made, made'] at reuses
      cases reuses
    | relate input' =>
      rw [made, made'] at same
      exact congrArg SourceRequest.relate (digest_relate_inj formats free member member' made made' same)

theorem run_noted (fresh : Fresh environment start) (synced : ∀ call ∈ calls, call.Synced) :
    Kept environment (final (attempt environment) start calls) ∧
      ∀ e ∈ history (attempt environment) start calls, ∀ receipt, e.answer = .ok receipt →
        Noted environment (final (attempt environment) start calls).state e.call.request receipt := by
  refine @history_ledger _ _ _ (attempt environment)
    (fun past catalog => Kept environment catalog ∧ ∀ e ∈ past, ∀ receipt, e.answer = .ok receipt →
      Noted environment catalog.state e.call.request receipt) start
    ⟨fresh.kept, fun e none => absurd none List.not_mem_nil⟩ calls ?_
  rintro past catalog call member ⟨kept, noted⟩
  cases made : attempt environment catalog call with
  | mk answer next =>
    have entered : entry (attempt environment) catalog call = ⟨catalog, call, answer⟩ := by
      rw [entry, made]
    rw [entered]
    cases answer with
    | error error =>
      have unchanged := attempt_failed kept (synced call member) made
      refine ⟨kept.unchanged unchanged, ?_⟩
      intro e among receipt answered
      rcases List.mem_append.mp among with earlier | last
      · rw [unchanged.1]
        exact noted e earlier receipt answered
      · rw [List.mem_singleton.mp last] at answered
        cases answered
    | ok answer =>
      obtain ⟨keptNext, grown, notedNow⟩ := attempt_answered kept made
      refine ⟨keptNext, ?_⟩
      intro e among receipt answered
      rcases List.mem_append.mp among with earlier | last
      · exact (noted e earlier receipt answered).grown grown
      · rw [List.mem_singleton.mp last] at answered ⊢
        cases answered
        exact notedNow

/-- In a run from an empty catalogue whose writes are all synced or refused, every call adds to what
there is or changes nothing; a call under an operation id that was answered before changes nothing,
repeats the answer for the same request, and is a conflict for another one. -/
theorem source_calls_idempotent (fresh : Fresh environment start) (synced : ∀ c ∈ calls ++ [call], c.Synced)
    (free : CollisionFree environment.formats (calls ++ [call])) {answer : Except SourceError SourceReceipt}
    {next : Catalog σ}
    (made : attempt environment (final (attempt environment) start calls) call = (answer, next)) :
    Grown (final (attempt environment) start calls).state next.state ∧
      metadata environment next = .ok next.state ∧
      (∀ error, answer = .error error → Unchanged (final (attempt environment) start calls) next) ∧
      ∀ e ∈ history (attempt environment) start calls, ∀ receipt, e.answer = .ok receipt →
        call.request.operation = e.call.request.operation →
        Unchanged (final (attempt environment) start calls) next ∧
        (call.request = e.call.request →
          (∀ again, answer = .ok again → Repeats receipt again) ∧
          (call.Unhindered → Served environment (final (attempt environment) start calls).state
            (call.blobs (final (attempt environment) start calls).blobs) call.request receipt →
              ∃ again, answer = .ok again)) ∧
        (call.request ≠ e.call.request → ∃ error, answer = .error error ∧
          (call.Unhindered → call.request.WellFormed → error = .operationConflict)) := by
  have last : call ∈ calls ++ [call] := List.mem_append_right _ (List.mem_singleton_self call)
  obtain ⟨kept, noted⟩ := run_noted fresh fun c member => synced c (List.mem_append_left _ member)
  generalize final (attempt environment) start calls = met at made kept noted ⊢
  have failed (error : SourceError) (fails : answer = .error error) : Unchanged met next := by
    subst fails
    exact attempt_failed kept (synced call last) made
  have grown : Grown met.state next.state ∧ Kept environment next := by
    cases answer with
    | error error =>
      have unchanged := failed error rfl
      exact ⟨unchanged.1 ▸ Grown.refl _, kept.unchanged unchanged⟩
    | ok answer =>
      obtain ⟨keptNext, grown, _⟩ := attempt_answered kept made
      exact ⟨grown, keptNext⟩
  refine ⟨grown.1, grown.2.2, failed, ?_⟩
  intro e member receipt answered reuses
  have known := noted e member receipt answered
  obtain ⟨earlier, call', later, listed, same⟩ := mem_history.mp member
  have among : e.call ∈ calls ++ [call] := by
    rw [listed, same]
    exact List.mem_append_left _ (List.mem_append_right _ List.mem_cons_self)
  refine ⟨?_, ?_, ?_⟩
  · cases answer with
    | error error => exact failed error rfl
    | ok answer => exact (attempt_reused kept known reuses made).1
  · intro repeated
    refine ⟨?_, ?_⟩
    · rintro again rfl
      exact (attempt_reused kept known reuses made).2.2 repeated
    · intro unhindered served
      rw [← repeated] at known
      obtain ⟨again, answers⟩ := attempt_answers kept known unhindered served
      exact ⟨again, (congrArg Prod.fst made).symm.trans answers⟩
  · intro other
    have differs : call.request.digest environment.formats ≠ e.call.request.digest environment.formats :=
      fun digests => other (digest_inj free last among reuses digests)
    cases answer with
    | ok answer => exact absurd (attempt_reused kept known reuses made).2.1 differs
    | error error =>
      refine ⟨error, rfl, fun unhindered wellFormed => ?_⟩
      have conflict := attempt_conflict kept known reuses unhindered wellFormed differs
      rw [made] at conflict
      exact Except.error.inj conflict

end Runs

section Notes

variable {formats : JsonFormats} {alphabet : Alphabet}

/-- The empty notes of a project, captured under an operation. -/
def notesRequest : SourceCaptureRequest := ⟨"first", "atlas", "notes.txt", "text/plain", []⟩

def notesState : CatalogState :=
  { insertVersion emptyState (notes "atlas") with
    captureOperations := (∅ : Std.ExtTreeMap String CaptureOperationRecord).insert "first"
      ⟨captureRequestDigest notesRequest, "atlas", (notes "atlas").sourceVersionId⟩ }

theorem capture_notesRequest :
    captureOperation (inMemory formats alphabet) emptyState notesRequest ∅ =
      .ok (⟨"first", notes "atlas", false, false⟩, some notesState) notesBlobs := by
  have fresh : emptyState.captureOperations[notesRequest.operationId]? = none :=
    Std.ExtTreeMap.getElem?_empty
  have captured : captureVersion (inMemory formats alphabet) emptyState "atlas" "notes.txt" []
      "text/plain" ∅ = .ok (notes "atlas", some (insertVersion emptyState (notes "atlas")))
        notesBlobs := by
    refine captureVersion_fresh (by decide) (by decide) (by decide) Std.ExtTreeMap.getElem?_empty ?_
    refine memoryBlobStore_put ?_
    intro existing present
    rw [Std.ExtTreeMap.getElem?_empty] at present
    cases present
  simp only [captureOperation, bind_eq_ok, ofExcept_eq_ok, fresh, pure_eq_ok]
  exact ⟨(), ∅, ⟨by decide, rfl⟩, _, notesBlobs, captured, rfl, rfl⟩

/-- A disk without a snapshot, whose next write is renamed into place and not synced. -/
def unsyncedNotes : SourceCall (Std.ExtTreeMap String (List UInt8)) :=
  ⟨.capture notesRequest, id, none, none, .unsynced (.storage "directory sync failed")⟩

def newlyOpened : Catalog (Std.ExtTreeMap String (List UInt8)) :=
  ⟨∅, emptyState, some ⟨none, none, none, .written⟩⟩

/-- What the capture leaves: nothing in memory, and its version on the disk. -/
def afterUnsynced : Catalog (Std.ExtTreeMap String (List UInt8)) :=
  ⟨notesBlobs, emptyState, some ⟨some (snapshot (inMemory plainFormats plainAlphabet) notesState), none,
    none, .unsynced (.storage "directory sync failed")⟩⟩

theorem unsynced_capture_remains : Fresh (inMemory plainFormats plainAlphabet) newlyOpened ∧
    attempt (inMemory plainFormats plainAlphabet) newlyOpened unsyncedNotes =
      (.error (.storage "directory sync failed"), afterUnsynced) ∧
    metadata (inMemory plainFormats plainAlphabet) newlyOpened = .ok emptyState ∧
    metadata (inMemory plainFormats plainAlphabet) afterUnsynced = .ok notesState ∧
    notesState.versions ≠ emptyState.versions := by
  refine ⟨⟨∅, .inr ⟨⟨none, none, none, .written⟩, rfl, rfl⟩⟩, ?_, rfl, ?_, ?_⟩
  · exact attempt_unsynced (Fresh.kept ⟨∅, .inr ⟨⟨none, none, none, .written⟩, rfl, rfl⟩⟩) ⟨rfl, rfl⟩ rfl
      rfl rfl capture_notesRequest
  · have fit : Fit plainFormats True notesState := fit_empty.reworked
      (captureOperation_reworked (@capture_notesRequest plainFormats plainAlphabet))
    exact (readable_iff fit.1).mpr (fit.2 trivial)
  · intro same
    have stored : notesState.versions[(notes "atlas").key]? = some (notes "atlas") :=
      getElem?_insert_self _ _ _
    rw [same] at stored
    exact absurd stored (by simp [emptyState])

/-- The same capture, with nothing in its way. -/
def captureNotes : SourceCall (Std.ExtTreeMap String (List UInt8)) :=
  ⟨.capture notesRequest, id, none, none, .written⟩

theorem attempt_captureNotes : attempt (inMemory formats alphabet) (withBlobStore ∅) captureNotes =
    (.ok (.captured ⟨"first", notes "atlas", false, false⟩), ⟨notesBlobs, notesState, none⟩) :=
  attempt_eq_ok.mpr (serve_capture_ok.mpr ⟨_, rfl, transact_memory capture_notesRequest⟩)

theorem served_capture {request : SourceCaptureRequest} {state : CatalogState} {operationId : String}
    {blobs : Std.ExtTreeMap String (List UInt8)} {duplicate reused : Bool}
    (stored : blobs[contentDigest request.bytes]? = some request.bytes) :
    Served (inMemory formats alphabet) state blobs (.capture request)
      (.captured ⟨operationId, newVersion request.projectId request.origin request.bytes
        request.mediaType, duplicate, reused⟩) := by
  refine ⟨_, request.bytes, memoryBlobStore_put ?_, memoryBlobStore_readVerified ?_⟩
  · intro existing present
    rw [stored] at present
    exact (Option.some.inj present).symm
  · exact getElem?_insert_self _ _ _

theorem source_calls_idempotent_notes : Unchanged ⟨notesBlobs, notesState, none⟩
      (attempt (inMemory plainFormats plainAlphabet) ⟨notesBlobs, notesState, none⟩ captureNotes).2 ∧
    ∃ again, (attempt (inMemory plainFormats plainAlphabet) ⟨notesBlobs, notesState, none⟩
        captureNotes).1 = .ok again ∧
      Repeats (.captured ⟨"first", notes "atlas", false, false⟩) again := by
  have first := @attempt_captureNotes plainFormats plainAlphabet
  have reached : final (attempt (inMemory plainFormats plainAlphabet)) (withBlobStore ∅) [captureNotes] =
      ⟨notesBlobs, notesState, none⟩ := congrArg Prod.snd first
  have synced : ∀ c ∈ [captureNotes] ++ [captureNotes], c.Synced := by
    intro c member
    have same : c = captureNotes := by simpa using member
    rw [same]
    exact nofun
  have free : CollisionFree plainFormats ([captureNotes] ++ [captureNotes]) := by
    have differs : contentDigest (captureText notesRequest) ≠ contentDigest [] := by decide +kernel
    rintro a ⟨c, member, part⟩ b ⟨c', member', part'⟩ same
    have notes : c = captureNotes := by simpa using member
    have notes' : c' = captureNotes := by simpa using member'
    rw [notes] at part
    rw [notes'] at part'
    have texts : a = captureText notesRequest ∨ a = [] := by
      simpa [captureNotes, SourceRequest.digested, notesRequest] using part
    have texts' : b = captureText notesRequest ∨ b = [] := by
      simpa [captureNotes, SourceRequest.digested, notesRequest] using part'
    rcases texts with rfl | rfl
    · rcases texts' with rfl | rfl
      · rfl
      · exact absurd same differs
    · rcases texts' with rfl | rfl
      · exact absurd same.symm differs
      · rfl
  have answered : (entry (attempt (inMemory plainFormats plainAlphabet)) (withBlobStore ∅)
      captureNotes).answer = .ok (.captured ⟨"first", notes "atlas", false, false⟩) := by
    rw [entry, first]
  have fresh : Fresh (inMemory plainFormats plainAlphabet) (withBlobStore ∅) := ⟨∅, .inl rfl⟩
  obtain ⟨_, _, _, reused⟩ := source_calls_idempotent fresh synced free Prod.mk.eta.symm
  rw [reached] at reused
  obtain ⟨unchanged, repeated, _⟩ := reused _ List.mem_cons_self _ answered rfl
  obtain ⟨repeats, answers⟩ := repeated rfl
  obtain ⟨again, second⟩ := answers ⟨rfl, rfl⟩ (served_capture notesBlobs_contentDigest)
  exact ⟨unchanged, again, second, repeats again second⟩

end Notes

end Boreal.Source
