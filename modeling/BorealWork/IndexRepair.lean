/- Repairing the derived index: what a repair leaves is what the parsers make of the blobs, and a second
repair finds nothing to do. -/
import BorealWork.SourceIdempotency

namespace Boreal.Source
open Sorting Tables Transactions

variable {σ : Type} {environment : Environment σ} {state next : CatalogState} {blobs : σ}
  {projectId : Option String} {vault : Set (List UInt8)}

section Parsing

variable {alphabet : Alphabet} {limits limits' : ParserLimits}

theorem parseLines_limits {segments : List (List Char)} {lineNumber : ℕ} {chunks : List IndexedChunk}
    {postings : Std.ExtTreeMap String (List ℕ)}
    {parsed parsed' : List IndexedChunk × Std.ExtTreeMap String (List ℕ)}
    (first : parseLines alphabet limits segments lineNumber chunks postings = .ok parsed)
    (second : parseLines alphabet limits' segments lineNumber chunks postings = .ok parsed') :
    parsed = parsed' := by
  induction segments generalizing lineNumber chunks postings with
  | nil => exact Except.ok.inj (first.symm.trans second)
  | cons segment rest ih =>
    rw [parseLines] at first second
    dsimp only at first second
    split_ifs at first second
    · exact ih first second
    · exact ih first second

theorem parseBytes_limits {bytes : List UInt8} {parsed parsed' : ParsedIndex}
    (first : parseBytes alphabet limits bytes = .ok parsed)
    (second : parseBytes alphabet limits' bytes = .ok parsed') : parsed = parsed' := by
  rw [parseBytes] at first second
  split_ifs at first second
  cases decoded : fromUtf8 bytes with
  | none =>
    rw [decoded] at first
    cases first
  | some text =>
    rw [decoded] at first second
    simp only [Drain.bind_eq_ok] at first second
    obtain ⟨lines, read, answer⟩ := first
    obtain ⟨lines', read', answer'⟩ := second
    cases parseLines_limits read read'
    exact Except.ok.inj (answer.symm.trans answer')

end Parsing

/-- The index row that a parse of a blob publishes, if there is one. -/
def parsedRow (parser digest : String) : Except String ParsedIndex → Option IndexedSource
  | .ok parsed => some ⟨parser, digest, parsed.outputDigest, parsed.chunks, parsed.postings⟩
  | .error _ => none

def ParsedFrom (environment : Environment σ) (vault : Set (List UInt8)) (row : IndexedSource) : Prop :=
  ∃ bytes ∈ vault, contentDigest bytes = row.inputDigest ∧ ∃ limits : ParserLimits,
    parsedRow row.parserIdentity row.inputDigest (parseBytes environment.alphabet limits bytes) = some row

/-- Every index row comes from a blob. -/
structure Derived (environment : Environment σ) (vault : Set (List UInt8)) (state : CatalogState) :
    Prop where
  sound : Sound environment.formats state
  rows : ∀ (key : RowKey) (row : IndexedSource), state.indexes[key]? = some row →
    ParsedFrom environment vault row

def Serves (environment : Environment σ) (vault : Set (List UInt8)) (blobs : σ) : Prop :=
  ∀ (digest : String) (byteCount : ℕ) (bytes : List UInt8),
    environment.store.readVerified blobs digest byteCount = .ok bytes →
      bytes ∈ vault ∧ contentDigest bytes = digest

theorem ParsedFrom.same {bytes : List UInt8} {limits : ParserLimits} {row fresh : IndexedSource}
    (injective : Set.InjOn contentDigest vault) (old : ParsedFrom environment vault row)
    (stored : bytes ∈ vault) (address : contentDigest bytes = row.inputDigest)
    (parsed : parsedRow row.parserIdentity row.inputDigest
      (parseBytes environment.alphabet limits bytes) = some fresh) : row = fresh := by
  obtain ⟨bytes', stored', address', limits', parsed'⟩ := old
  cases injective stored stored' (address.trans address'.symm)
  cases first : parseBytes environment.alphabet limits bytes with
  | error error =>
    rw [first] at parsed
    cases parsed
  | ok parse =>
    cases second : parseBytes environment.alphabet limits' bytes with
    | error error =>
      rw [second] at parsed'
      cases parsed'
    | ok parse' =>
      cases parseBytes_limits first second
      rw [second] at parsed'
      rw [first] at parsed
      exact Option.some.inj (parsed'.symm.trans parsed)

section Indexing

variable {version stored : SourceVersion} {parser : String} {parsed : Except String ParsedIndex}

def reindexed (state : CatalogState) (stored : SourceVersion) (parser : String)
    (parsed : Except String ParsedIndex) : CatalogState :=
  let named := { state with
    versions := state.versions.insert stored.key { stored with parserIdentity := some parser } }
  let indexed := match parsed with
    | .ok parsed => publishIndex stored.key parser stored.contentDigest parsed named
    | .error _ => withdrawIndex stored.key named
  { indexed with
    parseRecords := indexed.parseRecords.insert stored.key
      (parseRecord parser stored.contentDigest parsed) }

def parseReport (stored : SourceVersion) (parser : String) (record : ParseRecord)
    (indexRevision : UInt64) : ParseReport :=
  ⟨stored.projectId, stored.sourceVersionId, parser, record.state, record.outputDigest,
    record.chunkCount, record.warnings, record.error, indexRevision⟩

theorem parseAndIndexState_eq_ok {limits : ParserLimits} {report : ParseReport} :
    parseAndIndexState environment state blobs version parser limits = .ok (report, next) ↔
      isBlank parser = false ∧
      ¬(limits.maxSourceBytes = 0 ∨ limits.maxChunks = 0 ∨ limits.maxChunkBytes = 0) ∧
      ∃ stored, authorizedVersion state version = .ok stored ∧
      ∃ bytes, environment.store.readVerified blobs stored.contentDigest stored.byteCount = .ok bytes ∧
        next = reindexed state stored parser (parseBytes environment.alphabet limits bytes) ∧
        report = parseReport stored parser (parseRecord parser stored.contentDigest
          (parseBytes environment.alphabet limits bytes)) next.indexRevision := by
  simp only [parseAndIndexState, Drain.bind_eq_ok, Drain.refuse_eq_ok, Bool.not_eq_true]
  constructor
  · rintro ⟨_, visible, _, bounded, stored, authorized, bytes, read, answer⟩
    cases answer
    exact ⟨visible, bounded, stored, authorized, bytes, read, rfl, rfl⟩
  · rintro ⟨visible, bounded, stored, authorized, bytes, read, rfl, rfl⟩
    exact ⟨(), visible, (), bounded, stored, authorized, bytes, read, rfl⟩

theorem reindexed_versions :
    (reindexed state stored parser parsed).versions =
      state.versions.insert stored.key { stored with parserIdentity := some parser } := by
  unfold reindexed publishIndex withdrawIndex
  cases parsed with
  | ok parsed =>
    dsimp only
    split_ifs
    · rfl
    · rfl
  | error error =>
    dsimp only
    split_ifs
    · rfl
    · rfl

theorem reindexed_parseRecords :
    (reindexed state stored parser parsed).parseRecords =
      state.parseRecords.insert stored.key (parseRecord parser stored.contentDigest parsed) := by
  unfold reindexed publishIndex withdrawIndex
  cases parsed with
  | ok parsed =>
    dsimp only
    split_ifs
    · rfl
    · rfl
  | error error =>
    dsimp only
    split_ifs
    · rfl
    · rfl

theorem withdrawIndex_indexes (key other : RowKey) :
    (withdrawIndex key state).indexes[other]? = if key = other then none else state.indexes[other]? := by
  rw [withdrawIndex]
  by_cases indexed : state.indexes.contains key = true
  · rw [if_pos indexed]
    exact getElem?_erase _ _ _
  · rw [if_neg indexed]
    rw [Bool.not_eq_true, contains_eq_false] at indexed
    split_ifs with own
    · exact own ▸ indexed
    · rfl

theorem publishIndex_indexes {key : RowKey} {digest : String} {parsed : ParsedIndex}
    (same : ∀ row, state.indexes[key]? = some row → row.parserIdentity = parser →
      row.inputDigest = digest → parsedRow parser digest (.ok parsed) = some row) (other : RowKey) :
    (publishIndex key parser digest parsed state).indexes[other]? =
      if key = other then parsedRow parser digest (.ok parsed) else state.indexes[other]? := by
  rw [publishIndex]
  split_ifs with current own own
  · rw [Option.any_eq_true] at current
    obtain ⟨row, present, alike⟩ := current
    simp only [Bool.and_eq_true, decide_eq_true_eq] at alike
    obtain ⟨⟨ours, address⟩, _⟩ := alike
    rw [same row present ours address]
    exact own ▸ present
  · rfl
  · rw [getElem?_insert, if_pos own]
    rfl
  · exact getElem?_insert_ne _ _ own

theorem reindexed_indexes
    (same : ∀ row, state.indexes[stored.key]? = some row → row.parserIdentity = parser →
      row.inputDigest = stored.contentDigest → ∀ fresh,
        parsedRow parser stored.contentDigest parsed = some fresh → row = fresh) (key : RowKey) :
    (reindexed state stored parser parsed).indexes[key]? =
      if stored.key = key then parsedRow parser stored.contentDigest parsed else state.indexes[key]? := by
  unfold reindexed
  cases parsed with
  | ok parsed =>
    refine publishIndex_indexes ?_ key
    intro row present ours address
    exact congrArg some (same row present ours address _ rfl).symm
  | error error => exact withdrawIndex_indexes stored.key key

theorem reindexed_rows {key : RowKey} {row : IndexedSource}
    (present : (reindexed state stored parser parsed).indexes[key]? = some row) :
    state.indexes[key]? = some row ∨ parsedRow parser stored.contentDigest parsed = some row := by
  unfold reindexed at present
  cases parsed with
  | ok parsed =>
    simp only [publishIndex] at present
    split_ifs at present with current
    · exact .inl present
    · rw [getElem?_insert] at present
      split_ifs at present
      · exact .inr present
      · exact .inl present
  | error error =>
    change (withdrawIndex stored.key { state with versions := _ }).indexes[key]? = some row at present
    rw [withdrawIndex_indexes] at present
    split_ifs at present
    exact .inl present

theorem reindexed_settled (named : stored.parserIdentity = some parser)
    (known : state.versions[stored.key]? = some stored)
    (indexed : state.indexes[stored.key]? = parsedRow parser stored.contentDigest parsed)
    (recorded : state.parseRecords[stored.key]? =
      some (parseRecord parser stored.contentDigest parsed)) :
    reindexed state stored parser parsed = state := by
  have own : { stored with parserIdentity := some parser } = stored := by rw [← named]
  unfold reindexed
  rw [own, insert_of_present known]
  cases parsed with
  | ok parsed =>
    have published : publishIndex stored.key parser stored.contentDigest parsed state = state := by
      rw [publishIndex, indexed]
      exact if_pos (by simp [parsedRow])
    dsimp only
    rw [published, insert_of_present recorded]
  | error error =>
    have withdrawn : withdrawIndex stored.key state = state := by
      rw [withdrawIndex, contains_eq_false.mpr indexed]
      exact if_neg Bool.false_ne_true
    dsimp only
    rw [withdrawn, insert_of_present recorded]

end Indexing

section Deriving

variable {version : SourceVersion}

theorem derived_empty : Derived environment vault emptyState :=
  ⟨sound_empty, fun _ _ present => absurd present (by simp [emptyState])⟩

theorem Derived.kept (derived : Derived environment vault state) (sound : Sound environment.formats next)
    (indexes : ∀ (key : RowKey) (row : IndexedSource), next.indexes[key]? = some row →
      state.indexes[key]? = some row) : Derived environment vault next :=
  ⟨sound, fun key row present => derived.rows key row (indexes key row present)⟩

theorem parseAndIndexState_derived {parser : String} {limits : ParserLimits} {report : ParseReport}
    (serves : Serves environment vault blobs) (derived : Derived environment vault state)
    (parsed : parseAndIndexState environment state blobs version parser limits = .ok (report, next)) :
    Derived environment vault next := by
  refine ⟨derived.sound.reworked (parseAndIndexState_reworked parsed), ?_⟩
  obtain ⟨_, _, stored, _, bytes, read, rfl, _⟩ := parseAndIndexState_eq_ok.mp parsed
  intro key row present
  rcases reindexed_rows present with old | fresh
  · exact derived.rows key row old
  · obtain ⟨inside, address⟩ := serves _ _ _ read
    cases parse : parseBytes environment.alphabet limits bytes with
    | error error =>
      rw [parse] at fresh
      cases fresh
    | ok parse' =>
      rw [parse] at fresh
      cases fresh
      refine ⟨bytes, inside, address, limits, ?_⟩
      rw [parse]
      rfl

theorem eraseIndexes_indexes (keys : List RowKey) (key : RowKey) :
    (eraseIndexes keys state).indexes[key]? = if key ∈ keys then none else state.indexes[key]? := by
  rw [eraseIndexes]
  split_ifs with none inside inside
  · subst none
    exact absurd inside List.not_mem_nil
  · rfl
  · rw [getElem?_foldl_erase, if_pos inside]
  · rw [getElem?_foldl_erase, if_neg inside]

theorem eraseIndexes_derived (derived : Derived environment vault state) (keys : List RowKey) :
    Derived environment vault (eraseIndexes keys state) := by
  refine derived.kept (derived.sound.reworked (eraseIndexes_reworked keys)) ?_
  intro key row present
  rw [eraseIndexes_indexes] at present
  split_ifs at present
  exact present

theorem repairVersion_derived {counts counts' : RepairCounts}
    (serves : Serves environment vault blobs) (derived : Derived environment vault state)
    (turned : repairVersion environment blobs (counts, state) version = .ok (counts', next)) :
    Derived environment vault next := by
  simp only [repairVersion, Drain.bind_eq_ok] at turned
  obtain ⟨present, _, turned⟩ := turned
  split_ifs at turned
  · cases turned
    exact derived
  · simp only [Drain.bind_eq_ok] at turned
    obtain ⟨⟨report, parsed⟩, indexed, answer⟩ := turned
    have kept : Derived environment vault parsed := parseAndIndexState_derived serves derived indexed
    dsimp only at answer
    split_ifs at answer
    all_goals
      cases answer
      exact kept

theorem repairState_derived {reset : Bool} {report : RepairReport}
    (serves : Serves environment vault blobs) (derived : Derived environment vault state)
    (repaired : repairState environment projectId blobs reset state = .ok (report, next)) :
    Derived environment vault next := by
  simp only [repairState, Drain.bind_eq_ok] at repaired
  obtain ⟨versions, _, ⟨counts, middle⟩, passed, answer⟩ := repaired
  cases answer
  have start : Derived environment vault
      (if reset then eraseIndexes (indexKeys projectId state) state else state) := by
    split_ifs
    · exact eraseIndexes_derived derived _
    · exact derived
  have pass : Derived environment vault middle :=
    Drain.foldlM_invariant (P := fun progress => Derived environment vault progress.2)
      (fun progress version progress' kept turned => repairVersion_derived serves kept turned)
      start passed
  exact eraseIndexes_derived pass _

theorem importBundle_indexes {bundle : SourceCatalogBundle} {projectId : String}
    {imported : CatalogState} {packed : List SourceBundleBlob} {total : ℕ}
    (loaded : importBundle environment bundle projectId = .ok (imported, packed, total)) :
    imported.indexes = ∅ := by
  simp only [importBundle, Drain.bind_eq_ok, Drain.mapError_eq_ok, Drain.refuse_eq_ok, not_or,
    not_not] at loaded
  obtain ⟨_, _, _, _, _, _, ⟨metadata, _, _⟩, _, _, ⟨_, _, underived⟩, _, restored, _, _, _, _, answer⟩ :=
    loaded
  cases answer
  rw [restoreCatalogState, environment.formats.state.fromSlice_toVec] at restored
  change restoreRows environment.formats metadata.catalog = .ok imported at restored
  simp only [restoreRows, Drain.bind_eq_ok] at restored
  obtain ⟨_, _, _, _, _, _, _, _, indexes, loaded, _, _, _, _, same⟩ := restored
  cases same
  rw [underived] at loaded
  exact (Except.ok.inj loaded).symm

theorem preserved_derived :
    Preserved environment (Serves environment vault) (Derived environment vault) where
  sound := fun _ => Derived.sound
  capture := by
    intro _ _ _ _ _ _ _ _ _ derived captured
    refine derived.kept (derived.sound.reworked (captureVersion_reworked captured)) ?_
    obtain ⟨_, ⟨_, _, _, _, none⟩ | ⟨_, _, changed⟩⟩ := captureVersion_ok captured
    · cases none
    · cases changed
      exact fun _ _ => id
  captureOperation := by
    intro state _ request _ _ _ derived captured
    refine derived.kept (derived.sound.reworked (captureOperation_reworked captured)) ?_
    simp only [captureOperation, bind_eq_ok] at captured
    obtain ⟨_, _, _, stored⟩ := captured
    cases known : state.captureOperations[request.operationId]? with
    | some record =>
      simp only [known, bind_eq_ok, pure_eq_ok] at stored
      obtain ⟨_, _, _, answer, _⟩ := stored
      cases answer
    | none =>
      simp only [known, bind_eq_ok, pure_eq_ok] at stored
      obtain ⟨⟨version, middle⟩, _, captured, answer, _⟩ := stored
      cases answer
      obtain ⟨_, ⟨_, _, _, _, rfl⟩ | ⟨_, _, rfl⟩⟩ := captureVersion_ok captured
      · exact fun _ _ => id
      · exact fun _ _ => id
  record := by
    intro state _ input _ _ derived valid recorded
    refine derived.kept (recordRelationship_ok derived.sound valid recorded).1 ?_
    rw [recordRelationship] at recorded
    cases known : state.artifactOperations[input.operationId]? with
    | some existing =>
      simp only [known, Drain.bind_eq_ok] at recorded
      obtain ⟨_, _, answer⟩ := recorded
      cases answer
    | none =>
      simp only [known, Drain.bind_eq_ok] at recorded
      obtain ⟨_, _, _, _, _, _, answer⟩ := recorded
      cases answer
      exact fun _ _ => id
  updateParser := by
    intro _ _ _ _ _ _ derived named
    refine derived.kept (derived.sound.reworked (updateParser_reworked named)) ?_
    simp only [updateParser, Drain.bind_eq_ok] at named
    obtain ⟨_, _, _, _, _, _, answer⟩ := named
    cases answer
    exact fun _ _ => id
  parse := fun serves derived parsed => parseAndIndexState_derived serves derived parsed
  repair := fun serves derived repaired => repairState_derived serves derived repaired
  restore := by
    intro state _ imported _ _ _ _ _ _ _ derived loaded restored
    obtain ⟨theirs, belongs, _⟩ := importBundle_ok loaded
    obtain ⟨_, apart, rfl⟩ := restoreImported_ok belongs restored
    refine derived.kept (mergeProjectState_sound derived.sound theirs apart) ?_
    intro key row present
    have underived := importBundle_indexes loaded
    have apartRows : ∀ key ∈ imported.indexes, key ∉ state.indexes := by
      rw [underived]
      exact fun key member => absurd member Std.ExtTreeMap.not_mem_empty
    rcases (getElem?_union_of_apart apartRows).mp present with old | new
    · exact old
    · rw [underived, Std.ExtTreeMap.getElem?_empty] at new
      cases new

end Deriving

section Passing

variable {version : SourceVersion} {counts counts' : RepairCounts}

def defaultParse (environment : Environment σ) (bytes : List UInt8) : Except String ParsedIndex :=
  parseBytes environment.alphabet defaultParserLimits bytes

/-- A stored version whose derived rows are what its parser makes of its blob: a row of that parse if
there is one, no row if it fails, and the record of it. Without its blob the rows are left alone. -/
structure Settled (environment : Environment σ) (blobs : σ) (state : CatalogState)
    (version : SourceVersion) : Prop where
  project : validateProjectId version.projectId = .ok ()
  stored : state.versions[version.key]? = some version
  reported : ∃ answer, availability environment state blobs version = .ok answer
  parsed : ∀ bytes,
    environment.store.readVerified blobs version.contentDigest version.byteCount = .ok bytes →
      ∃ parser, isBlank parser = false ∧ version.parserIdentity = some parser ∧
        state.indexes[version.key]? =
          parsedRow parser version.contentDigest (defaultParse environment bytes) ∧
        state.parseRecords[version.key]? =
          some (parseRecord parser version.contentDigest (defaultParse environment bytes))

/-- Nothing but the rows under one key has changed. -/
structure Elsewhere (key : RowKey) (state next : CatalogState) : Prop where
  versions : ∀ other ≠ key, next.versions[other]? = state.versions[other]?
  indexes : ∀ other ≠ key, next.indexes[other]? = state.indexes[other]?
  parseRecords : ∀ other ≠ key, next.parseRecords[other]? = state.parseRecords[other]?

theorem Elsewhere.refl (key : RowKey) (state : CatalogState) : Elsewhere key state state :=
  ⟨fun _ _ => rfl, fun _ _ => rfl, fun _ _ => rfl⟩

theorem availability_congr (same : next.versions[version.key]? = state.versions[version.key]?) :
    availability environment next blobs version = availability environment state blobs version := by
  simp only [availability, authorizedVersion, same]

theorem Settled.elsewhere {key : RowKey} (settled : Settled environment blobs state version)
    (elsewhere : Elsewhere key state next) (other : version.key ≠ key) :
    Settled environment blobs next version where
  project := settled.project
  stored := (elsewhere.versions _ other).trans settled.stored
  reported := by
    rw [availability_congr (elsewhere.versions _ other)]
    exact settled.reported
  parsed := by
    rw [elsewhere.indexes _ other, elsewhere.parseRecords _ other]
    exact settled.parsed

theorem availability_stored (project : validateProjectId version.projectId = .ok ())
    (stored : state.versions[version.key]? = some version) :
    availability environment state blobs version = .ok .available ↔
      ∃ bytes, environment.store.readVerified blobs version.contentDigest version.byteCount =
        .ok bytes := by
  simp only [availability, authorizedVersion_stored project stored, Drain.ok_bind]
  cases environment.store.readVerified blobs version.contentDigest version.byteCount with
  | ok bytes => simp
  | error error => cases error <;> simp

theorem availability_project {answer : Availability}
    (reported : availability environment state blobs version = .ok answer) :
    validateProjectId version.projectId = .ok () := by
  simp only [availability, authorizedVersion, Drain.bind_eq_ok] at reported
  obtain ⟨_, ⟨_, valid, _⟩, _⟩ := reported
  exact valid

theorem reindexed_elsewhere {stored : SourceVersion} {parser : String}
    {parsed : Except String ParsedIndex}
    (indexes : ∀ key, (reindexed state stored parser parsed).indexes[key]? =
      if stored.key = key then parsedRow parser stored.contentDigest parsed else state.indexes[key]?) :
    Elsewhere stored.key state (reindexed state stored parser parsed) where
  versions := by
    intro other apart
    rw [reindexed_versions]
    exact getElem?_insert_ne _ _ (Ne.symm apart)
  indexes := by
    intro other apart
    rw [indexes, if_neg (Ne.symm apart)]
  parseRecords := by
    intro other apart
    rw [reindexed_parseRecords]
    exact getElem?_insert_ne _ _ (Ne.symm apart)

theorem repairVersion_settles (injective : Set.InjOn contentDigest vault)
    (serves : Serves environment vault blobs) (derived : Derived environment vault state)
    (stored : state.versions[version.key]? = some version)
    (turned : repairVersion environment blobs (counts, state) version = .ok (counts', next)) :
    (∃ named : SourceVersion, named.key = version.key ∧ Settled environment blobs next named) ∧
      Elsewhere version.key state next := by
  simp only [repairVersion, Drain.bind_eq_ok] at turned
  obtain ⟨answer, reported, turned⟩ := turned
  have project := availability_project reported
  split_ifs at turned with unavailable
  · cases turned
    refine ⟨⟨version, rfl, project, stored, ⟨answer, reported⟩, ?_⟩, .refl _ _⟩
    intro bytes read
    have available := (availability_stored project stored).mpr ⟨bytes, read⟩
    exact absurd (Except.ok.inj (reported.symm.trans available)) unavailable
  · simp only [Drain.bind_eq_ok] at turned
    obtain ⟨⟨report, indexed⟩, parsed, counted⟩ := turned
    have same : indexed = next := by
      dsimp only at counted
      split_ifs at counted
      all_goals
        cases counted
        rfl
    subst same
    obtain ⟨visible, _, _, authorized, bytes, read, rfl, _⟩ := parseAndIndexState_eq_ok.mp parsed
    rw [authorizedVersion_stored project stored] at authorized
    cases authorized
    clear parsed counted
    obtain ⟨inside, address⟩ := serves _ _ _ read
    generalize version.parserIdentity.getD defaultParserIdentity = parser at visible ⊢
    -- what stands under the key came from these bytes, and is what they give now
    have indexes (key : RowKey) :
        (reindexed state version parser (defaultParse environment bytes)).indexes[key]? =
          if version.key = key then
            parsedRow parser version.contentDigest (defaultParse environment bytes)
          else state.indexes[key]? := by
      refine reindexed_indexes ?_ key
      intro row present ours same fresh new
      rw [← ours, ← same] at new
      exact (derived.rows _ row present).same injective inside (address.trans same.symm) new
    have named : (reindexed state version parser (defaultParse environment bytes)).versions[version.key]? =
        some { version with parserIdentity := some parser } := by
      rw [reindexed_versions]
      exact getElem?_insert_self _ _ _
    refine ⟨⟨{ version with parserIdentity := some parser }, rfl, project, named, ?_, ?_⟩,
      reindexed_elsewhere indexes⟩
    · exact ⟨.available, (@availability_stored _ _ _ _ { version with parserIdentity := some parser }
        project named).mpr ⟨bytes, read⟩⟩
    · intro again readAgain
      cases read.symm.trans readAgain
      refine ⟨_, visible, rfl, (indexes _).trans (if_pos rfl), ?_⟩
      rw [reindexed_parseRecords]
      exact getElem?_insert_self _ _ _

theorem repairVersion_parses {bytes : List UInt8} {parser : String}
    (project : validateProjectId version.projectId = .ok ())
    (stored : state.versions[version.key]? = some version)
    (read : environment.store.readVerified blobs version.contentDigest version.byteCount = .ok bytes)
    (named : version.parserIdentity.getD defaultParserIdentity = parser)
    (visible : isBlank parser = false) :
    ∃ counts', repairVersion environment blobs (counts, state) version =
      .ok (counts', reindexed state version parser (defaultParse environment bytes)) := by
  have available := (availability_stored project stored).mpr ⟨bytes, read⟩
  have parsed := (@parseAndIndexState_eq_ok _ _ _ _ _ _ _ defaultParserLimits _).mpr
    ⟨visible, by decide, version, authorizedVersion_stored project stored, bytes, read, rfl, rfl⟩
  simp only [repairVersion, available, Drain.ok_bind, named, parsed, ne_eq, not_true_eq_false, if_false]
  split_ifs
  all_goals exact ⟨_, rfl⟩

theorem repairVersion_settled (settled : Settled environment blobs state version) :
    ∃ counts', repairVersion environment blobs (counts, state) version = .ok (counts', state) ∧
      counts'.repaired = counts.repaired := by
  obtain ⟨answer, reported⟩ := settled.reported
  by_cases available : answer = .available
  · subst available
    obtain ⟨bytes, read⟩ := (availability_stored settled.project settled.stored).mp reported
    obtain ⟨parser, visible, named, indexed, recorded⟩ := settled.parsed bytes read
    have parsed : parseAndIndexState environment state blobs version parser defaultParserLimits = .ok
        (parseReport version parser (parseRecord parser version.contentDigest
          (defaultParse environment bytes)) state.indexRevision, state) := by
      refine parseAndIndexState_eq_ok.mpr ⟨visible, by decide, version,
        authorizedVersion_stored settled.project settled.stored, bytes, read, ?_, rfl⟩
      exact (reindexed_settled named settled.stored indexed recorded).symm
    simp only [repairVersion, reported, Drain.ok_bind, named, Option.getD_some, parsed]
    cases parse : defaultParse environment bytes with
    | error error => exact ⟨_, rfl, rfl⟩
    | ok index =>
      rw [parse] at indexed
      rw [indexed]
      refine ⟨{ counts with attempted := counts.attempted + 1, unchanged := counts.unchanged + 1 },
        ?_, rfl⟩
      simp [parsedRow, parseReport, parseRecord, pure, Except.pure]
  · refine ⟨{ counts with skippedUnavailable := counts.skippedUnavailable + 1 }, ?_, rfl⟩
    simp only [repairVersion, reported, Drain.ok_bind, if_pos available]
    rfl

end Passing

section Converging

variable {versions : List SourceVersion}

def InScope (projectId : Option String) (key : RowKey) : Prop := projectId.all ((ofLex key).1 = ·) = true

structure Converged (environment : Environment σ) (projectId : Option String) (blobs : σ)
    (state : CatalogState) : Prop where
  owned : ∀ key ∈ state.indexes, InScope projectId key → key ∈ state.versions
  settled : ∀ (key : RowKey) (version : SourceVersion), state.versions[key]? = some version →
    InScope projectId key → key = version.key ∧ Settled environment blobs state version

theorem versionsFor_eq_ok : versionsFor state projectId = .ok versions ↔
    validateOptionalProject projectId = .ok () ∧
      versions = sortOn SourceVersion.key ((rows state.versions).filter fun version =>
        projectId.all (version.projectId = ·)) := by
  rw [versionsFor, Drain.bind_eq_ok]
  constructor
  · rintro ⟨_, valid, answer⟩
    cases answer
    exact ⟨valid, rfl⟩
  · rintro ⟨valid, rfl⟩
    exact ⟨(), valid, rfl⟩

variable {formats : JsonFormats}

theorem mem_versionsFor (sound : Sound formats state)
    (listed : versionsFor state projectId = .ok versions) {version : SourceVersion} :
    version ∈ versions ↔ state.versions[version.key]? = some version ∧ InScope projectId version.key := by
  rw [(versionsFor_eq_ok.mp listed).2, mem_sortOn, List.mem_filter, mem_rows]
  refine and_congr_left fun _ => ?_
  constructor
  · rintro ⟨key, present⟩
    rwa [← sound.versions key version present]
  · intro present
    exact ⟨_, present⟩

theorem mem_versionsFor_keys (sound : Sound formats state)
    (listed : versionsFor state projectId = .ok versions) {key : RowKey} :
    key ∈ versions.map SourceVersion.key ↔ key ∈ state.versions ∧ InScope projectId key := by
  rw [List.mem_map]
  constructor
  · rintro ⟨version, member, rfl⟩
    obtain ⟨present, inside⟩ := (mem_versionsFor sound listed).mp member
    exact ⟨mem_iff.mpr ⟨version, present⟩, inside⟩
  · rintro ⟨member, inside⟩
    obtain ⟨version, present⟩ := mem_iff.mp member
    have own := sound.versions key version present
    subst own
    exact ⟨version, (mem_versionsFor sound listed).mpr ⟨present, inside⟩, rfl⟩

theorem versionsFor_nodup (sound : Sound formats state)
    (listed : versionsFor state projectId = .ok versions) : (versions.map SourceVersion.key).Nodup := by
  rw [(versionsFor_eq_ok.mp listed).2, ((sortOn_perm _ _).map _).nodup_iff]
  refine List.Nodup.sublist (List.Sublist.map _ List.filter_sublist) ?_
  have keys : (rows state.versions).map SourceVersion.key = state.versions.keys := by
    rw [← Std.ExtTreeMap.map_fst_toList_eq_keys, ← rows_map_own sound.versions, List.map_map]
    rfl
  rw [keys]
  exact Std.ExtTreeMap.nodup_keys

theorem eraseIndexes_versions (keys : List RowKey) : (eraseIndexes keys state).versions = state.versions := by
  rw [eraseIndexes]
  split_ifs
  · rfl
  · rfl

theorem mem_indexKeys {key : RowKey} :
    key ∈ indexKeys projectId state ↔ key ∈ state.indexes ∧ InScope projectId key := by
  rw [indexKeys, List.mem_filter, Std.ExtTreeMap.mem_keys]
  rfl

theorem Settled.erased {version : SourceVersion} {keys : List RowKey}
    (settled : Settled environment blobs state version) (kept : version.key ∉ keys) :
    Settled environment blobs (eraseIndexes keys state) version where
  project := settled.project
  stored := by rw [eraseIndexes_versions]; exact settled.stored
  reported := by
    rw [availability_congr (congrArg (·[version.key]?) (eraseIndexes_versions keys))]
    exact settled.reported
  parsed := by
    have records : (eraseIndexes keys state).parseRecords = state.parseRecords := by
      rw [eraseIndexes]
      split_ifs
      · rfl
      · rfl
    rw [eraseIndexes_indexes, if_neg kept, records]
    exact settled.parsed

theorem pass_settles {counts counts' : RepairCounts} (injective : Set.InjOn contentDigest vault)
    (serves : Serves environment vault blobs) (derived : Derived environment vault state)
    (listed : versionsFor state projectId = .ok versions) {start : CatalogState}
    (begun : Derived environment vault start) (same : start.versions = state.versions)
    (passed : versions.foldlM (repairVersion environment blobs) (counts, start) = .ok (counts', next)) :
    (∀ key, key ∈ next.versions ↔ key ∈ state.versions) ∧
      ∀ version ∈ versions, ∃ named : SourceVersion, named.key = version.key ∧
        Settled environment blobs next named := by
  have pass := @Drain.foldlM_pass _ _ _ _ (repairVersion environment blobs) SourceVersion.key
    (fun progress => Derived environment vault progress.2 ∧
      ∀ key, key ∈ progress.2.versions ↔ key ∈ state.versions)
    (fun version progress => progress.2.versions[version.key]? = some version)
    (fun version progress => ∃ named : SourceVersion, named.key = version.key ∧
      Settled environment blobs progress.2 named) versions
    ?_ ?_ (versionsFor_nodup derived.sound listed) (counts, start) (counts', next) ⟨begun, by simp [same]⟩
    ?_ passed
  · exact ⟨pass.1.2, pass.2.1⟩
  · rintro ⟨counts, state'⟩ version ⟨counts', next'⟩ ⟨derived', known⟩ stored turned
    obtain ⟨settled, elsewhere⟩ := repairVersion_settles injective serves derived' stored turned
    refine ⟨⟨repairVersion_derived serves derived' turned, ?_⟩, settled⟩
    intro key
    rw [← known key]
    by_cases own : key = version.key
    · obtain ⟨named, names, settled⟩ := settled
      subst own
      exact iff_of_true (names ▸ mem_iff.mpr ⟨named, settled.stored⟩) (mem_iff.mpr ⟨version, stored⟩)
    · rw [mem_iff, mem_iff, elsewhere.versions key own]
  · rintro ⟨counts, state'⟩ version ⟨counts', next'⟩ other ⟨derived', _⟩ stored turned apart
    obtain ⟨_, elsewhere⟩ := repairVersion_settles injective serves derived' stored turned
    refine ⟨fun before => (elsewhere.versions _ (Ne.symm apart)).trans before, ?_⟩
    rintro ⟨named, names, settled⟩
    exact ⟨named, names, settled.elsewhere elsewhere (names ▸ Ne.symm apart)⟩
  · intro version member
    rw [same]
    exact ((mem_versionsFor derived.sound listed).mp member).1

theorem repairState_converges {reset : Bool} {report : RepairReport}
    (injective : Set.InjOn contentDigest vault) (serves : Serves environment vault blobs)
    (derived : Derived environment vault state)
    (repaired : repairState environment projectId blobs reset state = .ok (report, next)) :
    Converged environment projectId blobs next := by
  simp only [repairState, Drain.bind_eq_ok] at repaired
  obtain ⟨versions, listed, ⟨counts, middle⟩, passed, answer⟩ := repaired
  cases answer
  have begun : Derived environment vault
        (if reset then eraseIndexes (indexKeys projectId state) state else state) ∧
      (if reset then eraseIndexes (indexKeys projectId state) state else state).versions =
        state.versions := by
    split_ifs
    · exact ⟨eraseIndexes_derived derived _, eraseIndexes_versions _⟩
    · exact ⟨derived, rfl⟩
  obtain ⟨known, settled⟩ := pass_settles injective serves derived listed begun.1 begun.2 passed
  have listing := fun key => @mem_versionsFor_keys _ projectId versions _ derived.sound listed key
  refine ⟨?_, ?_⟩
  · intro key indexed inside
    rw [eraseIndexes_versions, known]
    obtain ⟨row, present⟩ := mem_iff.mp indexed
    rw [eraseIndexes_indexes] at present
    split_ifs at present with orphan
    rw [List.mem_filter, decide_eq_true_eq, not_and_not_right] at orphan
    have member := orphan (mem_indexKeys.mpr ⟨mem_iff.mpr ⟨row, present⟩, inside⟩)
    exact ((listing key).mp member).1
  · intro key version present inside
    rw [eraseIndexes_versions] at present
    have member := (listing key).mpr ⟨(known key).mp (mem_iff.mpr ⟨version, present⟩), inside⟩
    obtain ⟨old, among, rfl⟩ := List.mem_map.mp member
    obtain ⟨named, names, done⟩ := settled old among
    have same : named = version := by
      have stored := done.stored
      rw [names, present] at stored
      exact (Option.some.inj stored).symm
    subst same
    refine ⟨names.symm, done.erased ?_⟩
    rw [List.mem_filter, decide_eq_true_eq, names]
    exact fun orphan => orphan.2 member

theorem repairState_converged (sound : Sound formats state)
    (valid : validateOptionalProject projectId = .ok ())
    (converged : Converged environment projectId blobs state) :
    ∃ report, repairState environment projectId blobs false state = .ok (report, state) ∧
      report.counts.repaired = 0 ∧ report.orphanIndexesRemoved = 0 := by
  obtain ⟨versions, listed⟩ : ∃ versions, versionsFor state projectId = .ok versions :=
    ⟨_, versionsFor_eq_ok.mpr ⟨valid, rfl⟩⟩
  have answers : ∀ progress : RepairCounts × CatalogState, progress.2 = state ∧ progress.1.repaired = 0 →
      ∀ version ∈ versions, ∃ progress',
        repairVersion environment blobs progress version = .ok progress' ∧
          progress'.2 = state ∧ progress'.1.repaired = 0 := by
    rintro ⟨counts, _⟩ ⟨rfl, zero⟩ version member
    obtain ⟨present, inside⟩ := (mem_versionsFor sound listed).mp member
    obtain ⟨counts', turned, same⟩ := repairVersion_settled (converged.settled _ version present inside).2
    exact ⟨(counts', _), turned, rfl, same.trans zero⟩
  obtain ⟨⟨counts, last⟩, passed, same, zero⟩ :=
    Drain.foldlM_answers answers (s := (⟨0, 0, 0, 0, 0⟩, state)) ⟨rfl, rfl⟩
  change last = state at same
  rw [same] at passed
  have orphans : (indexKeys projectId state).filter (· ∉ versions.map SourceVersion.key) = [] := by
    rw [List.filter_eq_nil_iff]
    intro key member
    obtain ⟨indexed, inside⟩ := mem_indexKeys.mp member
    have known := (mem_versionsFor_keys sound listed).mpr ⟨converged.owned key indexed inside, inside⟩
    simpa using known
  simp only [repairState, listed, Drain.ok_bind, Bool.false_eq_true, if_false, passed, orphans,
    eraseIndexes, if_true]
  exact ⟨_, rfl, zero, rfl⟩

end Converging

section Repairing

variable {catalog final again : Catalog σ} {start : Catalog σ} {events : List (Event σ)}

/-- A run from an empty catalogue. Other programs may do what they like to the blobs and to the disk,
except that they do not write the snapshot; every read that is answered is a verified one. -/
structure Undisturbed (environment : Environment σ) (vault : Set (List UInt8)) (start : Catalog σ)
    (events : List (Event σ)) : Prop where
  fresh : Fresh environment start
  snapshot : ∀ blobs change, Event.outside blobs change ∈ events → ∀ disk, (change disk).file = disk.file
  serves : ∀ before, before <+: events →
    Serves environment vault (List.foldl (advance environment) start before).blobs

theorem outside_holds {P : CatalogState → Prop} {change : Disk → Disk}
    (kept : ∀ disk, (change disk).file = disk.file) (holds : Holds environment P catalog) :
    Holds environment P (advance environment catalog (.outside blobs change)) := by
  refine ⟨holds.1, fun state known => holds.2 state ?_⟩
  have file : (advance environment catalog (.outside blobs change)).file = catalog.file := by
    change (catalog.disk.map change).bind (·.file) = catalog.disk.bind (·.file)
    cases catalog.disk with
    | none => rfl
    | some disk => exact kept disk
  rw [metadata, file] at known
  exact known

theorem Undisturbed.derived (undisturbed : Undisturbed environment vault start events) :
    Holds environment (Derived environment vault) (List.foldl (advance environment) start events) := by
  induction events using List.reverseRecOn with
  | nil =>
    refine ⟨?_, ?_⟩
    · obtain ⟨blobs, rfl | ⟨disk, unwritten, opened⟩⟩ := undisturbed.fresh
      · exact derived_empty
      · rw [withPersistentFilesystem, unwritten] at opened
        cases opened
        exact derived_empty
    · intro state known
      have kept := undisturbed.fresh.kept.2
      obtain ⟨blobs, rfl | ⟨disk, unwritten, opened⟩⟩ := undisturbed.fresh
      · cases kept.symm.trans known
        exact derived_empty
      · rw [withPersistentFilesystem, unwritten] at opened
        cases opened
        cases kept.symm.trans known
        exact derived_empty
  | append_singleton earlier event ih =>
    have before : Undisturbed environment vault start earlier :=
      ⟨undisturbed.fresh,
        fun blobs change member => undisturbed.snapshot blobs change (List.mem_append_left _ member),
        fun front shorter => undisturbed.serves front (shorter.trans (List.prefix_append _ _))⟩
    rw [List.foldl_append]
    refine advance_holds preserved_derived (before.serves earlier (List.prefix_refl _)) (ih before) ?_
    rintro blobs change rfl
    exact outside_holds (undisturbed.snapshot blobs change
      (List.mem_append_right _ List.mem_cons_self)) (ih before)

theorem repair_valid (valid : validateOptionalProject projectId = .ok ()) :
    repair environment projectId catalog = transact environment (reading fun blobs state =>
      repairState environment projectId blobs false state) catalog :=
  bind_of_ok (ofExcept_eq_ok.mpr ⟨valid, rfl⟩)

theorem reading_error {α : Type} {body : σ → CatalogState → Except SourceError (α × CatalogState)}
    {error : SourceError} {blobs blobs' : σ}
    (failed : reading body state blobs = .error error blobs') : blobs' = blobs := by
  rcases bind_eq_error.mp failed with read | ⟨_, _, read, rest⟩
  · cases read
  · obtain ⟨rfl, rfl⟩ := get_eq_ok.mp read
    rcases bind_eq_error.mp rest with ran | ⟨_, _, _, answered⟩
    · exact (ofExcept_eq_error.mp ran).2.symm
    · cases answered

/-- What follows a call at once: the same blobs, memory and snapshot, and any faults of the disk. -/
structure Follows (final again : Catalog σ) : Prop where
  blobs : again.blobs = final.blobs
  state : again.state = final.state
  file : again.file = final.file

structure Rests (environment : Environment σ) (projectId : Option String) (state : CatalogState)
    (again : Catalog σ) : Prop where
  idle : ∀ report last, repair environment projectId again = .ok report last →
    report.counts.repaired = 0 ∧ report.orphanIndexesRemoved = 0 ∧ last.state = state
  answers : acquirePersistentLock again.disk = .ok () →
    (∃ known, reloadPersistentState environment again = .ok known) →
    (∀ disk ∈ again.disk, disk.writeOutcome = .written) →
      ∃ report last, repair environment projectId again = .ok report last

theorem rests_of_converged {formats : JsonFormats} (sound : Sound formats state)
    (valid : validateOptionalProject projectId = .ok ())
    (converged : Converged environment projectId again.blobs state)
    (known : ∀ known, reloadPersistentState environment again = .ok known → known = state) :
    Rests environment projectId state again := by
  obtain ⟨report, repaired, zero, orphanless⟩ := repairState_converged sound valid converged
  have ran : reading (fun blobs state => repairState environment projectId blobs false state) state
      again.blobs = .ok (report, some state) again.blobs := by
    simp only [reading, bind_eq_ok, get_eq_ok, ofExcept_eq_ok, pure_eq_ok]
    exact ⟨_, _, ⟨rfl, rfl⟩, (report, state), _, ⟨repaired, rfl⟩, rfl, rfl⟩
  constructor
  · intro report' last done
    rw [repair_valid valid] at done
    obtain ⟨met, change, blobs, reload, ran', same⟩ := transact_ok done
    cases known met reload
    cases ran.symm.trans ran'
    exact ⟨zero, orphanless, same⟩
  · rintro lock ⟨met, reload⟩ written
    cases known met reload
    rw [repair_valid valid]
    simp only [transact, lock, reload, ran]
    cases present : again.disk with
    | none => exact ⟨_, _, rfl⟩
    | some disk =>
      simp only [persistState, written disk present]
      exact ⟨_, _, rfl⟩

/-- A repair that fails leaves the metadata and the blobs as they were; one that answers leaves a
converged index, on which the next repair rests. -/
structure Repaired (environment : Environment σ) (projectId : Option String) (catalog : Catalog σ)
    (result : EStateM.Result SourceError (Catalog σ) RepairReport) : Prop where
  failed : ∀ error final, result = .error error final →
    Untouched environment catalog final ∧ final.blobs = catalog.blobs
  answered : ∀ report final, result = .ok report final →
    Converged environment projectId final.blobs final.state ∧
      ∀ again, Follows final again → Rests environment projectId final.state again

theorem repaired_error {error : SourceError}
    (untouched : Untouched environment catalog final ∧ final.blobs = catalog.blobs) :
    Repaired environment projectId catalog (.error error final) where
  failed := by
    intro _ _ same
    cases same
    exact untouched
  answered := by
    intro _ _ same
    cases same

/-- In every run, a repair whose write is not left without its synchronisation. -/
theorem repair_converges (injective : Set.InjOn contentDigest vault)
    (undisturbed : Undisturbed environment vault start events)
    (synced : Synced (List.foldl (advance environment) start events)) :
    Repaired environment projectId (List.foldl (advance environment) start events)
      (repair environment projectId (List.foldl (advance environment) start events)) := by
  have holds := undisturbed.derived
  have serves := undisturbed.serves events (List.prefix_refl _)
  generalize List.foldl (advance environment) start events = catalog at synced holds serves ⊢
  cases valid : validateOptionalProject projectId with
  | error error =>
    have refused : repair environment projectId catalog = .error error catalog := by
      rw [repair, valid]
      exact bind_of_error (ofExcept_error _ _)
    rw [refused]
    exact repaired_error ⟨⟨rfl, .inl rfl⟩, rfl⟩
  | ok _ =>
    rw [repair_valid valid]
    have outcome := transact_cases environment
      (reading fun blobs state => repairState environment projectId blobs false state) catalog
    generalize transact environment _ catalog = result at outcome
    cases outcome with
    | locked error lock => exact repaired_error ⟨⟨rfl, .inl rfl⟩, rfl⟩
    | unread error lock reload => exact repaired_error ⟨⟨rfl, .inl rfl⟩, rfl⟩
    | failed error state blobs lock reload ran =>
      exact repaired_error ⟨untouched_reloaded reload, reading_error ran⟩
    | answered value state blobs lock reload ran =>
      obtain ⟨_, _, answer⟩ := reading_ok ran
      cases answer
    | refused error value state next blobs disk lock reload ran present outcome =>
      refine repaired_error ⟨untouched_reloaded reload, ?_⟩
      simp only [reading, bind_eq_ok, get_eq_ok, ofExcept_eq_ok, pure_eq_ok] at ran
      obtain ⟨_, _, ⟨rfl, rfl⟩, _, _, ⟨_, rfl⟩, _, same⟩ := ran
      exact same.symm
    | unsynced error value state next blobs disk lock reload ran present outcome =>
      exact absurd outcome (synced disk present error)
    | changed value state next blobs lock reload ran written =>
      have derived := holds.2 state (metadata_reloaded reload)
      simp only [reading, bind_eq_ok, get_eq_ok, ofExcept_eq_ok, pure_eq_ok] at ran
      obtain ⟨_, _, ⟨rfl, rfl⟩, ⟨report, next'⟩, _, ⟨repaired, rfl⟩, answer, rfl⟩ := ran
      cases answer
      have converged := repairState_converges injective serves derived repaired
      have sound := (repairState_derived serves derived repaired).sound
      refine ⟨fun error final ended => absurd ended (by simp), ?_⟩
      intro report' final ended
      cases ended
      refine ⟨converged, ?_⟩
      rintro again ⟨blobs, state', file⟩
      refine rests_of_converged sound valid (blobs ▸ converged) ?_
      intro known reload'
      have read := metadata_reloaded reload'
      rw [metadata, file, state'] at read
      cases present : catalog.disk with
      | none =>
        rw [present] at read
        exact (Except.ok.inj read).symm
      | some disk =>
        rw [present] at read
        exact ((restored_snapshot sound).mp read).1.symm

end Repairing

section Notes

variable {formats : JsonFormats} {alphabet : Alphabet}

theorem serves_memory {blobs : Std.ExtTreeMap String (List UInt8)}
    (inside : ∀ (digest : String) (bytes : List UInt8), blobs[digest]? = some bytes → bytes ∈ vault) :
    Serves (inMemory formats alphabet) vault blobs := by
  intro digest byteCount bytes read
  change memoryBlobStore.readVerified blobs digest byteCount = .ok bytes at read
  simp only [memoryBlobStore] at read
  cases present : blobs[digest]? with
  | none =>
    rw [present] at read
    cases read
  | some stored =>
    rw [present] at read
    simp only [Drain.bind_eq_ok, verifyBytes] at read
    obtain ⟨_, verified, answer⟩ := read
    cases answer
    split_ifs at verified with wrong
    rw [not_or, not_not, not_not] at wrong
    exact ⟨inside digest bytes present, wrong.2⟩

theorem serves_notesBlobs : Serves (inMemory formats alphabet) {[]} notesBlobs := by
  refine serves_memory fun digest bytes present => ?_
  rw [notesBlobs, getElem?_insert, Std.ExtTreeMap.getElem?_empty] at present
  split_ifs at present
  exact (Option.some.inj present).symm

theorem serves_noBlobs : Serves (inMemory formats alphabet) {[]} ∅ := by
  refine serves_memory fun digest bytes present => ?_
  rw [Std.ExtTreeMap.getElem?_empty] at present
  cases present

def capturedNotes : CatalogState := insertVersion emptyState (notes "atlas")

theorem capturedNotes_stored : capturedNotes.versions[(notes "atlas").key]? = some (notes "atlas") :=
  getElem?_insert_self _ _ _

theorem capturedNotes_derived : Derived (inMemory formats alphabet) {[]} capturedNotes := by
  refine derived_empty.kept (sound_empty.reworked (Reworked.of_rows
    (@reworked_insert emptyState (notes "atlas") ?_))) fun _ _ => id
  intro old present
  exact absurd present (by simp [emptyState])

theorem parse_notes : ∃ parsed, defaultParse (inMemory formats alphabet) [] = .ok parsed := by
  refine ⟨⟨contentDigest [], [], ∅, [⟨"empty_text", "source contains no non-empty text lines"⟩]⟩, ?_⟩
  have decoded : fromUtf8 [] = some "" := by decide
  rw [defaultParse, parseBytes, decoded]
  rfl

theorem versionsFor_notes : versionsFor capturedNotes none = .ok [notes "atlas"] := by
  have single : rows capturedNotes.versions = [notes "atlas"] := rows_single _ _
  refine versionsFor_eq_ok.mpr ⟨rfl, ?_⟩
  rw [single]
  rfl

theorem capturedNotes_read : (inMemory formats alphabet).store.readVerified notesBlobs
    (notes "atlas").contentDigest (notes "atlas").byteCount = .ok [] := by
  simp only [notes, newVersion]
  exact read_notes

theorem repair_notes : ∃ report next,
    repairState (inMemory formats alphabet) none notesBlobs false capturedNotes = .ok (report, next) ∧
      (notes "atlas").key ∈ next.indexes := by
  obtain ⟨parsed, parse⟩ := @parse_notes formats alphabet
  obtain ⟨counts, turned⟩ := @repairVersion_parses _ (inMemory formats alphabet) _ notesBlobs
    (notes "atlas") ⟨0, 0, 0, 0, 0⟩ _ _ (by decide) capturedNotes_stored capturedNotes_read rfl (by decide)
  have passed : [notes "atlas"].foldlM (repairVersion (inMemory formats alphabet) notesBlobs)
      (⟨0, 0, 0, 0, 0⟩, capturedNotes) = .ok (counts, _) := Drain.bind_eq_ok.mpr ⟨_, turned, rfl⟩
  simp only [repairState, versionsFor_notes, Drain.ok_bind, Bool.false_eq_true, if_false, passed]
  refine ⟨_, _, rfl, mem_iff.mpr ?_⟩
  rw [eraseIndexes_indexes, if_neg (by simp), reindexed_indexes, if_pos rfl, parse]
  · exact ⟨_, rfl⟩
  · intro row present
    exact absurd present (by simp [capturedNotes, insertVersion, emptyState])

theorem capture_notes_on_disk {fault readFault : Option SourceError} {outcome : WriteOutcome}
    (lock : fault = none) (written : outcome = .written) :
    advance (inMemory formats alphabet) ⟨∅, emptyState, some ⟨none, fault, readFault, outcome⟩⟩
      (.capture "atlas" "notes.txt" [] "text/plain") =
        ⟨notesBlobs, capturedNotes,
          some ⟨some (snapshot (inMemory formats alphabet) capturedNotes), fault, readFault, outcome⟩⟩ := by
  subst lock written
  have captured : captureVersion (inMemory formats alphabet) emptyState "atlas" "notes.txt" []
      "text/plain" ∅ = .ok (notes "atlas", some capturedNotes) notesBlobs := by
    refine captureVersion_fresh (by decide) (by decide) (by decide) Std.ExtTreeMap.getElem?_empty ?_
    refine memoryBlobStore_put ?_
    intro existing present
    rw [Std.ExtTreeMap.getElem?_empty] at present
    cases present
  rw [advance, step, finalState_discard]
  simp only [capture, transact, acquirePersistentLock, reloadPersistentState, Option.bind_some, captured,
    persistState]
  rfl

/-- The notes were captured on a disk whose next write is renamed into place and not synced. -/
def unsyncedRepair : List (Event (Std.ExtTreeMap String (List UInt8))) :=
  [.capture "atlas" "notes.txt" [] "text/plain",
    .outside notesBlobs ({ · with writeOutcome := .unsynced (.storage "directory sync failed") })]

theorem run_unsyncedRepair :
    List.foldl (advance (inMemory formats alphabet)) newlyOpened unsyncedRepair =
      ⟨notesBlobs, capturedNotes, some ⟨some (snapshot (inMemory formats alphabet) capturedNotes), none,
        none, .unsynced (.storage "directory sync failed")⟩⟩ := by
  rw [unsyncedRepair, newlyOpened, List.foldl_cons, capture_notes_on_disk rfl rfl]
  rfl

theorem unsyncedRepair_undisturbed :
    Undisturbed (inMemory formats alphabet) {[]} newlyOpened unsyncedRepair where
  fresh := ⟨∅, .inr ⟨⟨none, none, none, .written⟩, rfl, rfl⟩⟩
  snapshot := by
    intro blobs change member disk
    simp only [unsyncedRepair, List.mem_cons, List.not_mem_nil, or_false, reduceCtorEq, false_or,
      Event.outside.injEq] at member
    rw [member.2]
  serves := by
    intro before shorter
    simp only [unsyncedRepair, List.prefix_cons_iff, List.prefix_nil] at shorter
    obtain rfl | ⟨_, rfl, rfl | ⟨_, rfl, rfl⟩⟩ := shorter
    · exact serves_noBlobs
    · rw [newlyOpened, List.foldl_cons, capture_notes_on_disk rfl rfl]
      exact serves_notesBlobs
    · rw [newlyOpened, List.foldl_cons, capture_notes_on_disk rfl rfl]
      exact serves_notesBlobs

theorem failed_repair_remains (catalog : Catalog (Std.ExtTreeMap String (List UInt8)))
    (met : catalog = ⟨notesBlobs, capturedNotes, some ⟨some (snapshot (inMemory formats alphabet) capturedNotes),
      none, none, .unsynced (.storage "directory sync failed")⟩⟩) :
    ∃ error final next, repair (inMemory formats alphabet) none catalog = .error error final ∧
      metadata (inMemory formats alphabet) catalog = .ok capturedNotes ∧
      metadata (inMemory formats alphabet) final = .ok next ∧
      (notes "atlas").key ∉ capturedNotes.indexes ∧ (notes "atlas").key ∈ next.indexes := by
  subst met
  obtain ⟨report, next, repaired, indexed⟩ := @repair_notes formats alphabet
  have sound : Sound formats capturedNotes := (@capturedNotes_derived formats alphabet).sound
  have few : capturedNotes.artifactRelationships.size ≤ maxArtifactRelationships :=
    Std.ExtTreeMap.size_empty.trans_le (Nat.zero_le _)
  have reload : reloadPersistentState (inMemory formats alphabet) ⟨notesBlobs, capturedNotes,
      some ⟨some (snapshot (inMemory formats alphabet) capturedNotes), none, none,
        .unsynced (.storage "directory sync failed")⟩⟩ = .ok capturedNotes := (readable_iff sound).mpr few
  have ran : reading (fun blobs state => repairState (inMemory formats alphabet) none blobs false state)
      capturedNotes notesBlobs = .ok (report, some next) notesBlobs := by
    simp only [reading, bind_eq_ok, get_eq_ok, ofExcept_eq_ok, pure_eq_ok]
    exact ⟨_, _, ⟨rfl, rfl⟩, (report, next), _, ⟨repaired, rfl⟩, rfl, rfl⟩
  refine ⟨_, _, next, (repair_valid rfl).trans (transact_unsynced rfl rfl reload ran rfl),
    metadata_reloaded reload, ?_, ?_, indexed⟩
  · have reworked := repairState_reworked repaired
    refine (readable_iff (sound.reworked reworked)).mpr ?_
    rw [reworked.relationships]
    exact few
  · exact Std.ExtTreeMap.not_mem_empty

theorem unsynced_repair_remains :
    Undisturbed (inMemory plainFormats plainAlphabet) {[]} newlyOpened unsyncedRepair ∧
      ∃ error final next, repair (inMemory plainFormats plainAlphabet) none
          (List.foldl (advance (inMemory plainFormats plainAlphabet)) newlyOpened unsyncedRepair) =
            .error error final ∧
        metadata (inMemory plainFormats plainAlphabet)
          (List.foldl (advance (inMemory plainFormats plainAlphabet)) newlyOpened unsyncedRepair) =
            .ok capturedNotes ∧
        metadata (inMemory plainFormats plainAlphabet) final = .ok next ∧
        (notes "atlas").key ∉ capturedNotes.indexes ∧ (notes "atlas").key ∈ next.indexes :=
  ⟨unsyncedRepair_undisturbed, failed_repair_remains _ run_unsyncedRepair⟩

theorem advance_capture_notes :
    List.foldl (advance (inMemory formats alphabet)) (withBlobStore ∅)
      [.capture "atlas" "notes.txt" [] "text/plain"] = ⟨notesBlobs, capturedNotes, none⟩ := by
  rw [List.foldl_cons, List.foldl_nil, advance, capture_notes, finalState, capturedNotes]

theorem capture_notes_undisturbed : Undisturbed (inMemory formats alphabet) {[]} (withBlobStore ∅)
    [.capture "atlas" "notes.txt" [] "text/plain"] where
  fresh := ⟨∅, .inl rfl⟩
  snapshot := by
    intro blobs change member
    simp at member
  serves := by
    intro before shorter
    simp only [List.prefix_cons_iff, List.prefix_nil] at shorter
    obtain rfl | ⟨_, rfl, rfl⟩ := shorter
    · exact serves_noBlobs
    · rw [advance_capture_notes]
      exact serves_notesBlobs

theorem repair_converges_notes :
    Repaired (inMemory plainFormats plainAlphabet) none
      (List.foldl (advance (inMemory plainFormats plainAlphabet)) (withBlobStore ∅)
        [.capture "atlas" "notes.txt" [] "text/plain"])
      (repair (inMemory plainFormats plainAlphabet) none
        (List.foldl (advance (inMemory plainFormats plainAlphabet)) (withBlobStore ∅)
          [.capture "atlas" "notes.txt" [] "text/plain"])) := by
  have synced : Synced (List.foldl (advance (inMemory plainFormats plainAlphabet)) (withBlobStore ∅)
      [.capture "atlas" "notes.txt" [] "text/plain"]) := by
    rw [advance_capture_notes]
    intro disk none
    cases none
  exact repair_converges (Set.injOn_singleton _ _) capture_notes_undisturbed synced

end Notes

end Boreal.Source
