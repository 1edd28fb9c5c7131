/- Runs of a catalogue: every change goes through one transaction, and the snapshot stays readable as
long as each merged bundle leaves room for its relationships. -/
import BorealWork.SourceProgress

namespace Boreal.Source
open Formats Tables Transactions

variable {σ : Type} {environment : Environment σ} {catalog final : Catalog σ}

theorem transact_ok {α : Type} {value : α}
    {body : CatalogState → EStateM SourceError σ (α × Option CatalogState)}
    (done : transact environment body catalog = .ok value final) :
    ∃ (state : CatalogState) (change : Option CatalogState) (blobs : σ),
      reloadPersistentState environment catalog = .ok state ∧
      body state catalog.blobs = .ok (value, change) blobs ∧ final.state = change.getD state := by
  rw [transact] at done
  cases locked : acquirePersistentLock catalog.disk with
  | error error =>
    rw [locked] at done
    cases done
  | ok _ =>
    cases reloaded : reloadPersistentState environment catalog with
    | error error =>
      rw [locked, reloaded] at done
      cases done
    | ok state =>
      cases ran : body state catalog.blobs with
      | error error blobs =>
        simp only [locked, reloaded, ran] at done
        cases done
      | ok answer blobs =>
        refine ⟨state, answer.2, blobs, rfl, ?_⟩
        simp only [locked, reloaded, ran] at done
        obtain ⟨value', change⟩ := answer
        cases change with
        | none =>
          cases done
          exact ⟨ran, rfl⟩
        | some next =>
          cases present : catalog.disk with
          | none =>
            simp only [present] at done
            cases done
            exact ⟨ran, rfl⟩
          | some disk =>
            simp only [present] at done
            generalize persistState environment disk next = written at done
            obtain ⟨outcome, disk'⟩ := written
            cases outcome with
            | error error => cases done
            | ok _ =>
              cases done
              exact ⟨ran, rfl⟩

theorem reading_ok {α : Type} {value : α} {state : CatalogState} {change : Option CatalogState}
    {blobs blobs' : σ} {body : σ → CatalogState → Except SourceError (α × CatalogState)}
    (done : reading body state blobs = .ok (value, change) blobs') :
    ∃ next : CatalogState, body blobs state = .ok (value, next) ∧ change = some next := by
  simp only [reading, bind_eq_ok, get_eq_ok, ofExcept_eq_ok, pure_eq_ok] at done
  obtain ⟨_, _, ⟨rfl, rfl⟩, ⟨value', next⟩, _, ⟨ran, rfl⟩, answer, _⟩ := done
  cases answer
  exact ⟨next, ran, rfl⟩

section Steps

def Fit (formats : JsonFormats) (limited : Prop) (state : CatalogState) : Prop :=
  Sound formats state ∧ (limited → state.artifactRelationships.size ≤ maxArtifactRelationships)

variable {limited : Prop} {state next : CatalogState} {event : Event σ}

theorem Fit.reworked {formats : JsonFormats} (fit : Fit formats limited state)
    (reworked : Reworked state next) : Fit formats limited next :=
  ⟨fit.1.reworked reworked, fun asked => reworked.relationships ▸ fit.2 asked⟩

theorem reload_fit (fit : Fit environment.formats limited catalog.state)
    (reloaded : reloadPersistentState environment catalog = .ok state) :
    Fit environment.formats limited state := by
  rw [reloadPersistentState] at reloaded
  cases file : catalog.disk.bind (·.file) with
  | none =>
    rw [file] at reloaded
    cases reloaded
    exact fit
  | some bytes =>
    rw [file] at reloaded
    dsimp only at reloaded
    cases fault : catalog.disk.bind (·.readFault) with
    | some error =>
      rw [fault] at reloaded
      cases reloaded
    | none =>
      rw [fault] at reloaded
      obtain ⟨sound, few⟩ := restoreCatalogState_ok reloaded
      exact ⟨sound, fun _ => few⟩

theorem transact_fit {α : Type} {value : α}
    {body : CatalogState → EStateM SourceError σ (α × Option CatalogState)}
    (fit : Fit environment.formats limited catalog.state)
    (kept : ∀ (state next : CatalogState) (blobs : σ),
      reloadPersistentState environment catalog = .ok state →
      Fit environment.formats limited state →
      body state catalog.blobs = .ok (value, some next) blobs → Fit environment.formats limited next)
    (done : transact environment body catalog = .ok value final) :
    Fit environment.formats limited final.state := by
  obtain ⟨state, change, blobs, reloaded, ran, same⟩ := transact_ok done
  have start := reload_fit fit reloaded
  rw [same]
  cases change with
  | none => exact start
  | some next => exact kept state next blobs reloaded start ran

theorem reading_fit {α : Type} {value : α} {body : σ → CatalogState → Except SourceError (α × CatalogState)}
    (fit : Fit environment.formats limited catalog.state)
    (reworked : ∀ (state next : CatalogState),
      body catalog.blobs state = .ok (value, next) → Reworked state next)
    (done : transact environment (reading body) catalog = .ok value final) :
    Fit environment.formats limited final.state := by
  refine transact_fit fit ?_ done
  intro state next blobs _ start ran
  obtain ⟨_, changed, same⟩ := reading_ok ran
  cases same
  exact start.reworked (reworked state _ changed)

def Room (environment : Environment σ) : Event σ → Catalog σ → Prop
  | .restoreBundle bundle projectId, catalog =>
    ∀ (metadata : SourceBundleMetadata) (blobs : List SourceBundleBlob) (total : ℕ)
      (state : CatalogState),
      decodeSourceBundle environment.formats bundle.bytes = .ok (metadata, blobs, total) →
      reloadPersistentState environment catalog = .ok state →
      projectScopeIsPopulated (projectState state projectId) = false →
      state.artifactRelationships.size + metadata.catalog.artifactRelationships.length ≤
        maxArtifactRelationships
  | _, _ => True

theorem restoreBundle_fit {bundle : SourceCatalogBundle} {projectId : String}
    {readback : SourceBundleReadback} (fit : Fit environment.formats limited catalog.state)
    (room : limited → Room environment (.restoreBundle bundle projectId) catalog)
    (restored : restoreBundle environment bundle projectId catalog = .ok readback final) :
    Fit environment.formats limited final.state := by
  simp only [restoreBundle, bind_eq_ok, ofExcept_eq_ok] at restored
  obtain ⟨⟨imported, packed, total⟩, _, ⟨loaded, rfl⟩, done⟩ := restored
  obtain ⟨theirs, belongs, metadata, decoded, size⟩ := importBundle_ok loaded
  refine transact_fit fit ?_ done
  intro state next blobs reloaded start merged
  obtain ⟨unpopulated, apart, rfl⟩ := restoreImported_ok belongs merged
  refine ⟨mergeProjectState_sound start.1 theirs apart, ?_⟩
  intro asked
  rw [mergeProjectState_size apart, ← size]
  exact room asked metadata packed total state decoded reloaded unpopulated

theorem room_of_restored {bundle : SourceCatalogBundle} {projectId : String}
    {readback : SourceBundleReadback}
    (restored : restoreBundle environment bundle projectId catalog = .ok readback final)
    (few : final.state.artifactRelationships.size ≤ maxArtifactRelationships) :
    Room environment (.restoreBundle bundle projectId) catalog := by
  simp only [restoreBundle, bind_eq_ok, ofExcept_eq_ok] at restored
  obtain ⟨⟨imported, packed, total⟩, _, ⟨loaded, rfl⟩, done⟩ := restored
  obtain ⟨_, belongs, metadata, decoded, size⟩ := importBundle_ok loaded
  obtain ⟨state, change, blobs, reloaded, ran, same⟩ := transact_ok done
  intro metadata' packed' total' state' decoded' reloaded' unpopulated
  rw [decoded] at decoded'
  rw [reloaded] at reloaded'
  cases decoded'
  cases reloaded'
  cases change with
  | none =>
    -- only a project that is there already is left as it is
    rw [restoreImported, if_neg (Bool.eq_false_iff.mp unpopulated)] at ran
    simp only [bind_eq_ok, pure_eq_ok] at ran
    obtain ⟨_, _, _, _, _, _, answer, _⟩ := ran
    cases answer
  | some next =>
    obtain ⟨_, apart, rfl⟩ := restoreImported_ok belongs ran
    rw [same, Option.getD_some, mergeProjectState_size apart] at few
    rwa [size]

theorem step_fit (fit : Fit environment.formats limited catalog.state)
    (room : limited → Room environment event catalog)
    (stepped : step environment event catalog = .ok () final) :
    Fit environment.formats limited final.state := by
  cases event with
  | outside blobs disk =>
    cases stepped
    exact fit
  | capture projectId origin bytes mediaType =>
    obtain ⟨version, done⟩ := discard_eq_ok.mp stepped
    exact transact_fit fit (fun _ _ _ _ start ran =>
      start.reworked (captureVersion_reworked ran)) done
  | captureWithOperation request =>
    obtain ⟨receipt, done⟩ := discard_eq_ok.mp stepped
    exact transact_fit fit (fun _ _ _ _ start ran =>
      start.reworked (captureOperation_reworked ran)) done
  | recordArtifactRelationship input =>
    obtain ⟨receipt, done⟩ := discard_eq_ok.mp stepped
    simp only [recordArtifactRelationship, bind_eq_ok, ofExcept_eq_ok] at done
    obtain ⟨_, _, ⟨valid, rfl⟩, done⟩ := done
    refine transact_fit fit ?_ done
    intro state next blobs _ start ran
    simp only [bind_eq_ok, get_eq_ok, ofExcept_eq_ok] at ran
    obtain ⟨_, _, ⟨rfl, rfl⟩, recorded, _⟩ := ran
    obtain ⟨sound, few⟩ := recordRelationship_ok start.1 valid recorded
    exact ⟨sound, fun _ => few⟩
  | recordParser version parser inputVersionId =>
    obtain ⟨updated, done⟩ := discard_eq_ok.mp stepped
    exact reading_fit fit (fun _ _ => updateParser_reworked) done
  | parseAndIndex version parser limits =>
    obtain ⟨report, done⟩ := discard_eq_ok.mp stepped
    exact reading_fit fit (fun _ _ => parseAndIndexState_reworked) done
  | repair projectId =>
    obtain ⟨report, done⟩ := discard_eq_ok.mp stepped
    simp only [repair, bind_eq_ok, ofExcept_eq_ok] at done
    obtain ⟨_, _, ⟨_, rfl⟩, done⟩ := done
    exact reading_fit fit (fun _ _ => repairState_reworked) done
  | rebuildIndex projectId =>
    obtain ⟨report, done⟩ := discard_eq_ok.mp stepped
    simp only [rebuildIndex, bind_eq_ok, ofExcept_eq_ok] at done
    obtain ⟨_, _, ⟨_, rfl⟩, done⟩ := done
    exact reading_fit fit (fun _ _ => repairState_reworked) done
  | restoreBundle bundle projectId =>
    obtain ⟨readback, done⟩ := discard_eq_ok.mp stepped
    exact restoreBundle_fit fit room done

end Steps

section Readability

variable {start finish : Catalog σ} {events : List (Event σ)}

/-- A new catalogue, in memory or over what its disk holds. -/
def Opened (environment : Environment σ) (start : Catalog σ) : Prop :=
  ∃ blobs : σ, start = withBlobStore blobs ∨
    ∃ disk : Disk, withPersistentFilesystem environment blobs disk = .ok start

/-- Every restore of the run meets a catalogue that has room for it. -/
def Roomy (environment : Environment σ) (events : List (Event σ)) (start : Catalog σ) : Prop :=
  ∀ (before : List (Event σ)) (event : Event σ) (catalog : Catalog σ),
    before ++ [event] <+: events → run environment before start = .ok () catalog →
      Room environment event catalog

theorem fit_empty {formats : JsonFormats} {limited : Prop} : Fit formats limited emptyState :=
  ⟨sound_empty, fun _ => by simp [emptyState]⟩

theorem opened_fit {limited : Prop} (opened : Opened environment start) :
    Fit environment.formats limited start.state := by
  obtain ⟨blobs, rfl | ⟨disk, loaded⟩⟩ := opened
  · exact fit_empty
  · rw [withPersistentFilesystem] at loaded
    cases file : disk.file with
    | none =>
      rw [file] at loaded
      cases loaded
      exact fit_empty
    | some bytes =>
      rw [file] at loaded
      dsimp only at loaded
      cases fault : disk.readFault with
      | some error =>
        rw [fault] at loaded
        cases loaded
      | none =>
        simp only [fault, Drain.bind_eq_ok] at loaded
        obtain ⟨state, restored, answer⟩ := loaded
        cases answer
        obtain ⟨sound, few⟩ := restoreCatalogState_ok restored
        exact ⟨sound, fun _ => few⟩

theorem run_append_ok {before after : List (Event σ)} :
    run environment (before ++ after) start = .ok () finish ↔
      ∃ middle, run environment before start = .ok () middle ∧
        run environment after middle = .ok () finish := forM_append_ok

theorem run_cons_ok {event : Event σ} : run environment (event :: events) start = .ok () finish ↔
    ∃ middle, step environment event start = .ok () middle ∧
      run environment events middle = .ok () finish := forM_cons_ok

theorem run_single_ok {event : Event σ} :
    run environment [event] start = .ok () finish ↔ step environment event start = .ok () finish := by
  rw [run, forM_cons_ok]
  constructor
  · intro ⟨middle, stepped, rest⟩
    cases forM_nil_ok.mp rest
    exact stepped
  · intro stepped
    exact ⟨finish, stepped, forM_nil_ok.mpr rfl⟩

theorem run_fit {limited : Prop} (opened : Opened environment start)
    (roomy : limited → Roomy environment events start)
    (ran : run environment events start = .ok () finish) :
    Fit environment.formats limited finish.state := by
  induction events using List.reverseRecOn generalizing finish with
  | nil =>
    cases forM_nil_ok.mp ran
    exact opened_fit opened
  | append_singleton before event ih =>
    obtain ⟨middle, ranBefore, stepped⟩ := run_append_ok.mp ran
    have earlier : limited → Roomy environment before start := fun asked front last catalog shorter =>
      roomy asked front last catalog (shorter.trans (List.prefix_append _ _))
    refine step_fit (ih earlier ranBefore) ?_ (run_single_ok.mp stepped)
    exact fun asked => roomy asked before event middle (List.prefix_refl _) ranBefore

theorem run_readable_iff (opened : Opened environment start)
    (ran : run environment events start = .ok () finish) :
    Readable environment.formats finish.state ↔
      finish.state.artifactRelationships.size ≤ maxArtifactRelationships :=
  readable_iff (run_fit opened (fun asked : False => asked.elim) ran).1

theorem step_room (few : final.state.artifactRelationships.size ≤ maxArtifactRelationships)
    {event : Event σ} (stepped : step environment event catalog = .ok () final) :
    Room environment event catalog := by
  cases event with
  | restoreBundle bundle projectId =>
    obtain ⟨readback, done⟩ := discard_eq_ok.mp stepped
    exact room_of_restored done few
  | _ => trivial

/-- The catalogue is readable in every state of a run exactly when every bundle that the run merges
finds room for its relationships. -/
theorem run_readable (opened : Opened environment start)
    (ran : run environment events start = .ok () finish) :
    (∀ (before : List (Event σ)) (catalog : Catalog σ), before <+: events →
      run environment before start = .ok () catalog →
        Readable environment.formats catalog.state) ↔ Roomy environment events start := by
  constructor
  · intro readable before event catalog shorter ranBefore
    obtain ⟨after, rfl⟩ := shorter
    obtain ⟨next, ranThrough, _⟩ := run_append_ok.mp ran
    obtain ⟨middle, ranFront, stepped⟩ := run_append_ok.mp ranThrough
    -- the run is deterministic, so it meets the event in this very state
    rw [ranBefore] at ranFront
    cases ranFront
    have readableAfter := readable (before ++ [event]) next (List.prefix_append _ _) ranThrough
    exact step_room ((run_readable_iff opened ranThrough).mp readableAfter) (run_single_ok.mp stepped)
  · intro roomy before catalog shorter ranBefore
    have earlier : Roomy environment before start := fun front event middle smaller =>
      roomy front event middle (smaller.trans shorter)
    rw [run_readable_iff opened ranBefore]
    exact (run_fit opened (fun _ : True => earlier) ranBefore).2 trivial

end Readability

section Overflow

def letters (number : ℕ) : List Char :=
  (List.range 17).map fun bit => if number.testBit bit then 'b' else 'a'

theorem letters_injOn {a b : ℕ} (small : a < 2 ^ 17) (small' : b < 2 ^ 17)
    (same : letters a = letters b) : a = b := by
  have apart : ∀ x y : Bool, (if x then 'b' else 'a') = (if y then 'b' else 'a') → x = y := by decide
  refine Nat.eq_of_testBit_eq fun bit => ?_
  by_cases low : bit < 17
  · exact apart _ _ (List.map_inj_left.mp same bit (List.mem_range.mpr low))
  · have high {n : ℕ} (fits : n < 2 ^ 17) : n.testBit bit = false :=
      Nat.testBit_lt_two_pow (fits.trans_le (Nat.pow_le_pow_right (by decide) (not_lt.mp low)))
    rw [high small, high small']

theorem mem_letters {number : ℕ} {c : Char} (member : c ∈ letters number) : c = 'a' ∨ c = 'b' := by
  obtain ⟨bit, _, rfl⟩ := List.mem_map.mp member
  split_ifs
  · exact .inr rfl
  · exact .inl rfl

/-- The empty notes of a project, cited under a number. -/
def citation (projectId : String) (number : ℕ) : ArtifactRelationshipInput where
  relationshipId := String.ofList (letters number)
  source := ⟨projectId, "sv_" ++ projectId ++ "_" ++ contentDigest [], contentDigest []⟩
  role := .inputSource
  scope := .project
  requirementKey := none
  producedBy := none
  rights := ⟨none, none, none⟩
  operationId := projectId ++ String.ofList (letters number)

theorem validArtifactKey_letters (number : ℕ) :
    validArtifactKey (String.ofList (letters number)) = true := by
  have size : (String.ofList (letters number)).utf8ByteSize = 17 := by
    rw [← length_utf8, utf8, String.toList_ofList, List.length_flatMap]
    have single : ∀ c ∈ letters number, (String.utf8EncodeChar c).length = 1 := by
      intro c member
      rcases mem_letters member with rfl | rfl
      all_goals rfl
    rw [List.map_congr_left single, List.map_const', List.sum_replicate, letters, List.length_map,
      List.length_range]
    rfl
  have written : String.ofList (letters number) ≠ "" := by
    intro empty
    rw [empty] at size
    exact absurd size (by decide)
  have lower : (letters number).all (fun c =>
      isAsciiLowercase c || c.isDigit || c = '_' || c = '-' || c = '.') = true := by
    rw [List.all_eq_true]
    intro c member
    rcases mem_letters member with rfl | rfl
    all_goals decide
  have head : (letters number).head?.any isAsciiLowercase = true := by
    change isAsciiLowercase (if number.testBit 0 then 'b' else 'a') = true
    split_ifs
    all_goals decide
  simp only [validArtifactKey, String.toList_ofList, lower, head, size]
  simpa using written

theorem citation_valid {projectId : String} (number : ℕ)
    (project : validateProjectId projectId = .ok ()) (visible : isBlank projectId = false)
    (plain : hasNul projectId = false)
    (segment : validArtifactSegment (citation projectId 0).source.sourceVersionId = true) :
    validateArtifactRelationship (citation projectId number) = .ok () := by
  have address : (digestHex (contentDigest [])).isNone = false := by
    rw [digestHex_contentDigest]
    rfl
  have operation : validateOperationId (projectId ++ String.ofList (letters number)) = .ok () := by
    rw [validateOperationId, if_neg]
    rw [not_or, isBlank, hasNul, String.toList_append, String.toList_ofList, List.all_append]
    refine ⟨by rw [← isBlank, visible, Bool.false_and]; decide, ?_⟩
    rw [List.contains_iff_mem, List.mem_append]
    rintro (inside | inside)
    · exact Bool.eq_false_iff.mp plain (List.contains_iff_mem.mpr inside)
    · rcases mem_letters inside with null | null
      all_goals exact absurd null (by decide)
  change validArtifactSegment (citation projectId number).source.sourceVersionId = true at segment
  simp only [validateArtifactRelationship, Drain.bind_eq_ok, Drain.refuse_eq_ok]
  refine ⟨(), project, (), ?_, (), operation, (), by simp [citation, validProducer,
    ArtifactRole.requiresProducer], by simp [citation]⟩
  rw [segment]
  simp [citation, address, validArtifactKey_letters]

def notes (projectId : String) : SourceVersion := newVersion projectId "notes.txt" [] "text/plain"

variable {formats : JsonFormats} {alphabet : Alphabet}

def notesBlobs : Std.ExtTreeMap String (List UInt8) := (∅ : Std.ExtTreeMap _ _).insert (contentDigest []) []

theorem notesBlobs_contentDigest : notesBlobs[contentDigest []]? = some [] := getElem?_insert_self _ _ _

def inMemory (formats : JsonFormats) (alphabet : Alphabet) :
    Environment (Std.ExtTreeMap String (List UInt8)) := ⟨memoryBlobStore, formats, alphabet⟩

theorem capture_notes : step (inMemory formats alphabet) (.capture "atlas" "notes.txt" [] "text/plain")
    (withBlobStore ∅) = .ok () ⟨notesBlobs, insertVersion emptyState (notes "atlas"), none⟩ := by
  refine discard_eq_ok.mpr ⟨notes "atlas", transact_memory (captureVersion_fresh ?_ ?_ ?_ ?_ ?_)⟩
  · decide
  · decide
  · decide
  · exact Std.ExtTreeMap.getElem?_empty
  · refine memoryBlobStore_put ?_
    intro existing present
    rw [Std.ExtTreeMap.getElem?_empty] at present
    cases present

theorem read_notes : (inMemory formats alphabet).store.readVerified notesBlobs (contentDigest [])
    ([] : List UInt8).length = .ok [] := by
  have stored := memoryBlobStore_readVerified notesBlobs_contentDigest
  rw [inMemory]
  dsimp only
  exact stored

/-- As many citations as the catalogue allows. -/
def citations : List ArtifactRelationshipInput :=
  (List.range maxArtifactRelationships).map (citation "atlas")

theorem length_citations : citations.length = maxArtifactRelationships := by
  rw [citations, List.length_map, List.length_range]

theorem citations_recordable : Recordable (inMemory formats alphabet) notesBlobs
    (insertVersion emptyState (notes "atlas")) citations where
  valid := by
    intro input member
    obtain ⟨number, _, rfl⟩ := List.mem_map.mp member
    exact citation_valid number (by decide) (by decide) (by decide) (by decide +kernel)
  readable := by
    intro input member
    obtain ⟨number, _, rfl⟩ := List.mem_map.mp member
    exact readIdentity_captured (by decide) (Nat.zero_le _) (getElem?_insert_self _ _ _) read_notes
  operations := fun _ _ => Std.ExtTreeMap.getElem?_empty
  keys := fun _ _ => Std.ExtTreeMap.getElem?_empty
  distinctOperations := by
    rw [citations, List.map_map]
    refine List.Nodup.map_on ?_ List.nodup_range
    intro a small b small' same
    have texts : "atlas".toList ++ letters a = "atlas".toList ++ letters b := by
      simpa only [Function.comp_apply, citation, String.toList_append, String.toList_ofList] using
        congrArg String.toList same
    exact letters_injOn ((List.mem_range.mp small).trans (by decide))
      ((List.mem_range.mp small').trans (by decide)) (List.append_cancel_left texts)
  distinctKeys := by
    rw [citations, List.map_map]
    refine List.Nodup.map_on ?_ List.nodup_range
    intro a small b small' same
    have texts : String.ofList (letters a) = String.ofList (letters b) :=
      congrArg (fun key : RowKey => (ofLex key).2) same
    exact letters_injOn ((List.mem_range.mp small).trans (by decide))
      ((List.mem_range.mp small').trans (by decide)) (String.ofList_injective texts)
  room := by
    have none : (insertVersion emptyState (notes "atlas")).artifactRelationships.size = 0 :=
      Std.ExtTreeMap.size_empty
    rw [none, Nat.zero_add, length_citations]

theorem unpopulated_of_recorded {next : CatalogState}
    (recorded : Recorded citations (insertVersion emptyState (notes "atlas")) next) :
    projectScopeIsPopulated (projectState next "borealis") = false := by
  have foreign : ∀ input ∈ citations, input.source.projectId = "atlas" := by
    intro input member
    obtain ⟨number, _, rfl⟩ := List.mem_map.mp member
    rfl
  simp only [projectScopeIsPopulated, projectState, Bool.or_eq_false_iff, Bool.not_eq_false']
  refine ⟨⟨⟨⟨⟨isEmpty_filter ?_, isEmpty_filter ?_⟩, isEmpty_filter ?_⟩, isEmpty_filter ?_⟩,
    isEmpty_filter ?_⟩, isEmpty_filter ?_⟩
  · intro key version present
    rw [recorded.versions] at present
    change ((∅ : Std.ExtTreeMap RowKey SourceVersion).insert (notes "atlas").key _)[key]? = _ at present
    rw [getElem?_insert, Std.ExtTreeMap.getElem?_empty] at present
    split_ifs at present with same
    rw [← same]
    exact decide_eq_false (by decide)
  · intro key row present
    rcases recorded.relationships key row present with old | ⟨input, member, rfl⟩
    · exact absurd old (by simp [insertVersion, emptyState])
    · refine decide_eq_false ?_
      change input.source.projectId ≠ "borealis"
      rw [foreign input member]
      decide
  · intro key row present
    rw [recorded.parseRecords] at present
    exact absurd present (by simp [insertVersion, emptyState])
  · intro key row present
    rw [recorded.indexes] at present
    exact absurd present (by simp [insertVersion, emptyState])
  · intro key row present
    rw [recorded.captures] at present
    exact absurd present (by simp [insertVersion, emptyState])
  · intro operationId record present
    rcases recorded.operations operationId record present with old | ⟨input, member, _, own⟩
    · exact absurd old (by simp [insertVersion, emptyState])
    · refine decide_eq_false ?_
      rw [own, foreign input member]
      decide

def cited (environment : Environment σ) : CatalogState :=
  (insertRelationship environment (insertVersion emptyState (notes "borealis"))
    (citation "borealis" 0)).2

theorem citation_borealis_valid : validateArtifactRelationship (citation "borealis" 0) = .ok () :=
  citation_valid 0 (by decide) (by decide) (by decide) (by decide +kernel)

theorem cited_sound : Sound environment.formats (cited environment) := by
  have captured : Sound environment.formats (insertVersion emptyState (notes "borealis")) := by
    refine sound_empty.reworked (Reworked.of_rows (@reworked_insert emptyState (notes "borealis") ?_))
    intro old present
    exact absurd present (by simp [emptyState])
  exact insertRelationship_sound captured citation_borealis_valid
    ⟨notes "borealis", getElem?_insert_self _ _ _, rfl⟩ Std.ExtTreeMap.getElem?_empty

theorem cited_size : (cited environment).artifactRelationships.size = 1 :=
  (size_insert_fresh Std.ExtTreeMap.getElem?_empty).trans
    (congrArg (· + 1) Std.ExtTreeMap.size_empty)

theorem rows_cited_versions : rows (cited environment).versions = [notes "borealis"] := rows_single _ _

theorem cited_valid : validateBundleProjectState (cited environment) "borealis" = .ok () := by
  rw [validateBundleProjectState, if_pos]
  refine ⟨?_, ?_, ?_, ?_, ?_, ?_⟩
  · rw [rows_cited_versions]
    decide +kernel
  · rw [show rows (cited environment).artifactRelationships = [_] from rows_single _ _]
    rfl
  · rw [show (cited environment).parseRecords = ∅ from rfl]
    simp
  · rw [show (cited environment).indexes = ∅ from rfl]
    simp
  · rw [show rows (cited environment).captureOperations = [] from
      List.length_eq_zero_iff.mp (by simp [cited, insertRelationship, insertVersion, emptyState])]
    rfl
  · rw [show rows (cited environment).artifactOperations = [_] from rows_single _ _]
    rfl

def notesBlob : SourceBundleBlob := ⟨contentDigest [], []⟩

theorem cited_complete : validateBundleBlobs (cited environment) [notesBlob] = .ok () := by
  have expected : expectedBlobs (cited environment) =
      (∅ : Std.ExtTreeMap String ℕ).insert (contentDigest []) 0 := by
    rw [expectedBlobs, rows_cited_versions]
    rfl
  have single : ((∅ : Std.ExtTreeMap String ℕ).insert (contentDigest []) 0).size = 1 :=
    (size_insert_fresh Std.ExtTreeMap.getElem?_empty).trans
      (congrArg (· + 1) Std.ExtTreeMap.size_empty)
  rw [validateBundleBlobs, expected, single, if_neg (by simp), if_pos]
  simp [notesBlob]

theorem notesBlob_addressed : Addressed [notesBlob] :=
  ⟨fun blob member => by rw [List.mem_singleton.mp member]; rfl, List.pairwise_singleton _ _⟩

/-- The bundle of the other project, or nothing where its metadata is too long. -/
def citedBundle (environment : Environment σ) : SourceCatalogBundle :=
  ⟨sourceBundleFormatV1, "borealis", (encodeSourceBundle
    (environment.formats.metadata.toVec (bundleMetadata "borealis" (cited environment)))
    [notesBlob]).toOption.getD []⟩

theorem encode_notes {metadata : List UInt8} (fits : metadata.length ≤ maxSourceBundleMetadataBytes) :
    ∃ bytes, encodeSourceBundle metadata [notesBlob] = .ok bytes := by
  have size : notesBlob.digest.utf8ByteSize = 71 := by
    rw [← length_utf8]
    exact length_utf8_contentDigest []
  rw [encodeSourceBundle, if_neg]
  · rw [encodeBlobs, if_neg (by rw [size]; decide)]
    dsimp only
    rw [if_neg]
    · exact ⟨_, rfl⟩
    · rw [maxSourceBundleMetadataBytes] at fits
      have magic : sourceBundleMagic.length = 24 := by decide
      have empty : notesBlob.bytes.length = 0 := rfl
      have address := length_utf8_contentDigest metadata
      rw [length_utf8] at address
      simp only [List.length_append, length_beBytes, length_utf8, address, size, magic, empty,
        maxSourceBundleBytes]
      omega
  · simpa using fits

theorem import_cited (fits : ((inMemory formats alphabet).formats.metadata.toVec
      (bundleMetadata "borealis" (cited (inMemory formats alphabet)))).length ≤
        maxSourceBundleMetadataBytes) :
    importBundle (inMemory formats alphabet) (citedBundle (inMemory formats alphabet)) "borealis" =
      .ok (cited (inMemory formats alphabet), [notesBlob], 0) := by
  obtain ⟨bytes, encoded⟩ := encode_notes fits
  rw [citedBundle, encoded]
  refine importBundle_encoded (by decide) cited_sound ?_ rfl cited_valid cited_complete
    notesBlob_addressed (by decide) encoded
  rw [cited_size]
  decide

/-- Everything the first project may cite, and then the bundle of the other. -/
def overfilling (environment : Environment (Std.ExtTreeMap String (List UInt8))) :
    List (Event (Std.ExtTreeMap String (List UInt8))) :=
  .capture "atlas" "notes.txt" [] "text/plain" ::
    (citations.map .recordArtifactRelationship ++
      [.restoreBundle (citedBundle environment) "borealis"])

theorem cited_operations_fresh {next : CatalogState}
    (recorded : Recorded citations (insertVersion emptyState (notes "atlas")) next) :
    ∀ operationId ∈ (cited environment).artifactOperations, operationId ∉ next.artifactOperations := by
  intro operationId member taken
  obtain ⟨_, present⟩ := mem_iff.mp member
  obtain ⟨record, found⟩ := mem_iff.mp taken
  change ((∅ : Std.ExtTreeMap String ArtifactOperationRecord).insert
    (citation "borealis" 0).operationId _)[operationId]? = _ at present
  rw [getElem?_insert, Std.ExtTreeMap.getElem?_empty] at present
  split_ifs at present with own
  rcases recorded.operations operationId record found with old | ⟨input, member, named, _⟩
  · exact absurd old (by simp [insertVersion, emptyState])
  · obtain ⟨number, _, rfl⟩ := List.mem_map.mp member
    -- the two projects begin with different letters
    have heads := congrArg (fun text : String => text.toList.head?) (named.trans own.symm)
    simp only [citation, String.toList_append] at heads
    exact absurd heads (by simp)

theorem run_overfilling (fits : (formats.metadata.toVec
      (bundleMetadata "borealis" (cited (inMemory formats alphabet)))).length ≤
        maxSourceBundleMetadataBytes) :
    ∃ finish, run (inMemory formats alphabet) (overfilling (inMemory formats alphabet))
        (withBlobStore ∅) = .ok () finish ∧ ¬Readable formats finish.state := by
  obtain ⟨next, filled, recorded⟩ := run_records (@citations_recordable formats alphabet)
  have unpopulated := unpopulated_of_recorded recorded
  have put : ([notesBlob].forM fun blob =>
      (inMemory formats alphabet).store.put blob.digest blob.bytes) notesBlobs =
        .ok () (notesBlobs.insert (contentDigest []) []) := by
    refine forM_cons_ok.mpr ⟨_, memoryBlobStore_put ?_, forM_nil_ok.mpr rfl⟩
    intro existing present
    rw [notesBlobs_contentDigest] at present
    cases present
    rfl
  have operations := @cited_operations_fresh _ (inMemory formats alphabet) _ recorded
  have captures : ∀ operationId ∈ (cited (inMemory formats alphabet)).captureOperations,
      operationId ∉ next.captureOperations :=
    fun _ member => absurd member Std.ExtTreeMap.not_mem_empty
  have merged := @restoreImported_fresh _ (inMemory formats alphabet) _ _ _ _ _ _ 0 unpopulated
    captures operations put
  have stepped : step (inMemory formats alphabet)
      (.restoreBundle (citedBundle (inMemory formats alphabet)) "borealis") ⟨notesBlobs, next, none⟩ =
        .ok () ⟨notesBlobs.insert (contentDigest []) [],
          mergeProjectState next (cited (inMemory formats alphabet)), none⟩ := by
    refine discard_eq_ok.mpr
      ⟨bundleReadback "borealis" (cited (inMemory formats alphabet)) [notesBlob].length 0 false, ?_⟩
    simp only [restoreBundle, bind_eq_ok, ofExcept_eq_ok]
    exact ⟨_, _, ⟨import_cited fits, rfl⟩, transact_memory merged⟩
  have rest := run_append_ok.mpr ⟨_, filled, run_single_ok.mpr stepped⟩
  have ran : run (inMemory formats alphabet) (overfilling (inMemory formats alphabet))
      (withBlobStore ∅) = .ok () ⟨notesBlobs.insert (contentDigest []) [],
        mergeProjectState next (cited (inMemory formats alphabet)), none⟩ :=
    run_cons_ok.mpr ⟨_, capture_notes, rest⟩
  have opened : Opened (inMemory formats alphabet) (withBlobStore ∅) := ⟨∅, .inl rfl⟩
  refine ⟨_, ran, ?_⟩
  refine (run_readable_iff opened ran).not.mpr ?_
  have apart : Apart next (cited (inMemory formats alphabet)) :=
    apart_of_unpopulated unpopulated (validateBundleProjectState_ok cited_sound cited_valid) (by
      rw [List.any_eq_true]
      intro ⟨operationId, member, taken⟩
      exact operations operationId (Std.ExtTreeMap.mem_keys.mp member)
        (Std.ExtTreeMap.contains_iff_mem.mp taken))
  dsimp only
  rw [mergeProjectState_size apart, cited_size, recorded.size, length_citations]
  omega

def favouringFormats (favourite : SourceBundleMetadata) : JsonFormats where
  state := Format.favouring (persistedState emptyState)
  metadata := Format.favouring favourite
  relationship := Format.favouring (citation "borealis" 0)

def plainAlphabet : Alphabet := ⟨Char.isAlphanum, fun c => [c.toLower]⟩

def citedMetadata : SourceBundleMetadata := bundleMetadata "borealis" <| cited <|
  inMemory (favouringFormats (bundleMetadata "borealis" emptyState)) plainAlphabet

def plainFormats : JsonFormats := favouringFormats citedMetadata

theorem cited_favouring (favourite favourite' : SourceBundleMetadata) :
    cited (inMemory (favouringFormats favourite) alphabet) =
      cited (inMemory (favouringFormats favourite') alphabet) := by
  simp only [cited, insertRelationship, artifactRelationshipDigest, inMemory, favouringFormats]

theorem cited_short : (plainFormats.metadata.toVec (bundleMetadata "borealis"
    (cited (inMemory plainFormats plainAlphabet)))).length ≤ maxSourceBundleMetadataBytes := by
  have favourite : bundleMetadata "borealis" (cited (inMemory plainFormats plainAlphabet)) =
      citedMetadata := congrArg (bundleMetadata "borealis") (cited_favouring _ _)
  have short : plainFormats.metadata.toVec citedMetadata = [] := by
    rw [plainFormats, favouringFormats]
    exact Format.favouring_toVec citedMetadata
  rw [favourite, short]
  exact Nat.zero_le _

theorem run_unreadable : ∃ finish, run (inMemory plainFormats plainAlphabet)
    (overfilling (inMemory plainFormats plainAlphabet)) (withBlobStore ∅) = .ok () finish ∧
      ¬Readable plainFormats finish.state := run_overfilling cited_short

theorem run_readable_capture :
    (∀ (before : List (Event _)) (catalog : Catalog _),
      before <+: [.capture "atlas" "notes.txt" [] "text/plain"] →
        run (inMemory plainFormats plainAlphabet) before (withBlobStore ∅) = .ok () catalog →
          Readable plainFormats catalog.state) ↔
      Roomy (inMemory plainFormats plainAlphabet) [.capture "atlas" "notes.txt" [] "text/plain"]
        (withBlobStore ∅) :=
  run_readable ⟨∅, .inl rfl⟩ (run_single_ok.mpr capture_notes)

end Overflow

end Boreal.Source
