/- What a transaction of the catalogue can come to, and what it leaves of the snapshot and of the
memory in each case. -/
import BorealWork.SourceRuns

namespace Boreal.Source
open Transactions

variable {σ : Type} {environment : Environment σ} {catalog final : Catalog σ}

section Outcomes

def Catalog.file (catalog : Catalog σ) : Option (List UInt8) := catalog.disk.bind (·.file)

/-- The metadata of a catalogue is its snapshot, and its memory while there is none. -/
def metadata (environment : Environment σ) (catalog : Catalog σ) : Except SourceError CatalogState :=
  match catalog.file with
  | none => .ok catalog.state
  | some bytes => restoreCatalogState environment.formats bytes

def snapshot (environment : Environment σ) (state : CatalogState) : List UInt8 :=
  environment.formats.state.toVec (persistedState state)

variable {α : Type}

/-- Every way in which a transaction ends. -/
inductive Transacted (environment : Environment σ)
    (body : CatalogState → EStateM SourceError σ (α × Option CatalogState)) (catalog : Catalog σ) :
    EStateM.Result SourceError (Catalog σ) α → Prop
  | locked (error : SourceError) (lock : acquirePersistentLock catalog.disk = .error error) :
      Transacted environment body catalog (.error error catalog)
  | unread (error : SourceError) (lock : acquirePersistentLock catalog.disk = .ok ())
      (reload : reloadPersistentState environment catalog = .error error) :
      Transacted environment body catalog (.error error catalog)
  | failed (error : SourceError) (state : CatalogState) (blobs : σ)
      (lock : acquirePersistentLock catalog.disk = .ok ())
      (reload : reloadPersistentState environment catalog = .ok state)
      (ran : body state catalog.blobs = .error error blobs) :
      Transacted environment body catalog (.error error ⟨blobs, state, catalog.disk⟩)
  | answered (value : α) (state : CatalogState) (blobs : σ)
      (lock : acquirePersistentLock catalog.disk = .ok ())
      (reload : reloadPersistentState environment catalog = .ok state)
      (ran : body state catalog.blobs = .ok (value, none) blobs) :
      Transacted environment body catalog (.ok value ⟨blobs, state, catalog.disk⟩)
  | changed (value : α) (state next : CatalogState) (blobs : σ)
      (lock : acquirePersistentLock catalog.disk = .ok ())
      (reload : reloadPersistentState environment catalog = .ok state)
      (ran : body state catalog.blobs = .ok (value, some next) blobs)
      (written : ∀ disk ∈ catalog.disk, disk.writeOutcome = .written) :
      Transacted environment body catalog (.ok value
        ⟨blobs, next, catalog.disk.map ({ · with file := some (snapshot environment next) })⟩)
  | refused (error : SourceError) (value : α) (state next : CatalogState) (blobs : σ) (disk : Disk)
      (lock : acquirePersistentLock catalog.disk = .ok ())
      (reload : reloadPersistentState environment catalog = .ok state)
      (ran : body state catalog.blobs = .ok (value, some next) blobs)
      (present : catalog.disk = some disk) (outcome : disk.writeOutcome = .refused error) :
      Transacted environment body catalog (.error error ⟨blobs, state, catalog.disk⟩)
  | unsynced (error : SourceError) (value : α) (state next : CatalogState) (blobs : σ) (disk : Disk)
      (lock : acquirePersistentLock catalog.disk = .ok ())
      (reload : reloadPersistentState environment catalog = .ok state)
      (ran : body state catalog.blobs = .ok (value, some next) blobs)
      (present : catalog.disk = some disk) (outcome : disk.writeOutcome = .unsynced error) :
      Transacted environment body catalog (.error error
        ⟨blobs, state, some { disk with file := some (snapshot environment next) }⟩)

theorem transact_cases (environment : Environment σ)
    (body : CatalogState → EStateM SourceError σ (α × Option CatalogState)) (catalog : Catalog σ) :
    Transacted environment body catalog (transact environment body catalog) := by
  rw [transact]
  cases lock : acquirePersistentLock catalog.disk with
  | error error => exact .locked error lock
  | ok _ =>
    cases reload : reloadPersistentState environment catalog with
    | error error => exact .unread error lock reload
    | ok state =>
      dsimp only
      cases ran : body state catalog.blobs with
      | error error blobs => exact .failed error state blobs lock reload ran
      | ok answer blobs =>
        obtain ⟨value, change⟩ := answer
        cases change with
        | none => exact .answered value state blobs lock reload ran
        | some next =>
          dsimp only
          cases present : catalog.disk with
          | none =>
            have changed := Transacted.changed value state next blobs lock reload ran
              (by simp [present])
            rwa [present] at changed
          | some disk =>
            obtain ⟨file, lockFault, readFault, outcome⟩ := disk
            cases outcome with
            | written =>
              have changed := Transacted.changed value state next blobs lock reload ran
                (by simp [present])
              rwa [present] at changed
            | refused error =>
              have refused := Transacted.refused error value state next blobs _ lock
                reload ran present rfl
              rwa [present] at refused
            | unsynced error =>
              exact .unsynced error value state next blobs _ lock reload ran present rfl

end Outcomes

section Failures

variable {state : CatalogState}

theorem metadata_reloaded (reload : reloadPersistentState environment catalog = .ok state) :
    metadata environment catalog = .ok state := by
  unfold reloadPersistentState at reload
  unfold metadata Catalog.file
  cases present : catalog.disk.bind (·.file) with
  | none =>
    rw [present] at reload
    exact reload
  | some bytes =>
    rw [present] at reload
    dsimp only at reload ⊢
    cases fault : catalog.disk.bind (·.readFault) with
    | none =>
      rw [fault] at reload
      exact reload
    | some error =>
      rw [fault] at reload
      cases reload

theorem reload_metadata (readable : catalog.disk.bind (·.readFault) = none)
    (known : metadata environment catalog = .ok state) :
    reloadPersistentState environment catalog = .ok state := by
  unfold metadata Catalog.file at known
  unfold reloadPersistentState
  cases present : catalog.disk.bind (·.file) with
  | none =>
    rw [present] at known
    exact known
  | some bytes =>
    rw [present] at known
    rw [readable]
    exact known

/-- The snapshot is the same, and the memory has changed at most to what the snapshot says. -/
def Untouched (environment : Environment σ) (catalog final : Catalog σ) : Prop :=
  final.file = catalog.file ∧
    (final.state = catalog.state ∨ metadata environment catalog = .ok final.state)

theorem Untouched.metadata (untouched : Untouched environment catalog final) :
    metadata environment final = metadata environment catalog := by
  obtain ⟨file, state⟩ := untouched
  cases present : catalog.file with
  | none =>
    have memory : final.state = catalog.state := by
      rcases state with same | known
      · exact same
      · rw [Source.metadata, present] at known
        exact (Except.ok.inj known).symm
    rw [Source.metadata, Source.metadata, file, present]
    exact congrArg Except.ok memory
  | some bytes => rw [Source.metadata, Source.metadata, file, present]

theorem untouched_reloaded {blobs : σ} (reload : reloadPersistentState environment catalog = .ok state) :
    Untouched environment catalog ⟨blobs, state, catalog.disk⟩ :=
  ⟨rfl, .inr (metadata_reloaded reload)⟩

/-- The write of a catalogue does not end between its rename and the synchronisation behind it. -/
def Synced (catalog : Catalog σ) : Prop :=
  ∀ disk ∈ catalog.disk, ∀ error : SourceError, disk.writeOutcome ≠ .unsynced error

theorem transact_untouched {α : Type} {error : SourceError}
    {body : CatalogState → EStateM SourceError σ (α × Option CatalogState)} (synced : Synced catalog)
    (failed : transact environment body catalog = .error error final) :
    Untouched environment catalog final := by
  have outcome := transact_cases environment body catalog
  rw [failed] at outcome
  cases outcome with
  | locked _ lock => exact ⟨rfl, .inl rfl⟩
  | unread _ lock reload => exact ⟨rfl, .inl rfl⟩
  | failed _ state blobs lock reload ran => exact untouched_reloaded reload
  | refused _ value state next blobs disk lock reload ran present outcome =>
    exact untouched_reloaded reload
  | unsynced _ value state next blobs disk lock reload ran present outcome =>
    exact absurd outcome (synced disk present error)

theorem metadata_snapshot {next : CatalogState} {blobs : σ} {disk : Disk} :
    metadata environment ⟨blobs, state, some { disk with file := some (snapshot environment next) }⟩ =
      restoreCatalogState environment.formats (snapshot environment next) := rfl

theorem transact_unsynced {α : Type} {value : α} {next : CatalogState} {blobs : σ} {disk : Disk}
    {error : SourceError} {body : CatalogState → EStateM SourceError σ (α × Option CatalogState)}
    (present : catalog.disk = some disk) (lock : disk.lockFault = none)
    (reload : reloadPersistentState environment catalog = .ok state)
    (ran : body state catalog.blobs = .ok (value, some next) blobs)
    (outcome : disk.writeOutcome = .unsynced error) :
    transact environment body catalog = .error error
      ⟨blobs, state, some { disk with file := some (snapshot environment next) }⟩ := by
  obtain ⟨file, lockFault, readFault, writeOutcome⟩ := disk
  cases lock
  cases outcome
  simp only [transact, present, reload, ran]
  rfl

end Failures

section Holding

variable {P : CatalogState → Prop}

/-- What holds of the memory and of every state that can be read from the disk. -/
def Holds (environment : Environment σ) (P : CatalogState → Prop) (catalog : Catalog σ) : Prop :=
  P catalog.state ∧ ∀ state, metadata environment catalog = .ok state → P state

/-- The catalogue after a call, whether it answered or failed. -/
def finalState {α : Type} : EStateM.Result SourceError (Catalog σ) α → Catalog σ
  | .ok _ final => final
  | .error _ final => final

theorem restored_snapshot {state next : CatalogState} (sound : Sound environment.formats next) :
    restoreCatalogState environment.formats (snapshot environment next) = .ok state ↔
      next = state ∧ Readable environment.formats state := by
  constructor
  · intro restored
    have few : next.artifactRelationships.size ≤ maxArtifactRelationships := by
      rw [snapshot, restoreCatalogState, environment.formats.state.fromSlice_toVec] at restored
      obtain ⟨_, size, few⟩ := restoreRows_ok restored
      rwa [size, persistedState, (Sorting.sortOn_perm _ _).length_eq, Tables.length_rows] at few
    have readable : Readable environment.formats next := (readable_iff sound).mpr few
    have same : next = state := Except.ok.inj (readable.symm.trans restored)
    exact ⟨same, same ▸ readable⟩
  · rintro ⟨rfl, readable⟩
    exact readable

theorem Untouched.holds (untouched : Untouched environment catalog final)
    (holds : Holds environment P catalog) : Holds environment P final := by
  refine ⟨?_, fun state known => holds.2 state (untouched.metadata ▸ known)⟩
  rcases untouched.2 with same | known
  · exact same ▸ holds.1
  · exact holds.2 _ known

theorem transact_holds {α : Type} {body : CatalogState → EStateM SourceError σ (α × Option CatalogState)}
    (holds : Holds environment P catalog) (sound : ∀ state, P state → Sound environment.formats state)
    (kept : ∀ value state next blobs, P state → body state catalog.blobs = .ok (value, some next) blobs →
      P next) : Holds environment P (finalState (transact environment body catalog)) := by
  have outcome := transact_cases environment body catalog
  generalize ended : transact environment body catalog = result at outcome
  cases outcome with
  | locked error lock => exact holds
  | unread error lock reload => exact holds
  | failed error state blobs lock reload ran => exact (untouched_reloaded reload).holds holds
  | answered value state blobs lock reload ran => exact (untouched_reloaded reload).holds holds
  | changed value state next blobs lock reload ran written =>
    have after := kept value state next blobs (holds.2 state (metadata_reloaded reload)) ran
    refine ⟨after, ?_⟩
    intro state' known
    unfold metadata Catalog.file at known
    cases present : catalog.disk with
    | none =>
      simp only [finalState, present] at known
      cases known
      exact after
    | some disk =>
      simp only [finalState, present] at known
      obtain ⟨rfl, _⟩ := (restored_snapshot (sound next after)).mp known
      exact after
  | refused error value state next blobs disk lock reload ran present outcome =>
    exact (untouched_reloaded reload).holds holds
  | unsynced error value state next blobs disk lock reload ran present outcome =>
    have before := holds.2 state (metadata_reloaded reload)
    have after := kept value state next blobs before ran
    refine ⟨before, ?_⟩
    intro state' known
    obtain ⟨rfl, _⟩ := (restored_snapshot (sound next after)).mp known
    exact after

end Holding

section Reaching

variable {P : CatalogState → Prop} {Q : σ → Prop} {start : Catalog σ} {events : List (Event σ)}

/-- What the change of every call keeps, over the blobs that it may meet. -/
structure Preserved (environment : Environment σ) (Q : σ → Prop) (P : CatalogState → Prop) : Prop where
  sound : ∀ state, P state → Sound environment.formats state
  capture : ∀ {state next projectId origin mediaType bytes version blobs blobs'}, P state →
    captureVersion environment state projectId origin bytes mediaType blobs =
      .ok (version, some next) blobs' → P next
  captureOperation : ∀ {state next request receipt blobs blobs'}, P state →
    captureOperation environment state request blobs = .ok (receipt, some next) blobs' → P next
  record : ∀ {state next input receipt blobs}, P state → validateArtifactRelationship input = .ok () →
    recordRelationship environment state blobs input = .ok (receipt, some next) → P next
  updateParser : ∀ {state next version updated parser inputVersionId}, P state →
    updateParser state version parser inputVersionId = .ok (updated, next) → P next
  parse : ∀ {state next version parser limits report blobs}, Q blobs → P state →
    parseAndIndexState environment state blobs version parser limits = .ok (report, next) → P next
  repair : ∀ {state next projectId reset report blobs}, Q blobs → P state →
    repairState environment projectId blobs reset state = .ok (report, next) → P next
  restore : ∀ {state next imported bundle packed total projectId readback blobs blobs'}, P state →
    importBundle environment bundle projectId = .ok (imported, packed, total) →
    restoreImported environment state imported packed total projectId blobs =
      .ok (readback, some next) blobs' → P next

def advance (environment : Environment σ) (catalog : Catalog σ) (event : Event σ) : Catalog σ :=
  finalState (step environment event catalog)

theorem finalState_discard {α : Type} (op : EStateM SourceError (Catalog σ) α) :
    finalState ((discard op : EStateM SourceError (Catalog σ) PUnit) catalog) =
      finalState (op catalog) := by
  change finalState (EStateM.map (fun _ => PUnit.unit) op catalog) = _
  rw [EStateM.map]
  cases op catalog with
  | ok a final => rfl
  | error error final => rfl

theorem finalState_checked {α β : Type} (check : Except SourceError α)
    (op : α → EStateM SourceError (Catalog σ) β) :
    finalState ((MonadExcept.ofExcept check >>= op) catalog) =
      match check with
      | .ok a => finalState (op a catalog)
      | .error _ => catalog := by
  cases check with
  | ok a => rw [bind_of_ok (ofExcept_eq_ok.mpr ⟨rfl, rfl⟩)]
  | error error => rw [bind_of_error (ofExcept_error error catalog)]; rfl

theorem reading_holds {α : Type} {body : σ → CatalogState → Except SourceError (α × CatalogState)}
    (holds : Holds environment P catalog) (sound : ∀ state, P state → Sound environment.formats state)
    (kept : ∀ value state next, P state → body catalog.blobs state = .ok (value, next) → P next) :
    Holds environment P (finalState (transact environment (reading body) catalog)) := by
  refine transact_holds holds sound ?_
  intro value state next blobs before ran
  obtain ⟨_, changed, same⟩ := reading_ok ran
  cases same
  exact kept value state _ before changed

theorem advance_holds (preserved : Preserved environment Q P) (served : Q catalog.blobs)
    (holds : Holds environment P catalog) {event : Event σ}
    (undisturbed : ∀ blobs disk, event = .outside blobs disk →
      Holds environment P (advance environment catalog event)) :
    Holds environment P (advance environment catalog event) := by
  cases event with
  | outside blobs disk => exact undisturbed blobs disk rfl
  | capture projectId origin bytes mediaType =>
    rw [advance, step, finalState_discard]
    exact transact_holds holds preserved.sound fun _ _ _ _ before => preserved.capture before
  | captureWithOperation request =>
    rw [advance, step, finalState_discard]
    exact transact_holds holds preserved.sound fun _ _ _ _ before =>
      preserved.captureOperation before
  | recordArtifactRelationship input =>
    rw [advance, step, finalState_discard, recordArtifactRelationship, finalState_checked]
    cases valid : validateArtifactRelationship input with
    | error error => exact holds
    | ok _ =>
      refine transact_holds holds preserved.sound ?_
      intro value state next blobs before ran
      simp only [bind_eq_ok, get_eq_ok, ofExcept_eq_ok] at ran
      obtain ⟨_, _, ⟨rfl, rfl⟩, recorded, _⟩ := ran
      exact preserved.record before valid recorded
  | recordParser version parser inputVersionId =>
    rw [advance, step, finalState_discard]
    exact reading_holds holds preserved.sound fun _ _ _ before => preserved.updateParser before
  | parseAndIndex version parser limits =>
    rw [advance, step, finalState_discard]
    exact reading_holds holds preserved.sound fun _ _ _ before => preserved.parse served before
  | repair projectId =>
    rw [advance, step, finalState_discard, repair, finalState_checked]
    cases validateOptionalProject projectId with
    | error error => exact holds
    | ok _ =>
      exact reading_holds holds preserved.sound fun _ _ _ before => preserved.repair served before
  | rebuildIndex projectId =>
    rw [advance, step, finalState_discard, rebuildIndex, finalState_checked]
    cases validateOptionalProject projectId with
    | error error => exact holds
    | ok _ =>
      exact reading_holds holds preserved.sound fun _ _ _ before => preserved.repair served before
  | restoreBundle bundle projectId =>
    rw [advance, step, finalState_discard, restoreBundle, finalState_checked]
    cases loaded : importBundle environment bundle projectId with
    | error error => exact holds
    | ok answer =>
      obtain ⟨imported, packed, total⟩ := answer
      exact transact_holds holds preserved.sound fun _ _ _ _ before =>
        preserved.restore before loaded

/-- The blobs and the disk are whatever other programs make of them. -/
def Reachable (environment : Environment σ) (catalog : Catalog σ) : Prop :=
  ∃ start events, Opened environment start ∧ List.foldl (advance environment) start events = catalog

theorem preserved_sound :
    Preserved environment (fun _ => True) (Sound environment.formats) where
  sound := fun _ => id
  capture := fun sound captured => sound.reworked (captureVersion_reworked captured)
  captureOperation := fun sound captured => sound.reworked (captureOperation_reworked captured)
  record := fun sound valid recorded => (recordRelationship_ok sound valid recorded).1
  updateParser := fun sound named => sound.reworked (updateParser_reworked named)
  parse := fun _ sound parsed => sound.reworked (parseAndIndexState_reworked parsed)
  repair := fun _ sound repaired => sound.reworked (repairState_reworked repaired)
  restore := by
    intro _ _ _ _ _ _ _ _ _ _ sound loaded restored
    obtain ⟨theirs, belongs, _⟩ := importBundle_ok loaded
    obtain ⟨_, apart, rfl⟩ := restoreImported_ok belongs restored
    exact mergeProjectState_sound sound theirs apart

theorem holds_sound (sound : Sound environment.formats catalog.state) :
    Holds environment (Sound environment.formats) catalog := by
  refine ⟨sound, fun state known => ?_⟩
  unfold metadata at known
  cases present : catalog.file with
  | none =>
    rw [present] at known
    cases known
    exact sound
  | some bytes =>
    rw [present] at known
    exact (restoreCatalogState_ok known).1

theorem Reachable.sound (reachable : Reachable environment catalog) :
    Sound environment.formats catalog.state := by
  obtain ⟨start, events, opened, rfl⟩ := reachable
  have fit : Fit environment.formats False start.state := opened_fit opened
  have kept (catalog : Catalog σ) (event : Event σ) (sound : Sound environment.formats catalog.state) :
      Sound environment.formats (advance environment catalog event).state := by
    refine (advance_holds preserved_sound trivial (holds_sound sound) ?_).1
    rintro blobs disk rfl
    exact holds_sound sound
  exact List.foldlRecOn events (advance environment) fit.1 fun catalog sound event _ =>
    kept catalog event sound

end Reaching

end Boreal.Source
