/- The operation journal of the service host: which operation ids are active, terminal or uncertain,
and how records are admitted, marked, pruned and hydrated after a restart. -/
import BorealWork.Library.Tables
import BorealWork.BusinessTime

namespace Boreal.Service
open Sorting Tables
open WorkModel (isControl)

section Records

/-- The durable boundary an operation has reached. -/
inductive OperationPhase
  | queued
  | inFlight
  | committed
  | failed
  | unknown
  deriving DecidableEq

namespace OperationPhase

def active : OperationPhase → Bool
  | .queued | .inFlight => true
  | .committed | .failed | .unknown => false

def terminal : OperationPhase → Bool
  | .committed | .failed => true
  | .queued | .inFlight | .unknown => false

/-- In flight or already unknown when a process restarts. -/
def uncertain : OperationPhase → Bool
  | .inFlight | .unknown => true
  | .queued | .committed | .failed => false

end OperationPhase

structure OperationRecord where
  operationId : String
  phase : OperationPhase
  ticket : Option ℕ
  revision : Option ℕ
  recovered : Bool
  updatedAt : ℕ
  deriving DecidableEq

inductive OperationError
  | invalidId
  | duplicate (record : OperationRecord)
  | hydrationConflict (operationId : String)
  deriving DecidableEq

inductive OperationAdmission
  | new
  | terminalReplay (previous : OperationRecord)
  deriving DecidableEq

structure RecoveryReport where
  queued : List String
  unknown : List String
  reconciled : List String
  deriving DecidableEq

structure ExecutionReference where
  runId : String
  processId : Option ℕ
  processStartToken : Option String
  artifactRef : Option String
  deriving DecidableEq

structure RecoveryEntry where
  operationId : String
  phase : OperationPhase
  revision : Option ℕ
  execution : Option ExecutionReference
  deriving DecidableEq

inductive RecoveryDisposition
  | unknown (reason : String)
  | committed (revision : Option ℕ)
  | failed (reason : String)
  deriving DecidableEq

structure OperationRecovery where
  records : Std.ExtTreeMap String OperationRecord
  named : ∀ (id : String) (record : OperationRecord),
    records[id]? = some record → record.operationId = id
  maxUnknownRecords : ℕ
  maxTerminalRecords : ℕ
  unknownRetention : ℕ
  terminalRetention : ℕ

end Records

namespace OperationRecovery

section Updates

variable (journal : OperationRecovery)

def get? (id : String) : Option OperationRecord := journal.records[id]?

def insert (record : OperationRecord) : OperationRecovery :=
  { journal with
    records := journal.records.insert record.operationId record
    named := by
      intro id found present
      rw [getElem?_insert] at present
      split_ifs at present with same
      · cases present
        exact same
      · exact journal.named id found present }

/-- Rewrite a record in place, where there is one. -/
def edit (id : String) (change : OperationRecord → OperationRecord) : OperationRecovery :=
  match journal.get? id with
  | some record => journal.insert { change record with operationId := id }
  | none => journal

def remove (id : String) : OperationRecovery :=
  { journal with
    records := journal.records.erase id
    named := by
      intro id found present
      rw [getElem?_erase] at present
      split_ifs at present
      exact journal.named id found present }

def retain (keep : OperationRecord → Bool) : OperationRecovery :=
  { journal with
    records := journal.records.filter fun _ record => keep record
    named := by
      intro id found present
      exact journal.named id found (getElem?_filter.mp present).1 }

/-- Rewrite every record in place. -/
def editAll (change : OperationRecord → OperationRecord) : OperationRecovery :=
  { journal with
    records := journal.records.map fun id record => { change record with operationId := id }
    named := by
      intro id found present
      rw [Std.ExtTreeMap.getElem?_map, Option.map_eq_some_iff] at present
      obtain ⟨record, -, rfl⟩ := present
      rfl }

end Updates

def withLimits (maxUnknownRecords unknownRetention : ℕ) : OperationRecovery :=
  { records := ∅
    named := by
      intro id found present
      rw [Std.ExtTreeMap.getElem?_empty] at present
      cases present
    maxUnknownRecords := max maxUnknownRecords 1
    maxTerminalRecords := max maxUnknownRecords 1
    unknownRetention
    terminalRetention := unknownRetention }

def overflow (records : List OperationRecord) (limit : ℕ) : List String :=
  ((sortOn OperationRecord.updatedAt records).take (records.length - limit)).map
    OperationRecord.operationId

/-- Uncertain and terminal records expire, and only so many of each are kept. -/
def pruneTransient (journal : OperationRecovery) (now : ℕ) : OperationRecovery :=
  let fresh := journal.retain fun record => match record.phase with
    | .unknown => now - record.updatedAt ≤ journal.unknownRetention
    | .committed | .failed => now - record.updatedAt ≤ journal.terminalRetention
    | .queued | .inFlight => true
  let unknown := (rows fresh.records).filter (·.phase = .unknown)
  let bounded := (overflow unknown journal.maxUnknownRecords).foldl remove fresh
  let terminal := (rows bounded.records).filter (·.phase.terminal)
  (overflow terminal journal.maxTerminalRecords).foldl remove bounded

def validateOperationId (operationId : String) : Except OperationError Unit :=
  if isBlank operationId ∨ operationId.toList.any isControl then .error .invalidId else .ok ()

def queuedRecord (operationId : String) (updatedAt : ℕ) : OperationRecord :=
  ⟨operationId, .queued, none, none, false, updatedAt⟩

/-- The clock is read twice, by the pruning and for the record. -/
def admitOperation (journal : OperationRecovery) (operationId : String) (pruned updated : ℕ) :
    Except OperationError OperationAdmission × OperationRecovery :=
  match validateOperationId operationId with
  | .error error => (.error error, journal)
  | .ok () =>
    let journal := journal.pruneTransient pruned
    match journal.get? operationId with
    | some record => match record.phase with
        | .queued | .inFlight | .unknown => (.error (.duplicate record), journal)
        | .committed | .failed =>
          (.ok (.terminalReplay record), journal.insert (queuedRecord operationId updated))
    | none => (.ok .new, journal.insert (queuedRecord operationId updated))

/-- An entry that contradicts the journal stops the pass; what went in before stays. -/
def hydrate (updated : ℕ) :
    List RecoveryEntry → OperationRecovery → Except OperationError Unit × OperationRecovery
  | [], journal => (.ok (), journal)
  | entry :: entries, journal =>
    match validateOperationId entry.operationId with
    | .error error => (.error error, journal)
    | .ok () => match journal.get? entry.operationId with
        | some existing =>
          if existing.phase ≠ entry.phase ∨ existing.revision ≠ entry.revision then
            (.error (.hydrationConflict entry.operationId), journal)
          else hydrate updated entries journal
        | none => hydrate updated entries
            (journal.insert ⟨entry.operationId, entry.phase, none, entry.revision, false, updated⟩)

def markInFlight (journal : OperationRecovery) (operationId : String) (updated : ℕ) :
    OperationRecovery :=
  journal.edit operationId fun record => { record with phase := .inFlight, updatedAt := updated }

def markCommitted (journal : OperationRecovery) (operationId : String) (revision : Option ℕ)
    (updated : ℕ) : OperationRecovery :=
  journal.edit operationId fun record =>
    { record with phase := .committed, revision, updatedAt := updated }

def markFailed (journal : OperationRecovery) (operationId : String) (updated : ℕ) :
    OperationRecovery :=
  journal.edit operationId fun record => { record with phase := .failed, updatedAt := updated }

def markUnknown (journal : OperationRecovery) (operationId : String) (updated pruned : ℕ) :
    OperationRecovery :=
  (journal.edit operationId fun record =>
    { record with phase := .unknown, updatedAt := updated }).pruneTransient pruned

def markReconciled (journal : OperationRecovery) (operationId : String)
    (disposition : RecoveryDisposition) (updated pruned : ℕ) : OperationRecovery :=
  match disposition with
  | .committed revision => journal.markCommitted operationId revision updated
  | .failed _ => journal.markFailed operationId updated
  | .unknown _ => journal.markUnknown operationId updated pruned

def recover (journal : OperationRecovery) (updated pruned : ℕ) : RecoveryReport × OperationRecovery :=
  let found := rows journal.records
  let report : RecoveryReport :=
    { queued := (found.filter (·.phase = .queued)).map OperationRecord.operationId
      unknown := (found.filter (·.phase.uncertain)).map OperationRecord.operationId
      reconciled := [] }
  let fenced := journal.editAll fun record => match record.phase with
    | .inFlight => { record with phase := .unknown, recovered := true, updatedAt := updated }
    | _ => record
  (report, fenced.pruneTransient pruned)

section Lookup

variable (journal : OperationRecovery) {id other : String}

theorem get?_insert (record : OperationRecord) :
    (journal.insert record).get? other =
      if record.operationId = other then some record else journal.get? other :=
  getElem?_insert _ _ _ _

theorem get?_edit (change : OperationRecord → OperationRecord) :
    (journal.edit id change).get? other =
      if id = other then (journal.get? id).map (fun record => { change record with operationId := id })
      else journal.get? other := by
  unfold edit
  cases found : journal.get? id with
  | none =>
    split_ifs with same
    · rw [← same, found]
      rfl
    · rfl
  | some record => exact get?_insert journal _

theorem get?_remove : (journal.remove id).get? other = if id = other then none else journal.get? other :=
  getElem?_erase _ _ _

theorem get?_retain {keep : OperationRecord → Bool} {record : OperationRecord} :
    (journal.retain keep).get? other = some record ↔
      journal.get? other = some record ∧ keep record = true :=
  getElem?_filter

theorem get?_removeAll (ids : List String) :
    (ids.foldl remove journal).get? other = if other ∈ ids then none else journal.get? other := by
  induction ids generalizing journal with
  | nil => simp
  | cons id ids ih =>
    rw [List.foldl_cons, ih, get?_remove]
    by_cases later : other ∈ ids
    · simp [later]
    · by_cases same : id = other
      · simp [same]
      · simp [later, same, Ne.symm same]

theorem mem_overflow {limit : ℕ} {matching : OperationRecord → Bool}
    (member : id ∈ overflow ((rows journal.records).filter matching) limit) :
    ∃ record, journal.get? id = some record ∧ matching record = true := by
  obtain ⟨record, taken, rfl⟩ := List.mem_map.mp member
  have listed := mem_sortOn.mp (List.mem_of_mem_take taken)
  obtain ⟨inRows, matches'⟩ := List.mem_filter.mp listed
  obtain ⟨key, found⟩ := mem_rows.mp inRows
  refine ⟨record, ?_, matches'⟩
  rw [journal.named key record found]
  exact found

theorem get?_pruneTransient {now : ℕ} {record : OperationRecord} (active : record.phase.active = true)
    (found : journal.get? other = some record) : (journal.pruneTransient now).get? other = some record := by
  simp only [pruneTransient, get?_removeAll]
  have kept : (journal.retain fun record => match record.phase with
      | .unknown => decide (now - record.updatedAt ≤ journal.unknownRetention)
      | .committed | .failed => decide (now - record.updatedAt ≤ journal.terminalRetention)
      | .queued | .inFlight => true).get? other = some record := by
    rw [get?_retain]
    refine ⟨found, ?_⟩
    cases phase : record.phase <;> simp_all [OperationPhase.active]
  rw [if_neg, if_neg, kept]
  · intro member
    obtain ⟨overflowing, found', unknown⟩ := mem_overflow _ member
    rw [kept] at found'
    cases found'
    rw [of_decide_eq_true unknown] at active
    cases active
  · intro member
    obtain ⟨overflowing, found', terminal⟩ := mem_overflow _ member
    rw [get?_removeAll] at found'
    split_ifs at found'
    rw [kept] at found'
    cases found'
    cases phase : record.phase <;> simp_all [OperationPhase.active, OperationPhase.terminal]

end Lookup

section Phases

variable {journal journal' : OperationRecovery} {id other : String} {phase : OperationPhase}

def InPhase (journal : OperationRecovery) (id : String) (phase : OperationPhase) : Prop :=
  ∃ record, journal.get? id = some record ∧ record.phase = phase

/-- The active records are still there. -/
def KeepsAll (journal journal' : OperationRecovery) : Prop :=
  ∀ other, ∀ phase : OperationPhase, phase.active = true →
    journal.InPhase other phase → journal'.InPhase other phase

def Keeps (id : String) (journal journal' : OperationRecovery) : Prop :=
  ∀ other ≠ id, ∀ phase : OperationPhase, phase.active = true →
    journal.InPhase other phase → journal'.InPhase other phase

theorem InPhase.prune (inPhase : journal.InPhase id phase) (active : phase.active = true) (now : ℕ) :
    (journal.pruneTransient now).InPhase id phase := by
  obtain ⟨record, found, rfl⟩ := inPhase
  exact ⟨record, journal.get?_pruneTransient active found, rfl⟩

theorem keepsAll_prune (now : ℕ) : KeepsAll journal (journal.pruneTransient now) :=
  fun _ _ active inPhase => inPhase.prune active now

theorem KeepsAll.keeps (all : KeepsAll journal journal') : Keeps id journal journal' :=
  fun other _ => all other

theorem keeps_insert {record : OperationRecord} :
    Keeps record.operationId journal (journal.insert record) := by
  rintro other different phase - ⟨found, present, same⟩
  refine ⟨found, ?_, same⟩
  rw [get?_insert, if_neg (Ne.symm different), present]

theorem keeps_queue {updated : ℕ} : Keeps id journal (journal.insert (queuedRecord id updated)) :=
  @keeps_insert journal (queuedRecord id updated)

theorem keeps_edit {change : OperationRecord → OperationRecord} :
    Keeps id journal (journal.edit id change) := by
  rintro other different phase - ⟨found, present, same⟩
  refine ⟨found, ?_, same⟩
  rw [get?_edit, if_neg (Ne.symm different), present]

theorem keeps_remove : Keeps id journal (journal.remove id) := by
  rintro other different phase - ⟨found, present, same⟩
  refine ⟨found, ?_, same⟩
  rw [get?_remove, if_neg (Ne.symm different), present]

theorem Keeps.trans {journal'' : OperationRecovery} (first : Keeps id journal journal')
    (second : Keeps id journal' journal'') : Keeps id journal journal'' :=
  fun other different phase active inPhase =>
    second other different phase active (first other different phase active inPhase)

theorem keeps_markUnknown {updated pruned : ℕ} : Keeps id journal (journal.markUnknown id updated pruned) :=
  keeps_edit.trans (keepsAll_prune pruned).keeps

theorem inPhase_markInFlight {updated : ℕ} (inPhase : journal.InPhase id phase) :
    (journal.markInFlight id updated).InPhase id .inFlight := by
  obtain ⟨record, found, -⟩ := inPhase
  refine ⟨{ record with operationId := id, phase := .inFlight, updatedAt := updated }, ?_, rfl⟩
  rw [markInFlight, get?_edit, if_pos rfl, found]
  rfl

theorem inPhase_insert {updated : ℕ} : (journal.insert (queuedRecord id updated)).InPhase id .queued :=
  ⟨queuedRecord id updated, by rw [get?_insert]; exact if_pos rfl, rfl⟩

/-- Everything an admission can do. -/
inductive AdmitSpec (journal : OperationRecovery) (id : String) (pruned updated : ℕ) :
    Except OperationError OperationAdmission × OperationRecovery → Prop
  | rejected {error journal'} (kept : journal' = journal ∨ journal' = journal.pruneTransient pruned) :
      AdmitSpec journal id pruned updated (.error error, journal')
  | admitted {admission} (valid : validateOperationId id = .ok ())
      (inactive : ∀ phase : OperationPhase, phase.active = true → ¬journal.InPhase id phase) :
      AdmitSpec journal id pruned updated
        (.ok admission, (journal.pruneTransient pruned).insert (queuedRecord id updated))

theorem admit_spec (journal : OperationRecovery) (id : String) (pruned updated : ℕ) :
    AdmitSpec journal id pruned updated (journal.admitOperation id pruned updated) := by
  unfold admitOperation
  cases valid : validateOperationId id with
  | error error => exact .rejected (.inl rfl)
  | ok _ =>
    dsimp only
    cases found : (journal.pruneTransient pruned).get? id with
    | none =>
      refine .admitted valid ?_
      rintro phase active inPhase
      obtain ⟨record, present, -⟩ := inPhase.prune active pruned
      rw [found] at present
      cases present
    | some record =>
      have inactive (terminal : record.phase.active = false) : ∀ phase : OperationPhase,
          phase.active = true → ¬journal.InPhase id phase := by
        rintro phase active inPhase
        obtain ⟨record', present, rfl⟩ := inPhase.prune active pruned
        rw [found] at present
        cases present
        rw [terminal] at active
        cases active
      dsimp only
      cases phase : record.phase with
      | queued => exact .rejected (.inr rfl)
      | inFlight => exact .rejected (.inr rfl)
      | unknown => exact .rejected (.inr rfl)
      | committed => exact .admitted valid (inactive (by rw [phase]; rfl))
      | failed => exact .admitted valid (inactive (by rw [phase]; rfl))

theorem admit_active (valid : validateOperationId id = .ok ()) (active : phase.active = true)
    (inPhase : journal.InPhase id phase) (pruned updated : ℕ) :
    ∃ record, (journal.admitOperation id pruned updated).1 = .error (.duplicate record) := by
  obtain ⟨record, found, rfl⟩ := inPhase.prune active pruned
  refine ⟨record, ?_⟩
  simp only [admitOperation, valid, found]
  cases phase : record.phase <;> simp_all [OperationPhase.active]

end Phases

/-- Some operation of the journal may have run without its outcome being known. -/
def Uncertain (journal : OperationRecovery) : Prop :=
  ∃ id record, journal.get? id = some record ∧ record.phase.uncertain = true

theorem hydrate_uncertain {updated : ℕ} {entries : List RecoveryEntry}
    {journal journal' : OperationRecovery}
    (hydrated : hydrate updated entries journal = (.ok (), journal')) :
    journal'.Uncertain ↔
      journal.Uncertain ∨ ∃ entry ∈ entries, entry.phase.uncertain = true := by
  induction entries generalizing journal with
  | nil =>
    cases hydrated
    simp
  | cons entry entries ih =>
    rw [hydrate] at hydrated
    split at hydrated
    · cases hydrated
    · split at hydrated
      · rename_i existing found
        split_ifs at hydrated with conflict
        · cases hydrated
        · rw [not_or, not_not, not_not] at conflict
          have covered : entry.phase.uncertain = true → journal.Uncertain :=
            fun uncertain => ⟨_, existing, found, by rw [conflict.1]; exact uncertain⟩
          rw [ih hydrated, List.exists_mem_cons_iff]
          tauto
      · rename_i absent
        have inserted : (journal.insert ⟨entry.operationId, entry.phase, none, entry.revision, false,
            updated⟩).Uncertain ↔ journal.Uncertain ∨ entry.phase.uncertain = true := by
          constructor
          · rintro ⟨id, record, found, uncertain⟩
            rw [get?_insert] at found
            split_ifs at found
            · cases found
              exact .inr uncertain
            · exact .inl ⟨id, record, found, uncertain⟩
          · rintro (⟨id, record, found, uncertain⟩ | uncertain)
            · refine ⟨id, record, ?_, uncertain⟩
              rw [get?_insert, if_neg, found]
              rintro rfl
              rw [absent] at found
              cases found
            · exact ⟨entry.operationId, _, by rw [get?_insert]; exact if_pos rfl, uncertain⟩
        rw [ih hydrated, inserted, List.exists_mem_cons_iff, or_assoc]

theorem recover_unknown {journal : OperationRecovery} {updated pruned : ℕ} :
    (journal.recover updated pruned).1.unknown ≠ [] ↔ journal.Uncertain := by
  have listed : (journal.recover updated pruned).1.unknown =
      ((rows journal.records).filter (·.phase.uncertain)).map OperationRecord.operationId := rfl
  rw [listed, Ne, List.map_eq_nil_iff, List.filter_eq_nil_iff]
  constructor
  · intro some
    push Not at some
    obtain ⟨record, member, uncertain⟩ := some
    obtain ⟨id, found⟩ := mem_rows.mp member
    exact ⟨id, record, found, uncertain⟩
  · rintro ⟨id, record, found, uncertain⟩ none
    exact none record (mem_rows.mpr ⟨id, found⟩) uncertain

end OperationRecovery

end Boreal.Service
