/- Runs of fact mutations: under one operation id the write is committed once, an exact repeat
answers with the original revision, and everything else fails and changes nothing. -/
import BorealWork.MutationProgress
import BorealWork.Library.Machines

namespace Boreal.Store
open Drain JsonValue

variable {ρ : Type} {authority : Authority} {store store' : SqliteStore ρ} {call call' : Mutation ρ}

def operatorAuthority : Authority where
  canonicalProduction := true
  workModelV3Enabled := true
  schemaVersion := 3
  actors := fun actor => if actor = "operator-1" then some .operator else none
  principals := fun project actor =>
    if project = "project-1" ∧ actor = "operator-1" then some ⟨.operator, "operator-1", none⟩
    else none
  sessions := ["session-1"]
  sessionBindings := [("project-1", "operator-1", "session-1")]
  identityTablesInstalled := true
  databaseIdentity := some ⟨"database-1", 1⟩
  projectIdentities := fun project =>
    if project = "project-1" then some ⟨⟨"database-1", 1⟩, "sha256:binding"⟩ else none
  evidenceExecutions := fun _ => none

def emptyStore : SqliteStore ℕ where
  revisions := fun project => if project = "project-1" then some 0 else none
  operations := []
  operationIdentities := []
  audits := []
  rows := 0

def countingCall (operationId subjectId : String) (expected : ℕ) : Mutation ℕ where
  context := ⟨"project-1", "operator-1", some "session-1", operationId, "sha256:request",
    some expected, "1970-01-01T00:00:00Z"⟩
  command := "intake.create"
  subjectType := "intake"
  subjectId := subjectId
  roles := [.agent, .operator]
  write := fun store => .ok (store.rows + 1)

/-- SQLite can count every revision further, or its last one has been taken. -/
def Countable (store : SqliteStore ρ) : Prop :=
  ∀ projectId revision, store.revisions projectId = some revision →
    revision < maxInteger ∨
      revision = maxInteger ∧ ∃ row ∈ store.audits, (row.projectId, row.revision) =
        (projectId, maxInteger)

theorem keptAudit_place (audit : AuditEventRecord) :
    ((keptAudit authority audit).projectId, (keptAudit authority audit).revision) =
      (audit.projectId, audit.revision) := by
  unfold keptAudit
  split <;> rfl

theorem Commits.raised {result : MutationResult} (countable : Countable store)
    (commits : Commits authority store call result store') :
    ∃ revision, store.revisions call.context.projectId = some revision ∧
      result.revision = revision + 1 ∧ revision < maxInteger := by
  obtain ⟨revision, current, _, next⟩ := commits.current
  rcases countable _ _ current with room | ⟨last, row, member, taken⟩
  · refine ⟨revision, current, ?_, room⟩
    rw [next, nextRevision]
    omega
  · have own : result.revision = maxInteger := by
      rw [next, nextRevision]
      omega
    refine absurd taken ?_
    have unaudited := (commits.journaled.unaudited row member).2
    rw [← own]
    exact unaudited

theorem Countable.kept (countable : Countable store) (call : Mutation ρ) :
    Countable (factMutation authority store call).2 := by
  rcases outcome : factMutation authority store call with ⟨answer, after⟩
  have ended := factMutation_outcome authority store call
  rw [outcome] at ended
  cases ended with
  | failed error => exact countable
  | replayed existing known answers => exact countable
  | committed result _ enabled authorized commits =>
    intro projectId revision found
    rw [commits.revisions] at found
    rw [commits.journaled.audits]
    by_cases own : projectId = call.context.projectId
    · subst own
      rw [Function.update_self] at found
      cases Option.some.inj found
      obtain ⟨before, _, next, room⟩ := commits.raised countable
      rcases Nat.lt_or_ge result.revision maxInteger with small | large
      · exact .inl small
      · have last : result.revision = maxInteger := by omega
        refine .inr ⟨last, _, List.mem_append_right _ (List.mem_singleton_self _), ?_⟩
        rw [keptAudit_place, ← last]
        rfl
    · rw [Function.update_of_ne own] at found
      rcases countable projectId revision found with small | ⟨last, row, member, taken⟩
      · exact .inl small
      · exact .inr ⟨last, row, List.mem_append_left _ member, taken⟩

def IsCommit (answer : Except StoreError MutationResult) (revision : ℕ) : Prop :=
  ∃ id, answer = .ok ⟨id, revision, false⟩

structure CommitsOnce (store : SqliteStore ρ) (call : Mutation ρ) (revision : ℕ)
    (store' : SqliteStore ρ) : Prop where
  fresh : ∀ row ∈ store.operations, row.operationId ≠ call.context.operationId
  raised : ∃ before, store.revisions call.context.projectId = some before ∧
    (∀ expected ∈ call.context.expectedRevision, expected = before) ∧ revision = before + 1 ∧
    store'.revisions = Function.update store.revisions call.context.projectId (some revision)
  written : call.write store = .ok store'.rows
  operation : ∃ row, store'.operations = store.operations ++ [row] ∧
    row.operationId = call.context.operationId ∧ row.projectId = call.context.projectId ∧
    row.revision = revision
  audit : ∃ row, store'.audits = store.audits ++ [row] ∧
    row.operationId = call.context.operationId ∧ row.projectId = call.context.projectId ∧
    row.revision = revision ∧
    ∀ earlier ∈ store.audits, (earlier.projectId, earlier.revision) ≠
      (call.context.projectId, revision)

structure ExactlyOnce (authority : Authority) (start : SqliteStore ρ)
    (calls : List (Mutation ρ)) : Prop where
  failed : ∀ entry ∈ Machines.history (factMutation authority) start calls, ∀ error,
    entry.answer = .error error → entry.after (factMutation authority) = entry.before
  replayed : ∀ entry ∈ Machines.history (factMutation authority) start calls, ∀ result,
    entry.answer = .ok result → result.replayed = true →
      entry.after (factMutation authority) = entry.before
  committed : ∀ entry ∈ Machines.history (factMutation authority) start calls, ∀ revision,
    IsCommit entry.answer revision →
      CommitsOnce entry.before entry.call revision (entry.after (factMutation authority))
  stale : ∀ entry ∈ Machines.history (factMutation authority) start calls, ∀ expected,
    entry.call.context.expectedRevision = some expected →
    (∀ row ∈ entry.before.operations, row.operationId ≠ entry.call.context.operationId) →
    entry.before.revisions entry.call.context.projectId ≠ some expected →
      (∃ error, entry.answer = .error error) ∧
        entry.after (factMutation authority) = entry.before
  /-- After a commit, calls under the same operation id never write, and answer by identity. -/
  reused : ∀ earlier call middle call' later revision,
    calls = earlier ++ call :: (middle ++ call' :: later) →
    IsCommit (factMutation authority (Machines.final (factMutation authority) start earlier)
      call).1 revision →
    call'.context.operationId = call.context.operationId →
    let before := Machines.final (factMutation authority) start (earlier ++ call :: middle)
    (∀ write, factMutation authority before { call' with write := write } =
        factMutation authority before call') ∧
      (∀ other, ¬ IsCommit (factMutation authority before call').1 other) ∧
      (Repeats call call' → factMutation authority before call' =
        (.ok ⟨call.context.operationId, revision, true⟩, before)) ∧
      (¬ SameIdentity call call' →
        ∃ error, factMutation authority before call' = (.error error, before))

theorem factMutation_failed {error : StoreError}
    (failed : (factMutation authority store call).1 = .error error) :
    (factMutation authority store call).2 = store := by
  rcases outcome : factMutation authority store call with ⟨answer, after⟩
  have ended := factMutation_outcome authority store call
  rw [outcome] at ended failed
  cases ended with
  | failed error => rfl
  | replayed existing known answers => rfl
  | committed result _ enabled authorized commits => cases failed

theorem factMutation_replayed {result : MutationResult}
    (answered : (factMutation authority store call).1 = .ok result)
    (again : result.replayed = true) : (factMutation authority store call).2 = store := by
  rcases outcome : factMutation authority store call with ⟨answer, after⟩
  have ended := factMutation_outcome authority store call
  rw [outcome] at ended answered
  cases ended with
  | failed error => rfl
  | replayed existing known answers => rfl
  | committed result' _ enabled authorized commits =>
    rw [← Except.ok.inj answered, commits.answer] at again
    cases again

theorem commitsOnce_of_commit {revision : ℕ} (countable : Countable store)
    (commit : IsCommit (factMutation authority store call).1 revision) :
    CommitsOnce store call revision (factMutation authority store call).2 ∧
      Admitted authority call revision ∧
      Recorded authority call revision (factMutation authority store call).2 := by
  rcases outcome : factMutation authority store call with ⟨answer, after⟩
  have ended := factMutation_outcome authority store call
  obtain ⟨id, same⟩ := commit
  rw [outcome] at ended same
  cases ended with
  | failed error => cases same
  | replayed existing known answers => cases same
  | committed result _ enabled authorized commits =>
    have own : result.revision = revision := congrArg MutationResult.revision
      (Except.ok.inj same)
    obtain ⟨before, current, next, _⟩ := commits.raised countable
    obtain ⟨_, found, expected, _⟩ := commits.current
    cases Option.some.inj (found.symm.trans current)
    subst own
    refine ⟨?_, commits.admitted enabled authorized, commits.recorded⟩
    exact {
      fresh := commits.journaled.fresh
      raised := ⟨before, current, expected, next, commits.revisions⟩
      written := commits.written
      operation := ⟨_, commits.journaled.operations, keptOperation_operationId _,
        kept_projectId, kept_revision⟩
      audit := by
        refine ⟨_, commits.journaled.audits, keptAudit_operationId _, ?_⟩
        have place := @keptAudit_place authority (mutationAudit call result.revision)
        refine ⟨congrArg Prod.fst place, congrArg Prod.snd place, ?_⟩
        exact fun row member => (commits.journaled.unaudited row member).2 }

/-- Where every bound call is legible and no revision has run out, mutations are exactly-once. -/
theorem mutations_exactly_once (authority : Authority) (start : SqliteStore ρ) (calls : List (Mutation ρ))
    (counted : ∀ projectId revision, start.revisions projectId = some revision →
      revision < maxInteger)
    (legible : ∀ call ∈ calls, Bound authority call.context.projectId →
      Legible authority call) : ExactlyOnce authority start calls := by
  have countable : ∀ earlier, Countable (Machines.final (factMutation authority) start earlier) :=
    Machines.final_invariant (fun _ call kept => kept.kept call)
      fun projectId revision found => .inl (counted projectId revision found)
  have met : ∀ entry ∈ Machines.history (factMutation authority) start calls,
      Countable entry.before ∧ entry.answer = (factMutation authority entry.before entry.call).1 :=
    fun entry member => Machines.history_invariant (fun _ call kept => kept.kept call)
      (countable []) member
  constructor
  · intro entry member error failed
    rw [(met entry member).2] at failed
    exact factMutation_failed failed
  · intro entry member result answered again
    rw [(met entry member).2] at answered
    exact factMutation_replayed answered again
  · intro entry member revision commit
    rw [(met entry member).2] at commit
    exact (commitsOnce_of_commit (met entry member).1 commit).1
  · intro entry member expected asked fresh other
    obtain ⟨error, failed⟩ := @stale_fails _ authority _ _ _ asked fresh other
    rw [(met entry member).2, Machines.Entry.after, failed]
    exact ⟨⟨error, rfl⟩, rfl⟩
  · intro earlier call middle call' later revision split commit reused
    have own : call ∈ calls := by
      rw [split]
      exact List.mem_append_right _ List.mem_cons_self
    obtain ⟨once, admitted, recorded⟩ := commitsOnce_of_commit (countable earlier) commit
    have kept : Recorded authority call revision
        (Machines.final (factMutation authority) start (earlier ++ call :: middle)) := by
      rw [Machines.final_append, Machines.final_cons]
      exact Machines.final_invariant (fun _ call' kept => kept.kept call') recorded middle
    refine ⟨kept.unwritten reused, ?_, kept.repeated admitted (legible call own),
      kept.altered (legible call own) reused⟩
    intro other again
    obtain ⟨once', _⟩ := commitsOnce_of_commit (countable _) again
    have found := List.find?_some kept.operation
    exact once'.fresh _ (List.mem_of_find?_eq_some kept.operation)
      ((of_decide_eq_true found).trans reused.symm)

theorem mutations_exactly_once_counting :
    ExactlyOnce operatorAuthority emptyStore
      [countingCall "operation-1" "intake-1" 0, countingCall "operation-1" "intake-1" 0,
        countingCall "operation-1" "intake-2" 0, countingCall "operation-2" "intake-2" 1] := by
  refine mutations_exactly_once operatorAuthority emptyStore _ ?_ ?_
  · intro projectId revision found
    change (if projectId = "project-1" then some 0 else none) = some revision at found
    split at found
    · cases Option.some.inj found
      decide
    · cases found
  · intro call member _
    simp only [List.mem_cons, List.not_mem_nil, or_false] at member
    have none_executed : ∀ project ∈ operatorAuthority.evidenceExecutions call.context.operationId,
        project = call.context.projectId := fun project found => by cases found
    rcases member with rfl | rfl | rfl | rfl
    · exact ⟨by decide, by decide, by decide, none_executed⟩
    · exact ⟨by decide, by decide, by decide, none_executed⟩
    · exact ⟨by decide, by decide, by decide, none_executed⟩
    · exact ⟨by decide, by decide, by decide, none_executed⟩

theorem cutAt_length (limit : ℕ) (text : List Char) : (cutAt limit text).length ≤ limit := by
  induction text generalizing limit with
  | nil => exact Nat.zero_le _
  | cons c rest ih =>
    rw [cutAt]
    split
    · rename_i fits
      have positive := c.utf8Size_pos
      have short := ih (limit - c.utf8Size)
      rw [List.length_cons]
      omega
    · exact Nat.zero_le _

theorem redactString_ne {value : String} (long : maxStringBytes < value.utf8ByteSize)
    (many : maxStringBytes + 12 < value.toList.length) : redactString value ≠ value := by
  intro same
  have cut := cutAt_length maxStringBytes value.toList
  rw [redactString, if_neg (not_le.mpr long)] at same
  have length := congrArg (fun text : String => text.toList.length) same
  have mark : "…[truncated]".toList.length = 12 := by decide
  simp only [String.toList_append, List.length_append, String.toList_ofList, mark] at length
  omega

theorem Recorded.garbled {revision : ℕ} (recorded : Recorded authority call revision store)
    (bound : Bound authority call.context.projectId)
    (changed : redactString call.subjectId ≠ call.subjectId) (repeats : Repeats call call') :
    ∃ error, factMutation authority store call' = (.error error, store) := by
  rcases outcome : factMutation authority store call' with ⟨answer, after⟩
  have ended := factMutation_outcome authority store call'
  rw [outcome] at ended
  cases ended with
  | failed error => exact ⟨error, rfl⟩
  | replayed existing known answers =>
    rw [repeats.operationId, recorded.operation] at known
    have subject := answers.subject
    have kept : (keptOperation authority (mutationOperation call revision)).resultJson =
        redactedPayload (mutationPayload call) := by
      rw [kept_resultJson, mutationOperation_resultJson]
      exact if_pos bound
    rw [← Option.some.inj known, kept] at subject
    by_cases bounded : (redactValue (mutationPayload call)).encodedLength ≤ maxAuditBytes
    · rw [semanticSubject_redacted bounded, repeats.subjectId] at subject
      exact absurd (congrArg Prod.snd (Except.ok.inj subject)) changed
    · rw [redactedPayload, if_pos (not_le.mp bounded)] at subject
      cases subject
  | committed result _ enabled authorized commits =>
    have found := List.find?_some recorded.operation
    have fresh := commits.journaled.fresh _ (List.mem_of_find?_eq_some recorded.operation)
    exact absurd ((of_decide_eq_true found).trans repeats.operationId.symm) fresh

theorem countingCall_acceptable (subjectId : String) :
    Acceptable operatorAuthority emptyStore (countingCall "operation-1" subjectId 0) 0 where
  enabled := rfl
  authorized := by
    change authorizeMutation operatorAuthority (countingCall "operation-1" "" 0) = .ok ()
    rfl
  texts := by
    change ∀ text ∈ ["operation-1", "project-1", "intake.create", "operator-1", "sha256:request",
      "1970-01-01T00:00:00Z"], Speaks text
    decide
  session := by
    intro session named
    cases Option.mem_some_iff.mp named
    decide
  context := by
    change ∃ context, operationIdentityContext operatorAuthority "project-1" = .ok context ∧
      ∀ c ∈ context, verifyContext operatorAuthority c = .ok ()
    refine ⟨some ⟨"project-1", ⟨"database-1", 1⟩, "sha256:binding"⟩, by rfl, ?_⟩
    intro c member
    cases Option.mem_some_iff.mp member
    rfl
  current := rfl
  room := by decide
  expected := fun expected asked => (Option.mem_some_iff.mp asked).symm
  references := by
    change References operatorAuthority emptyStore "project-1" "operator-1" (some "session-1")
    decide
  fresh := fun row member => absurd member List.not_mem_nil
  unaudited := fun row member => absurd member List.not_mem_nil
  unidentified := fun row member => absurd member List.not_mem_nil

theorem replicate_size (n : ℕ) : (String.ofList (List.replicate n 'x')).utf8ByteSize = n := by
  induction n with
  | zero => rfl
  | succ n ih =>
    rw [List.replicate_succ', String.ofList_append, String.utf8ByteSize_append, ih]
    rfl

theorem repeat_not_replayed {subjectId : String} (long : redactString subjectId ≠ subjectId) :
    ∃ store', factMutation operatorAuthority emptyStore (countingCall "operation-1" subjectId 0) =
        (.ok ⟨"operation-1", 1, false⟩, store') ∧
      ∃ error, factMutation operatorAuthority store' (countingCall "operation-1" subjectId 0) =
        (.error error, store') := by
  obtain ⟨store', committed, commits⟩ :=
    @factMutation_accepts _ _ _ _ _ (countingCall_acceptable subjectId) 1 rfl
  have same : Repeats (countingCall "operation-1" subjectId 0)
      (countingCall "operation-1" subjectId 0) := ⟨⟨rfl, rfl, rfl, rfl, rfl, rfl, rfl, rfl⟩, rfl, rfl⟩
  exact ⟨store', committed, commits.recorded.garbled ⟨rfl, rfl⟩ long same⟩

theorem longSubject_not_replayed :
    ∃ store', factMutation operatorAuthority emptyStore
          (countingCall "operation-1" (String.ofList (List.replicate 5000 'x')) 0) =
        (.ok ⟨"operation-1", 1, false⟩, store') ∧
      ∃ error, factMutation operatorAuthority store'
          (countingCall "operation-1" (String.ofList (List.replicate 5000 'x')) 0) =
        (.error error, store') := by
  refine repeat_not_replayed (redactString_ne ?_ ?_)
  · rw [replicate_size]
    decide
  · rw [String.toList_ofList, List.length_replicate]
    decide

end Boreal.Store
