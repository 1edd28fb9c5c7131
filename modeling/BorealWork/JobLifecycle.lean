/- The life of an external job over a run of calls: what is known of an effect is kept, a settled stage
is final, and a job is set running once. -/
import BorealWork.ExternalJobs
import BorealWork.Library.Machines

namespace Boreal.Store.Jobs
open Drain

variable {authority : Authority} {store store' : JobStore} {jobs jobs' : List ExternalJobRecord}

/-- What an advance of `current` has been checked for. -/
structure Permitted (input : ExternalJobTransitionInput) (next : JobStage)
    (current : ExternalJobRecord) : Prop where
  project : current.projectId = input.projectId
  job : current.jobId = input.jobId
  stages : validateTransitionInput input = .ok (current.stage, next)
  effect : ¬ Changed current.sideEffectRef input.sideEffectRef
  result : ¬ Changed current.resultDigest input.resultDigest
  readback : ¬ (next = .readbackRequired ∧ current.sideEffectRef = none ∧ input.sideEffectRef = none)
  resolved : ¬ ((next = .committed ∨ next = .reconciled) ∧ current.resultDigest = none ∧
    input.resultDigest = none)

variable {input : ExternalJobTransitionInput}

theorem validateTransitionInput_valid {expected next : JobStage}
    (stages : validateTransitionInput input = .ok (expected, next)) :
    validTransition expected next = true := by
  simp only [validateTransitionInput, bind_eq_ok, refuse_eq_ok, Bool.not_eq_false] at stages
  obtain ⟨_, _, _, _, expected', _, next', _, _, _, _, valid, same⟩ := stages
  obtain ⟨rfl, rfl⟩ := Prod.mk.inj (Except.ok.inj same)
  exact valid

theorem validateTransitionInput_expected
    {expected next : JobStage} (stages : validateTransitionInput input = .ok (expected, next)) :
    requireJobStage input.expectedStage = .ok expected := by
  simp only [validateTransitionInput, bind_eq_ok] at stages
  obtain ⟨_, _, _, _, expected', named, next', _, _, _, _, _, same⟩ := stages
  obtain ⟨rfl, rfl⟩ := Prod.mk.inj (Except.ok.inj same)
  exact named

def afterAdvance (input : ExternalJobTransitionInput) (next : JobStage)
    (current : ExternalJobRecord) (jobs : List ExternalJobRecord) : List ExternalJobRecord :=
  jobs.map fun job =>
    if job.projectId = input.projectId ∧ job.jobId = input.jobId ∧ job.stage = current.stage then
      advancedJob input next (current.startedAt.or (some input.at_)) job
    else job

/-- What one call can do to the rows. -/
inductive JobStep (jobs : List ExternalJobRecord) : List ExternalJobRecord → Prop
  | same : JobStep jobs jobs
  | added (input : ExternalJobInput) (operation : input.operationId ∉ jobs.map (·.operationId))
      (job : input.jobId ∉ jobs.map (·.jobId)) : JobStep jobs (jobs ++ [registeredJob input])
  | advanced {input : ExternalJobTransitionInput} {next : JobStage} {current : ExternalJobRecord}
      (member : current ∈ jobs) (permitted : Permitted input next current) :
      JobStep jobs (afterAdvance input next current jobs)

/-- What a successful registration has done. -/
inductive Registered (store : JobStore) (input : ExternalJobInput) :
    ExternalJobRegistration → JobStore → Prop
  | replayed {existing : ExternalJobRecord}
      (known : externalJobByOperationRow store input.projectId input.operationId =
        .ok (some existing)) (same : SameRequest existing input) :
      Registered store input ⟨existing, true⟩ store
  | added (operation : input.operationId ∉ store.rows.jobs.map (·.operationId))
      (job : input.jobId ∉ store.rows.jobs.map (·.jobId)) :
      Registered store input ⟨registeredJob input, false⟩
        { store with rows.jobs := store.rows.jobs ++ [registeredJob input] }

theorem externalJobRow_eq_ok {projectId jobId : String} {found : Option ExternalJobRecord}
    (read : externalJobRow store projectId jobId = .ok found) :
    store.rows.jobs.find? (fun job => job.projectId = projectId ∧ job.jobId = jobId) = found := by
  simp only [externalJobRow, bind_eq_ok] at read
  obtain ⟨_, _, _, _, same⟩ := read
  exact Except.ok.inj same

variable {registration : ExternalJobRegistration}

theorem registerExternalJobRow_eq_ok {input : ExternalJobInput}
    (registered : registerExternalJobRow store input = .ok (registration, store')) :
    Registered store input registration store' := by
  obtain ⟨found, read, registered⟩ := bind_eq_ok.mp registered
  cases found with
  | some existing =>
    simp only [bind_eq_ok, refuse_eq_ok, not_not] at registered
    obtain ⟨_, same, answer⟩ := registered
    obtain ⟨rfl, rfl⟩ := Prod.mk.inj (Except.ok.inj answer)
    exact .replayed read same
  | none =>
    obtain ⟨inserted, insert, registered⟩ := bind_eq_ok.mp registered
    obtain ⟨job, found, registered⟩ := bind_eq_ok.mp registered
    simp only [insertExternalJob, bind_eq_ok, refuse_eq_ok] at insert
    obtain ⟨_, _, _, _, _, _, _, _, _, _, _, _, _, _, _, _, _, operation, _, unused, _, _, insert⟩ :=
      insert
    obtain rfl := Except.ok.inj insert
    have own : (store.rows.jobs ++ [registeredJob input]).find?
        (fun job => job.projectId = input.projectId ∧ job.jobId = input.jobId) =
          some (registeredJob input) := by
      rw [List.find?_append, List.find?_eq_none.mpr, Option.none_or]
      · exact List.find?_singleton.trans (if_pos (decide_eq_true ⟨rfl, rfl⟩))
      · intro other member same
        exact unused (List.mem_map.mpr ⟨other, member, (of_decide_eq_true same).2⟩)
    obtain rfl := own.symm.trans (externalJobRow_eq_ok found)
    obtain ⟨rfl, rfl⟩ := Prod.mk.inj (Except.ok.inj registered)
    exact .added operation unused

/-- What a successful advance has done. -/
structure Advanced (store : JobStore) (input : ExternalJobTransitionInput)
    (current job : ExternalJobRecord) (next : JobStage) (store' : JobStore) : Prop where
  member : current ∈ store.rows.jobs
  permitted : Permitted input next current
  answer : job = advancedJob input next (current.startedAt.or (some input.at_)) current
  written : store' = { store with rows.jobs := afterAdvance input next current store.rows.jobs }

theorem find?_afterAdvance {next : JobStage}
    {current : ExternalJobRecord}
    (found : jobs.find? (fun job => job.projectId = input.projectId ∧ job.jobId = input.jobId) =
      some current) :
    (afterAdvance input next current jobs).find?
      (fun job => job.projectId = input.projectId ∧ job.jobId = input.jobId) =
        some (advancedJob input next (current.startedAt.or (some input.at_)) current) := by
  have here := List.find?_some found
  have own := of_decide_eq_true here
  have keeps : ∀ job : ExternalJobRecord,
      (decide ((if job.projectId = input.projectId ∧ job.jobId = input.jobId ∧
          job.stage = current.stage then
            advancedJob input next (current.startedAt.or (some input.at_)) job
          else job).projectId = input.projectId ∧
        (if job.projectId = input.projectId ∧ job.jobId = input.jobId ∧
          job.stage = current.stage then
            advancedJob input next (current.startedAt.or (some input.at_)) job
          else job).jobId = input.jobId)) =
        decide (job.projectId = input.projectId ∧ job.jobId = input.jobId) := by
    intro job
    split_ifs <;> rfl
  rw [afterAdvance, List.find?_map]
  simp only [Function.comp_def, keeps, found, Option.map_some]
  rw [if_pos ⟨own.1, own.2, trivial⟩]

variable {job : ExternalJobRecord}

theorem advanceExternalJobRow_eq_ok (advanced : advanceExternalJobRow store input = .ok (job, store')) :
    ∃ current next, Advanced store input current job next store' := by
  obtain ⟨⟨expected, next⟩, stages, advanced⟩ := bind_eq_ok.mp advanced
  obtain ⟨found, read, advanced⟩ := bind_eq_ok.mp advanced
  cases found with
  | none => cases advanced
  | some current =>
    simp only [bind_eq_ok, refuse_eq_ok, not_not] at advanced
    obtain ⟨_, rfl, _, effect, _, result, _, readback, _, resolved, updated, update, again, reread,
      answer⟩ := advanced
    have found := externalJobRow_eq_ok read
    have here := List.find?_some found
    have own := of_decide_eq_true here
    simp only [updateExternalJob, bind_eq_ok] at update
    obtain ⟨_, _, _, _, _, _, _, _, _, _, update⟩ := update
    obtain rfl := Except.ok.inj update
    obtain rfl := (find?_afterAdvance found).symm.trans (externalJobRow_eq_ok reread)
    obtain ⟨rfl, rfl⟩ := Prod.mk.inj (Except.ok.inj answer)
    exact ⟨current, next, List.mem_of_find?_eq_some found,
      ⟨own.1, own.2, stages, effect, result, readback, resolved⟩, rfl, rfl⟩

/-- Whoever makes the call, a success is a registration, an advance, or a job read once more. -/
inductive Performed (authority : Authority) (store : JobStore) :
    JobCall → JobAnswer → JobStore → Prop
  | registration {context : Option IdentityContext} {input : ExternalJobInput}
      {registration : ExternalJobRegistration} {store' : JobStore}
      (registered : Registered store input registration store') :
      Performed authority store (.register context input) (.registration registration) store'
  | advance {call : JobCall} {input : ExternalJobTransitionInput} {current job : ExternalJobRecord}
      {next : JobStage} {store' : JobStore}
      (advanced : Advanced store input current job next store') :
      Performed authority store call (.job job) store'
  | repeated {call : JobCall} {job : ExternalJobRecord} (member : job ∈ store.rows.jobs) :
      Performed authority store call (.job job) store

theorem registerExternalJob_eq_ok {input : ExternalJobInput}
    (registered : registerExternalJob authority store input = .ok (registration, store')) :
    Registered store input registration store' := by
  simp only [registerExternalJob, check_eq_ok] at registered
  exact registerExternalJobRow_eq_ok registered.2.2.2

variable {context : IdentityContext}

theorem registerExternalJobWithIdentity_eq_ok {input : ExternalJobInput}
    (registered : registerExternalJobWithIdentity authority store context input =
      .ok (registration, store')) : Registered store input registration store' := by
  simp only [registerExternalJobWithIdentity, check_eq_ok] at registered
  exact registerExternalJobRow_eq_ok registered.2.2.2.2

theorem advanceExternalJob_eq_ok (advanced : advanceExternalJob authority store input = .ok (job, store')) :
    ∃ current next, Advanced store input current job next store' := by
  simp only [advanceExternalJob, check_eq_ok] at advanced
  exact advanceExternalJobRow_eq_ok advanced.2.2

theorem advanceExternalJobWithIdentity_eq_ok
    (advanced : advanceExternalJobWithIdentity authority store context input = .ok (job, store')) :
    ∃ current next, Advanced store input current job next store' := by
  simp only [advanceExternalJobWithIdentity, check_eq_ok] at advanced
  obtain ⟨_, _, advanced⟩ := advanced
  obtain ⟨found, _, advanced⟩ := bind_eq_ok.mp advanced
  cases found with
  | none => cases advanced
  | some current => exact advanceExternalJobRow_eq_ok (check_eq_ok.mp advanced).2

theorem mem_of_externalJobRow {projectId jobId : String}
    (read : externalJobRow store projectId jobId = .ok (some job)) : job ∈ store.rows.jobs :=
  List.mem_of_find?_eq_some (externalJobRow_eq_ok read)

theorem mem_of_externalJobWithIdentity {jobId : String}
    (read : externalJobWithIdentity authority store context jobId = .ok (some job)) :
    job ∈ store.rows.jobs := by
  simp only [externalJobWithIdentity, check_eq_ok] at read
  obtain ⟨found, row, read⟩ := bind_eq_ok.mp read.2
  cases found with
  | none => cases read
  | some current =>
    obtain rfl := Option.some.inj (Except.ok.inj (check_eq_ok.mp read).2)
    exact mem_of_externalJobRow row

theorem markReadback_eq_ok {call : JobCall} {read : Except StoreError (Option ExternalJobRecord)}
    {advance : ExternalJobTransitionInput → Except StoreError (ExternalJobRecord × JobStore)}
    {projectId jobId sideEffectRef at_ : String}
    (reads : ∀ job, read = .ok (some job) → job ∈ store.rows.jobs)
    (advances : ∀ input job store', advance input = .ok (job, store') →
      ∃ current next, Advanced store input current job next store')
    (marked : markReadback store read advance projectId jobId sideEffectRef at_ = .ok (job, store')) :
    Performed authority store call (.job job) store' := by
  rw [markReadback, check_eq_ok] at marked
  obtain ⟨found, answered, marked⟩ := bind_eq_ok.mp marked.2
  cases found with
  | none => cases marked
  | some current =>
    dsimp only at marked
    split_ifs at marked with readback
    · obtain ⟨rfl, rfl⟩ := Prod.mk.inj (Except.ok.inj (check_eq_ok.mp marked).2)
      exact .repeated (reads _ answered)
    · obtain ⟨current, next, advanced⟩ := advances _ _ _ marked
      exact .advance advanced

variable {answer : JobAnswer}

theorem register_eq_ok {context : Option IdentityContext} {input : ExternalJobInput}
    (performed : performCall authority store (.register context input) = .ok (answer, store')) :
    ∃ registration, answer = .registration registration ∧
      Registered store input registration store' := by
  cases context with
  | none =>
    obtain ⟨⟨registration, after⟩, registered, same⟩ := map_eq_ok.mp performed
    obtain ⟨rfl, rfl⟩ := Prod.mk.inj same
    exact ⟨registration, rfl, registerExternalJob_eq_ok registered⟩
  | some context =>
    obtain ⟨⟨registration, after⟩, registered, same⟩ := map_eq_ok.mp performed
    obtain ⟨rfl, rfl⟩ := Prod.mk.inj same
    exact ⟨registration, rfl, registerExternalJobWithIdentity_eq_ok registered⟩

theorem advance_eq_ok {context : Option IdentityContext}
    (performed : performCall authority store (.advance context input) = .ok (answer, store')) :
    ∃ current job next, answer = .job job ∧ Advanced store input current job next store' := by
  cases context with
  | none =>
    obtain ⟨⟨job, after⟩, advanced, same⟩ := map_eq_ok.mp performed
    obtain ⟨rfl, rfl⟩ := Prod.mk.inj same
    obtain ⟨current, next, advanced⟩ := advanceExternalJob_eq_ok advanced
    exact ⟨current, job, next, rfl, advanced⟩
  | some context =>
    obtain ⟨⟨job, after⟩, advanced, same⟩ := map_eq_ok.mp performed
    obtain ⟨rfl, rfl⟩ := Prod.mk.inj same
    obtain ⟨current, next, advanced⟩ := advanceExternalJobWithIdentity_eq_ok advanced
    exact ⟨current, job, next, rfl, advanced⟩

theorem performCall_eq_ok {call : JobCall}
    (performed : performCall authority store call = .ok (answer, store')) :
    Performed authority store call answer store' := by
  cases call with
  | register context input =>
    obtain ⟨registration, rfl, registered⟩ := register_eq_ok performed
    exact .registration registered
  | advance context input =>
    obtain ⟨current, job, next, rfl, advanced⟩ := advance_eq_ok performed
    exact .advance advanced
  | markReadbackRequired projectId jobId sideEffectRef at_ =>
    obtain ⟨⟨job, after⟩, marked, same⟩ := map_eq_ok.mp performed
    obtain ⟨rfl, rfl⟩ := Prod.mk.inj same
    refine markReadback_eq_ok (fun job read => ?_) (fun _ _ _ => advanceExternalJob_eq_ok) marked
    exact mem_of_externalJobRow (check_eq_ok.mp read).2
  | markReadbackRequiredWithIdentity context jobId sideEffectRef at_ =>
    obtain ⟨⟨job, after⟩, marked, same⟩ := map_eq_ok.mp performed
    obtain ⟨rfl, rfl⟩ := Prod.mk.inj same
    exact markReadback_eq_ok (fun job => mem_of_externalJobWithIdentity)
      (fun _ _ _ => advanceExternalJobWithIdentity_eq_ok) marked

theorem Performed.step {call : JobCall} (performed : Performed authority store call answer store') :
    JobStep store.rows.jobs store'.rows.jobs ∧
      store' = { store with rows.jobs := store'.rows.jobs } := by
  cases performed with
  | registration registered =>
    cases registered with
    | replayed => exact ⟨.same, rfl⟩
    | added operation job => exact ⟨.added _ operation job, rfl⟩
  | advance advanced =>
    obtain ⟨member, permitted, _, rfl⟩ := advanced
    exact ⟨.advanced member permitted, rfl⟩
  | repeated => exact ⟨.same, rfl⟩

theorem jobCall_outcome (authority : Authority) (store : JobStore) (call : JobCall) :
    (∃ error, jobCall authority store call = (.error error, store)) ∨
      ∃ answer store', jobCall authority store call = (.ok answer, store') ∧
        Performed authority store call answer store' := by
  cases performed : performCall authority store call with
  | error error => exact .inl ⟨error, by rw [jobCall, performed]⟩
  | ok result => exact .inr ⟨result.1, result.2, by rw [jobCall, performed], performCall_eq_ok performed⟩

section Life

structure Formed (job : ExternalJobRecord) : Prop where
  reconciliation : job.reconciliationState = reconciliationState job.stage
  resolved : job.stage = .committed ∨ job.stage = .reconciled → job.resultDigest.isSome = true
  readback : job.stage = .readbackRequired → job.sideEffectRef.isSome = true

structure Ordered (jobs : List ExternalJobRecord) : Prop where
  ids : (jobs.map (·.jobId)).Nodup
  operations : (jobs.map (·.operationId)).Nodup
  formed : ∀ job ∈ jobs, Formed job

def isSettled (stage : JobStage) : Prop :=
  stage = .committed ∨ stage = .reconciled ∨ stage = .rejected ∨ stage = .failed

def mayRun (stage : JobStage) : Prop := stage = .registered ∨ stage = .admitted

structure Continues (job job' : ExternalJobRecord) : Prop where
  identity : job'.toExternalJobInput = job.toExternalJobInput
  effect : ∀ known ∈ job.sideEffectRef, job'.sideEffectRef = some known
  result : ∀ known ∈ job.resultDigest, job'.resultDigest = some known
  settled : isSettled job.stage → job'.stage = job.stage
  readback : job.stage = .readbackRequired →
    job'.stage = .readbackRequired ∨ job'.stage = .reconciled
  passed : ¬ mayRun job.stage → ¬ mayRun job'.stage

theorem Continues.refl (job : ExternalJobRecord) : Continues job job where
  identity := rfl
  effect _ known := known
  result _ known := known
  settled _ := rfl
  readback := .inl
  passed := id

theorem Continues.trans {job job' job'' : ExternalJobRecord} (first : Continues job job')
    (second : Continues job' job'') : Continues job job'' where
  identity := second.identity.trans first.identity
  effect known member := second.effect known (first.effect known member)
  result known member := second.result known (first.result known member)
  settled settled := by
    have same := first.settled settled
    rw [second.settled (by rwa [same]), same]
  readback marked := by
    rcases first.readback marked with still | resolved
    · exact second.readback still
    · exact .inr ((second.settled (.inr (.inl resolved))).trans resolved)
  passed ran := second.passed (first.passed ran)

theorem not_changed {existing candidate : Option String} (unchanged : ¬ Changed existing candidate) :
    ∀ known ∈ existing, candidate.or existing = some known := by
  intro known member
  cases candidate with
  | none => exact member
  | some given =>
    have same : known = given := by
      by_contra different
      exact unchanged ⟨known, member, given, rfl, different⟩
    rw [Option.some_or, same]

theorem validTransition_settled {stage next : JobStage} (valid : validTransition stage next = true) :
    ¬ isSettled stage := by
  rintro (rfl | rfl | rfl | rfl) <;> cases valid

theorem validTransition_readback {next : JobStage}
    (valid : validTransition .readbackRequired next = true) : next = .reconciled := by
  cases next <;> first | rfl | cases valid

theorem validTransition_running {stage : JobStage} (valid : validTransition stage .running = true) :
    stage = .admitted := by
  cases stage <;> first | rfl | cases valid

theorem validTransition_passed {stage next : JobStage} (valid : validTransition stage next = true)
    (ran : ¬ mayRun stage) : ¬ mayRun next := by
  rintro (rfl | rfl)
  · cases stage <;> cases valid
  · cases stage <;> first | exact ran (.inl rfl) | cases valid

variable {input : ExternalJobTransitionInput} {next : JobStage} {current : ExternalJobRecord}

theorem Permitted.valid (permitted : Permitted input next current) :
    validTransition current.stage next = true := validateTransitionInput_valid permitted.stages

theorem Permitted.continues (permitted : Permitted input next current) (startedAt : Option String) :
    Continues current (advancedJob input next startedAt current) where
  identity := rfl
  effect := not_changed permitted.effect
  result := not_changed permitted.result
  settled settled := absurd settled (validTransition_settled permitted.valid)
  readback marked := by
    have valid := permitted.valid
    rw [marked] at valid
    exact .inr (validTransition_readback valid)
  passed := validTransition_passed permitted.valid

theorem isSome_or {existing candidate : Option String} (known : ¬ (existing = none ∧ candidate = none)) :
    (candidate.or existing).isSome = true := by
  cases candidate with
  | some given => rfl
  | none =>
    cases existing with
    | some known => rfl
    | none => exact absurd ⟨rfl, rfl⟩ known

theorem Permitted.formed (permitted : Permitted input next current) (startedAt : Option String) :
    Formed (advancedJob input next startedAt current) where
  reconciliation := rfl
  resolved stage := isSome_or fun unknown => permitted.resolved ⟨stage, unknown⟩
  readback stage := isSome_or fun unknown => permitted.readback ⟨stage, unknown⟩

theorem registeredJob_formed (input : ExternalJobInput) : Formed (registeredJob input) where
  reconciliation := rfl
  resolved stage := by rcases stage with stage | stage <;> cases stage
  readback stage := by cases stage

theorem mem_afterAdvance (ordered : Ordered jobs) (member : current ∈ jobs)
    (permitted : Permitted input next current) {job : ExternalJobRecord} :
    job ∈ afterAdvance input next current jobs ↔
      job ∈ jobs ∧ job ≠ current ∨
        job = advancedJob input next (current.startedAt.or (some input.at_)) current := by
  have alone : ∀ other ∈ jobs, other.jobId = input.jobId → other = current := fun other there same =>
    List.inj_on_of_nodup_map ordered.ids there member (same.trans permitted.job.symm)
  constructor
  · intro written
    obtain ⟨other, there, rfl⟩ := List.mem_map.mp written
    split_ifs with own
    · obtain rfl := alone other there own.2.1
      exact .inr rfl
    · refine .inl ⟨there, ?_⟩
      rintro rfl
      exact own ⟨permitted.project, permitted.job, rfl⟩
  · rintro (⟨there, different⟩ | rfl)
    · refine List.mem_map.mpr ⟨job, there, if_neg fun own => ?_⟩
      exact different (alone job there own.2.1)
    · exact List.mem_map.mpr ⟨current, member, if_pos ⟨permitted.project, permitted.job, rfl⟩⟩

theorem map_afterAdvance {α : Type} (f : ExternalJobRecord → α)
    (keeps : ∀ startedAt job, f (advancedJob input next startedAt job) = f job) :
    (afterAdvance input next current jobs).map f = jobs.map f := by
  rw [afterAdvance, List.map_map]
  refine List.map_congr_left fun job _ => ?_
  rw [Function.comp_apply]
  split_ifs
  · exact keeps _ job
  · rfl

theorem JobStep.ordered (step : JobStep jobs jobs') (ordered : Ordered jobs) : Ordered jobs' := by
  cases step with
  | same => exact ordered
  | added input operation job =>
    constructor
    · rw [List.map_append, List.map_singleton]
      exact List.nodup_append.mpr ⟨ordered.ids, List.nodup_singleton _,
        fun id known _ new same => job (List.mem_singleton.mp new ▸ same ▸ known)⟩
    · rw [List.map_append, List.map_singleton]
      exact List.nodup_append.mpr ⟨ordered.operations, List.nodup_singleton _,
        fun id known _ new same => operation (List.mem_singleton.mp new ▸ same ▸ known)⟩
    · intro job member
      rcases List.mem_append.mp member with old | new
      · exact ordered.formed job old
      · rw [List.mem_singleton.mp new]
        exact registeredJob_formed input
  | advanced member permitted =>
    constructor
    · rw [map_afterAdvance _ fun _ _ => rfl]
      exact ordered.ids
    · rw [map_afterAdvance _ fun _ _ => rfl]
      exact ordered.operations
    · intro job written
      rcases (mem_afterAdvance ordered member permitted).mp written with ⟨old, _⟩ | rfl
      · exact ordered.formed job old
      · exact permitted.formed _

theorem JobStep.continues (step : JobStep jobs jobs') (ordered : Ordered jobs) :
    ∀ job ∈ jobs, ∃ job' ∈ jobs', Continues job job' := by
  intro job member
  cases step with
  | same => exact ⟨job, member, .refl job⟩
  | added => exact ⟨job, List.mem_append_left _ member, .refl job⟩
  | @advanced input next current there permitted =>
    by_cases own : job = current
    · subst own
      exact ⟨_, (mem_afterAdvance ordered there permitted).mpr (.inr rfl), permitted.continues _⟩
    · exact ⟨job, (mem_afterAdvance ordered there permitted).mpr (.inl ⟨member, own⟩), .refl job⟩

theorem JobStep.starts (step : JobStep jobs jobs') (ordered : Ordered jobs)
    {job' : ExternalJobRecord} (member : job' ∈ jobs') (running : job'.stage = .running)
    (idle : ∀ job ∈ jobs, job.jobId = job'.jobId → job.stage ≠ .running) :
    ∀ job ∈ jobs, job.jobId = job'.jobId → mayRun job.stage := by
  intro job there same
  cases step with
  | same => exact absurd running (idle job' member rfl)
  | added input =>
    rcases List.mem_append.mp member with old | new
    · exact absurd running (idle job' old rfl)
    · rw [List.mem_singleton.mp new] at running
      cases running
  | @advanced input next current before permitted =>
    rcases (mem_afterAdvance ordered before permitted).mp member with ⟨old, _⟩ | rfl
    · exact absurd running (idle job' old rfl)
    · obtain rfl := List.inj_on_of_nodup_map ordered.ids there before same
      have valid := permitted.valid
      rw [show next = .running from running] at valid
      exact .inr (validTransition_running valid)

end Life

section Runs
open Machines

def SameSurroundings (store store' : JobStore) : Prop :=
  store' = { store with rows.jobs := store'.rows.jobs }

theorem SameSurroundings.subject {later : JobStore} (same : SameSurroundings store later)
    (input : ExternalJobInput) : validateJobSubject later input = validateJobSubject store input := by
  rw [same]
  rfl

theorem SameSurroundings.authorised {later : JobStore} (same : SameSurroundings store later)
    (context : IdentityContext) (input : ExternalJobInput) :
    validateJobAuthority authority later context input =
      validateJobAuthority authority store context input := by
  rw [same]
  rfl

/-- What a run knows of the rows. -/
structure Reaches (store store' : JobStore) : Prop where
  surroundings : SameSurroundings store store'
  ordered : Ordered store'.rows.jobs
  continues : ∀ job ∈ store.rows.jobs, ∃ job' ∈ store'.rows.jobs, Continues job job'

theorem jobCall_reaches (ordered : Ordered store.rows.jobs) (call : JobCall) :
    Reaches store (jobCall authority store call).2 := by
  rcases jobCall_outcome authority store call with ⟨error, failed⟩ | ⟨answer, after, done, performed⟩
  · rw [failed]
    exact ⟨rfl, ordered, fun job member => ⟨job, member, .refl job⟩⟩
  · rw [done]
    obtain ⟨step, same⟩ := performed.step
    exact ⟨same, step.ordered ordered, step.continues ordered⟩

theorem SameSurroundings.trans {store store' store'' : JobStore} (first : SameSurroundings store store')
    (second : SameSurroundings store' store'') : SameSurroundings store store'' := by
  unfold SameSurroundings at first second ⊢
  rw [second, first]

theorem Reaches.trans {store store' store'' : JobStore} (first : Reaches store store')
    (second : Reaches store' store'') : Reaches store store'' where
  surroundings := first.surroundings.trans second.surroundings
  ordered := second.ordered
  continues job member := by
    obtain ⟨job', member', continues⟩ := first.continues job member
    obtain ⟨job'', member'', later⟩ := second.continues job' member'
    exact ⟨job'', member'', continues.trans later⟩

theorem final_reaches (ordered : Ordered store.rows.jobs) (calls : List JobCall) :
    Reaches store (final (jobCall authority) store calls) := by
  induction calls generalizing store with
  | nil => exact ⟨rfl, ordered, fun job member => ⟨job, member, .refl job⟩⟩
  | cons call calls ih =>
    have first : Reaches store (jobCall authority store call).2 := jobCall_reaches ordered call
    exact first.trans (ih first.ordered)

def EntersRunning (authority : Authority) (jobId : String)
    (entry : Entry JobStore JobCall (Except StoreError JobAnswer)) : Prop :=
  (∃ job ∈ (entry.after (jobCall authority)).rows.jobs, job.jobId = jobId ∧ job.stage = .running) ∧
    ∀ job ∈ entry.before.rows.jobs, job.jobId = jobId → job.stage ≠ .running

instance (authority : Authority) (jobId : String) : DecidablePred (EntersRunning authority jobId) :=
  fun _ => inferInstanceAs (Decidable (_ ∧ _))

theorem runs_once (ordered : Ordered store.rows.jobs) (jobId : String) (calls : List JobCall) :
    ((history (jobCall authority) store calls).filter (EntersRunning authority jobId)).length ≤ 1 := by
  refine history_once (I := fun store => Ordered store.rows.jobs)
    (P := fun store => ∃ job ∈ store.rows.jobs, job.jobId = jobId ∧ ¬ mayRun job.stage)
    (fun s call ordered => (jobCall_reaches ordered call).ordered) ?_ ?_ ordered calls
  · rintro s call ordered ⟨job, member, own, ran⟩
    obtain ⟨job', member', continues⟩ := (jobCall_reaches ordered call).continues job member
    have identity := congrArg ExternalJobInput.jobId continues.identity
    exact ⟨job', member', identity.trans own, continues.passed ran⟩
  · rintro s call ordered ⟨⟨job, member, own, running⟩, idle⟩
    have step : JobStep s.rows.jobs (jobCall authority s call).2.rows.jobs := by
      rcases jobCall_outcome authority s call with ⟨error, failed⟩ | ⟨answer, after, done, performed⟩
      · rw [failed]
        exact .same
      · rw [done]
        exact performed.step.1
    have starts := step.starts ordered member running fun job there same =>
      idle job there (same.trans own)
    constructor
    · rintro ⟨before, there, same, ran⟩
      exact ran (starts before there (same.trans own.symm))
    · refine ⟨job, member, own, ?_⟩
      rintro (other | other) <;> rw [running] at other <;> cases other

/-- The same request made at another time. -/
def ExternalJobInput.again (input : ExternalJobInput) (createdAt : String) : ExternalJobInput :=
  { input with createdAt := createdAt }

variable {input : ExternalJobInput}

theorem Registered.row {registration : ExternalJobRegistration}
    (registered : Registered store input registration store') :
    ∃ job ∈ store'.rows.jobs, job.operationId = input.operationId ∧ SameRequest job input := by
  cases registered with
  | @replayed existing known same =>
    simp only [externalJobByOperationRow, check_eq_ok] at known
    have found := Except.ok.inj known.2.2
    have own := List.find?_some found
    exact ⟨existing, List.mem_of_find?_eq_some found, (of_decide_eq_true own).2, same⟩
  | added =>
    refine ⟨registeredJob input, List.mem_append_right _ (List.mem_singleton_self _), rfl, ?_⟩
    exact ⟨rfl, rfl, rfl, rfl, rfl, rfl, rfl, rfl, rfl, rfl, rfl⟩

theorem SameRequest.kept {job job' : ExternalJobRecord}
    (same : SameRequest job input) (identity : job'.toExternalJobInput = job.toExternalJobInput) :
    SameRequest job' input := by
  unfold SameRequest at same ⊢
  rw [identity]
  exact same

theorem validateInput_again {createdAt : String}
    (valid : validateInput input = .ok ()) (dated : isBlank createdAt = false) :
    validateInput (input.again createdAt) = .ok () := by
  simp only [validateInput, requireText, forM_eq_ok, refuse_eq_ok, List.forall_mem_cons] at valid ⊢
  obtain ⟨job, operation, project, subjectType, subjectId, kind, digest, actor, _, none⟩ := valid
  exact ⟨job, operation, project, subjectType, subjectId, kind, digest, actor,
    Bool.eq_false_iff.mp dated, none⟩

variable {job : ExternalJobRecord}

theorem registerExternalJobRow_again {registration : ExternalJobRegistration}
    {after : JobStore} (createdAt : String) (ordered : Ordered store'.rows.jobs)
    (registered : registerExternalJobRow store input = .ok (registration, after))
    (member : job ∈ store'.rows.jobs) (own : job.operationId = input.operationId)
    (same : SameRequest job input) :
    registerExternalJobRow store' (input.again createdAt) = .ok (⟨job, true⟩, store') := by
  obtain ⟨found, read, _⟩ := bind_eq_ok.mp registered
  simp only [externalJobByOperationRow, check_eq_ok] at read
  have known : externalJobByOperationRow store' input.projectId input.operationId =
      .ok (some job) := by
    simp only [externalJobByOperationRow, check_eq_ok]
    refine ⟨read.1, read.2.1, congrArg Except.ok ?_⟩
    refine Lookup.find?_of_alone member (decide_eq_true ⟨same.2.1, own⟩) fun other there matches_ => ?_
    refine List.inj_on_of_nodup_map ordered.operations there member ?_
    exact (of_decide_eq_true matches_).2.trans own.symm
  refine bind_eq_ok.mpr ⟨some job, known, ?_⟩
  exact check_eq_ok.mpr ⟨refuse_of_not (not_not.mpr same), rfl⟩

variable {context : Option IdentityContext}

theorem register_again {answer : JobAnswer} {after later : JobStore} {createdAt : String}
    (registered : jobCall authority store (.register context input) = (.ok answer, after))
    (ordered : Ordered store.rows.jobs) (reaches : Reaches after later)
    (dated : isBlank createdAt = false) :
    ∃ job ∈ later.rows.jobs, job.operationId = input.operationId ∧ SameRequest job input ∧
      jobCall authority later (.register context (input.again createdAt)) =
        (.ok (.registration ⟨job, true⟩), later) := by
  have surroundings : SameSurroundings store later := by
    have first : Reaches store (jobCall authority store (.register context input)).2 :=
      jobCall_reaches ordered _
    rw [registered] at first
    exact first.surroundings.trans reaches.surroundings
  have performed : performCall authority store (.register context input) = .ok (answer, after) := by
    rw [jobCall] at registered
    split at registered
    · next found =>
        obtain ⟨same, rfl⟩ := Prod.mk.inj registered
        rw [found, Except.ok.inj same]
    · cases (Prod.mk.inj registered).1
  suffices again : ∃ job ∈ later.rows.jobs, job.operationId = input.operationId ∧
      SameRequest job input ∧ performCall authority later (.register context (input.again createdAt)) =
        .ok (.registration ⟨job, true⟩, later) by
    obtain ⟨job, member, own, same, performed⟩ := again
    exact ⟨job, member, own, same, by rw [jobCall, performed]⟩
  have stored : ∀ registration, Registered store input registration after →
      ∃ job ∈ later.rows.jobs, job.operationId = input.operationId ∧ SameRequest job input := by
    intro registration registered
    obtain ⟨before, there, own, same⟩ := registered.row
    obtain ⟨job, member, continues⟩ := reaches.continues before there
    have identity := continues.identity
    exact ⟨job, member, (congrArg ExternalJobInput.operationId identity).trans own, same.kept identity⟩
  -- the guards read nothing that a call writes
  cases context with
  | none =>
    obtain ⟨⟨registration, _⟩, registers, same⟩ := map_eq_ok.mp performed
    obtain ⟨rfl, rfl⟩ := Prod.mk.inj same
    obtain ⟨job, member, own, request⟩ := stored _ (registerExternalJob_eq_ok registers)
    simp only [registerExternalJob, check_eq_ok] at registers
    obtain ⟨valid, compatible, subject, registers⟩ := registers
    refine ⟨job, member, own, request, map_eq_ok.mpr ⟨(⟨job, true⟩, later), ?_, rfl⟩⟩
    simp only [registerExternalJob, check_eq_ok]
    refine ⟨validateInput_again valid dated, compatible, ?_, ?_⟩
    · exact (surroundings.subject _).trans subject
    · exact registerExternalJobRow_again createdAt reaches.ordered registers member own request
  | some context =>
    obtain ⟨⟨registration, _⟩, registers, same⟩ := map_eq_ok.mp performed
    obtain ⟨rfl, rfl⟩ := Prod.mk.inj same
    obtain ⟨job, member, own, request⟩ := stored _ (registerExternalJobWithIdentity_eq_ok registers)
    simp only [registerExternalJobWithIdentity, check_eq_ok] at registers
    obtain ⟨valid, project, authorised, subject, registers⟩ := registers
    refine ⟨job, member, own, request, map_eq_ok.mpr ⟨(⟨job, true⟩, later), ?_, rfl⟩⟩
    simp only [registerExternalJobWithIdentity, check_eq_ok]
    refine ⟨validateInput_again valid dated, project, ?_, ?_, ?_⟩
    · exact (surroundings.authorised context _).trans authorised
    · exact (surroundings.subject _).trans subject
    · exact registerExternalJobRow_again createdAt reaches.ordered registers member own request

theorem register_reused (ordered : Ordered store.rows.jobs) (member : job ∈ store.rows.jobs)
    (own : job.operationId = input.operationId) (other : ¬ SameRequest job input) :
    ∃ error, jobCall authority store (.register context input) = (.error error, store) := by
  cases performed : performCall authority store (.register context input) with
  | error error => exact ⟨error, by rw [jobCall, performed]⟩
  | ok result =>
    obtain ⟨answer, after⟩ := result
    obtain ⟨registration, _, registered⟩ := register_eq_ok performed
    cases registered with
    | @replayed existing known same =>
      simp only [externalJobByOperationRow, check_eq_ok] at known
      have found := Except.ok.inj known.2.2
      have here := List.find?_some found
      obtain rfl := List.inj_on_of_nodup_map ordered.operations
        (List.mem_of_find?_eq_some found) member ((of_decide_eq_true here).2.trans own.symm)
      exact absurd same other
    | added operation _ => exact absurd (List.mem_map.mpr ⟨job, member, own⟩) operation

theorem advance_stale {input : ExternalJobTransitionInput}
    (ordered : Ordered store.rows.jobs) (member : job ∈ store.rows.jobs)
    (own : job.jobId = input.jobId) (stale : requireJobStage input.expectedStage ≠ .ok job.stage) :
    ∃ error, jobCall authority store (.advance context input) = (.error error, store) := by
  cases performed : performCall authority store (.advance context input) with
  | error error => exact ⟨error, by rw [jobCall, performed]⟩
  | ok result =>
    obtain ⟨current, answer, next, _, advanced⟩ := advance_eq_ok performed
    obtain rfl := List.inj_on_of_nodup_map ordered.ids advanced.member member
      (advanced.permitted.job.trans own.symm)
    exact absurd (validateTransitionInput_expected advanced.permitted.stages) stale

/-- The life of every job over the runs from `start`. -/
structure JobLifecycle (authority : Authority) (start : JobStore) (calls : List JobCall) : Prop where
  formed : ∀ job ∈ (final (jobCall authority) start calls).rows.jobs, Formed job
  ids : ((final (jobCall authority) start calls).rows.jobs.map (·.jobId)).Nodup
  kept : ∀ earlier later, calls = earlier ++ later →
    ∀ job ∈ (final (jobCall authority) start earlier).rows.jobs,
      ∃ job' ∈ (final (jobCall authority) start calls).rows.jobs, Continues job job'
  once : ∀ jobId,
    ((history (jobCall authority) start calls).filter (EntersRunning authority jobId)).length ≤ 1
  failed : ∀ entry ∈ history (jobCall authority) start calls, ∀ error,
    entry.answer = .error error → entry.after (jobCall authority) = entry.before
  repeated : ∀ entry ∈ history (jobCall authority) start calls, ∀ context input answer createdAt,
    entry.call = .register context input → entry.answer = .ok answer → isBlank createdAt = false →
      ∃ job ∈ (final (jobCall authority) start calls).rows.jobs,
        job.operationId = input.operationId ∧ SameRequest job input ∧
          jobCall authority (final (jobCall authority) start calls)
              (.register context (input.again createdAt)) =
            (.ok (.registration ⟨job, true⟩), final (jobCall authority) start calls)
  reused : ∀ job ∈ (final (jobCall authority) start calls).rows.jobs, ∀ context input,
    job.operationId = input.operationId → ¬ SameRequest job input →
      ∃ error, jobCall authority (final (jobCall authority) start calls) (.register context input) =
        (.error error, final (jobCall authority) start calls)
  stale : ∀ job ∈ (final (jobCall authority) start calls).rows.jobs, ∀ context input,
    job.jobId = input.jobId → requireJobStage input.expectedStage ≠ .ok job.stage →
      ∃ error, jobCall authority (final (jobCall authority) start calls) (.advance context input) =
        (.error error, final (jobCall authority) start calls)

/-- From a store without jobs, every run of calls keeps the life of every job in order. -/
theorem external_job_lifecycle (authority : Authority) (start : JobStore)
    (empty : start.rows.jobs = []) (calls : List JobCall) : JobLifecycle authority start calls := by
  have ordered : Ordered start.rows.jobs := by
    rw [empty]
    exact ⟨List.nodup_nil, List.nodup_nil, List.forall_mem_nil _⟩
  have reached : Reaches start (final (jobCall authority) start calls) := final_reaches ordered calls
  constructor
  · exact reached.ordered.formed
  · exact reached.ordered.ids
  · rintro earlier later rfl
    rw [final_append]
    have first : Reaches start (final (jobCall authority) start earlier) := final_reaches ordered earlier
    exact (final_reaches first.ordered later).continues
  · exact fun jobId => runs_once ordered jobId calls
  · intro entry member error failed
    rw [history_answer member] at failed
    rcases jobCall_outcome authority entry.before entry.call with ⟨_, unchanged⟩ | ⟨_, _, done, _⟩
    · rw [Entry.after, unchanged]
    · rw [done] at failed
      cases failed
  · intro entry member context input answer createdAt asked answered dated
    obtain ⟨earlier, call, later, rfl, rfl⟩ := mem_history.mp member
    obtain rfl : call = .register context input := asked
    have before : Reaches start (final (jobCall authority) start earlier) := final_reaches ordered earlier
    rw [final_append, final_cons]
    refine register_again (Prod.ext answered rfl) before.ordered ?_ dated
    exact final_reaches (jobCall_reaches before.ordered _).ordered later
  · exact fun job member context input => register_reused reached.ordered member
  · exact fun job member context input => advance_stale reached.ordered member

def unboundAuthority : Authority where
  canonicalProduction := false
  workModelV3Enabled := true
  schemaVersion := 2
  actors := fun _ => none
  principals := fun _ _ => none
  sessions := []
  sessionBindings := []
  identityTablesInstalled := false
  databaseIdentity := none
  projectIdentities := fun _ => none
  evidenceExecutions := fun _ => none

def jobStore : JobStore where
  revisions := fun project => if project = "project-1" then some 0 else none
  operations := []
  operationIdentities := []
  audits := []
  rows := ⟨fun _ => none, []⟩

def verifierJob : ExternalJobInput :=
  ⟨"job-1", "op-1", "project-1", "operation", "op-1", "verifier", "sha256:request", none, none,
    "agent-1", none, none, "2026-01-01T00:00:00Z"⟩

def advanceVerifier (expected next : String) : JobCall :=
  .advance none ⟨"project-1", "job-1", expected, next, "2026-01-01T00:01:00Z", none, none, none⟩

def lostResult : List JobCall :=
  [.register none verifierJob, advanceVerifier "registered" "admitted",
    advanceVerifier "admitted" "running", advanceVerifier "admitted" "running",
    advanceVerifier "running" "side_effect_started",
    .markReadbackRequired "project-1" "job-1" "run-1" "2026-01-01T00:02:00Z",
    .register none verifierJob]

theorem lostResult_lifecycle : JobLifecycle unboundAuthority jobStore lostResult :=
  external_job_lifecycle unboundAuthority jobStore rfl lostResult

example : (final (jobCall unboundAuthority) jobStore lostResult).rows.jobs.map
    (fun job => (job.stage, job.sideEffectRef)) = [(.readbackRequired, some "run-1")] := by
  decide +kernel

end Runs

end Boreal.Store.Jobs
