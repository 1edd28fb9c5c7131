/- The dispatch queue of the service host: a bounded queue with a control lane, and what every run of
pushes, pops and a close keeps. -/
import BorealWork.Library.Machines

namespace Boreal.Service
open Machines

/-- Why a local operation cannot be accepted yet. -/
inductive BusyOutcome
  | writerQueueFull (capacity depth retryAfterMs : ℕ)
  | readPoolFull (capacity depth retryAfterMs : ℕ)
  | dispatchQueueFull (capacity depth retryAfterMs : ℕ)
  | projectAlreadyOwned (projectId : String) (ownerId : Option String)
  deriving DecidableEq

inductive EnqueueError
  | busy (outcome : BusyOutcome)
  | closed
  | ticketExhausted
  deriving DecidableEq

inductive QueueConfigError
  | zeroCapacity
  | controlReserveExceedsCapacity
  deriving DecidableEq

section Queue

inductive QueuePriority
  | control
  | normal
  deriving DecidableEq

structure PrioritizedItem (α : Type) where
  ticket : ℕ
  item : α
  deriving DecidableEq

structure QueueState (α : Type) where
  nextTicket : ℕ
  control : List (PrioritizedItem α)
  normal : List (PrioritizedItem α)
  consecutiveControl : ℕ
  closed : Bool
  deriving DecidableEq

/-- The bounds of a queue; a queue with other bounds cannot be built. -/
structure PriorityQueue where
  capacity : ℕ
  controlReserve : ℕ
  capacity_pos : 0 < capacity
  reserve_le : controlReserve ≤ capacity

def maxControlBurst : ℕ := 8

variable {α : Type}

def emptyQueue : QueueState α := ⟨0, [], [], 0, false⟩

def withCapacityAndControlReserve (capacity controlReserve : ℕ) :
    Except QueueConfigError PriorityQueue :=
  if positive : 0 < capacity then
    if fits : controlReserve ≤ capacity then .ok ⟨capacity, controlReserve, positive, fits⟩
    else .error .controlReserveExceedsCapacity
  else .error .zeroCapacity

namespace QueueState

variable (state : QueueState α)

def lane : QueuePriority → List (PrioritizedItem α)
  | .control => state.control
  | .normal => state.normal

def len : ℕ := state.control.length + state.normal.length

/-- Control work goes first, unless a burst of it has kept normal work waiting. -/
def chooseControl : Bool :=
  !state.control.isEmpty && (state.normal.isEmpty || state.consecutiveControl < maxControlBurst)

end QueueState

variable (queue : PriorityQueue)

/-- Normal work leaves the reserved slots free. -/
def PriorityQueue.limit : QueuePriority → ℕ
  | .control => queue.capacity
  | .normal => queue.capacity - queue.controlReserve

def pushBack (state : QueueState α) (queued : PrioritizedItem α) : QueuePriority → QueueState α
  | .control => { state with nextTicket := queued.ticket, control := state.control ++ [queued] }
  | .normal => { state with nextTicket := queued.ticket, normal := state.normal ++ [queued] }

def tryPushRecoverable (state : QueueState α) (item : α) (priority : QueuePriority) :
    Except (EnqueueError × α) ℕ × QueueState α :=
  if state.closed then (.error (.closed, item), state)
  else if queue.limit priority ≤ state.len then
    (.error (.busy (.writerQueueFull queue.capacity state.len 1), item), state)
  else if 2 ^ 64 ≤ state.nextTicket + 1 then (.error (.ticketExhausted, item), state)
  else (.ok (state.nextTicket + 1), pushBack state ⟨state.nextTicket + 1, item⟩ priority)

/-- A pop returns an item, or nothing once the closed queue is empty; otherwise it waits. -/
inductive Popped (α : Type)
  | some (queued : PrioritizedItem α)
  | none
  | waits
  deriving DecidableEq

/-- The counter of control items wraps at the width of a machine word. -/
def pop (state : QueueState α) : Popped α × QueueState α :=
  match state.control, state.chooseControl with
  | queued :: control, true =>
    (.some queued, { state with control, consecutiveControl := (state.consecutiveControl + 1) % 2 ^ 64 })
  | _, _ => match state.normal with
      | queued :: normal => (.some queued, { state with normal, consecutiveControl := 0 })
      | [] => (if state.closed then .none else .waits, state)

def close (state : QueueState α) : QueueState α := { state with closed := true }

end Queue

section Calls

variable {α : Type} (queue : PriorityQueue)

def defaultControlReserve : ℕ := 1

def withCapacity (capacity : ℕ) : Except QueueConfigError PriorityQueue :=
  withCapacityAndControlReserve capacity (min defaultControlReserve capacity)

/-- A call of the queue; the mutex makes each of them one step. -/
inductive Call (α : Type)
  | push (item : α) (priority : QueuePriority)
  | pop
  | close

inductive Answer (α : Type)
  | pushed (outcome : Except (EnqueueError × α) ℕ)
  | popped (outcome : Popped α)
  | closed

def step (state : QueueState α) : Call α → Answer α × QueueState α
  | .push item priority =>
    let (outcome, state) := tryPushRecoverable queue state item priority
    (.pushed outcome, state)
  | .pop => let (outcome, state) := pop state
            (.popped outcome, state)
  | .close => (.closed, close state)

abbrev Turn (α : Type) := Entry (QueueState α) (Call α) (Answer α)

def accepted : Turn α → Option (QueuePriority × PrioritizedItem α)
  | ⟨_, .push item priority, .pushed (.ok ticket)⟩ => some (priority, ⟨ticket, item⟩)
  | _ => none

def popped : Turn α → Option (QueuePriority × PrioritizedItem α)
  | ⟨before, _, .popped (.some queued)⟩ =>
    some (if before.chooseControl then .control else .normal, queued)
  | _ => none

/-- Control work taken while normal work was waiting. -/
def overtakes (turn : Turn α) : Bool :=
  match popped turn with
  | some (.control, _) => !turn.before.normal.isEmpty
  | _ => false

def isPop : Call α → Bool
  | .pop => true
  | _ => false

def ofLane (lane : QueuePriority) (items : List (QueuePriority × PrioritizedItem α)) :
    List (PrioritizedItem α) :=
  (items.filter (·.1 = lane)).map (·.2)

end Calls

section Steps

variable {α : Type} {queue : PriorityQueue} {state : QueueState α}

theorem len_pushBack (queued : PrioritizedItem α) (priority : QueuePriority) :
    (pushBack state queued priority).len = state.len + 1 := by
  cases priority with
  | control => simp only [pushBack, QueueState.len, List.length_append, List.length_singleton]; omega
  | normal => simp only [pushBack, QueueState.len, List.length_append, List.length_singleton]; omega

theorem lane_pushBack (queued : PrioritizedItem α) (priority lane : QueuePriority) :
    (pushBack state queued priority).lane lane =
      state.lane lane ++ if priority = lane then [queued] else [] := by
  cases priority <;> cases lane <;> simp [pushBack, QueueState.lane]

theorem tryPushRecoverable_cases (queue : PriorityQueue) (state : QueueState α) (item : α)
    (priority : QueuePriority) :
    (∃ error, tryPushRecoverable queue state item priority = (.error (error, item), state)) ∨
      state.closed = false ∧ state.len < queue.limit priority ∧
        tryPushRecoverable queue state item priority =
          (.ok (state.nextTicket + 1), pushBack state ⟨state.nextTicket + 1, item⟩ priority) := by
  unfold tryPushRecoverable
  split_ifs with closed full exhausted
  · exact .inl ⟨_, rfl⟩
  · exact .inl ⟨_, rfl⟩
  · exact .inl ⟨_, rfl⟩
  · exact .inr ⟨Bool.eq_false_iff.mpr closed, not_le.mp full, rfl⟩

/-- Everything a pop can do. -/
inductive PopSpec (state : QueueState α) : Popped α × QueueState α → Prop
  | control {queued control} (front : state.control = queued :: control)
      (chosen : state.chooseControl = true)
      (burst : state.normal = [] ∨ state.consecutiveControl < maxControlBurst) :
      PopSpec state (.some queued, { state with
        control, consecutiveControl := (state.consecutiveControl + 1) % 2 ^ 64 })
  | normal {queued normal} (front : state.normal = queued :: normal)
      (chosen : state.chooseControl = false) :
      PopSpec state (.some queued, { state with normal, consecutiveControl := 0 })
  | none (closed : state.closed = true) (empty : state.len = 0) : PopSpec state (.none, state)
  | waits (opened : state.closed = false) (empty : state.len = 0) : PopSpec state (.waits, state)

theorem pop_spec (state : QueueState α) : PopSpec state (pop state) := by
  obtain ⟨nextTicket, control, normal, consecutive, closed⟩ := state
  cases control with
  | nil => cases normal with
    | nil => cases closed with
      | false => exact .waits rfl rfl
      | true => exact .none rfl rfl
    | cons queued normal => exact .normal rfl rfl
  | cons queued control => cases normal with
    | nil => exact .control rfl rfl (.inl rfl)
    | cons first normal =>
      by_cases burst : consecutive < maxControlBurst
      · have chosen : QueueState.chooseControl
            ⟨nextTicket, queued :: control, first :: normal, consecutive, closed⟩ = true := by
          simp [QueueState.chooseControl, burst]
        simp only [pop, chosen]
        exact .control rfl chosen (.inr burst)
      · have chosen : QueueState.chooseControl
            ⟨nextTicket, queued :: control, first :: normal, consecutive, closed⟩ = false := by
          simp [QueueState.chooseControl, burst]
        simp only [pop, chosen]
        exact .normal rfl chosen

end Steps

section Ledgers

variable {α : Type} {queue : PriorityQueue} {history : List (Turn α)} {state : QueueState α}

theorem ofLane_append (lane : QueuePriority) (items more : List (QueuePriority × PrioritizedItem α)) :
    ofLane lane (items ++ more) = ofLane lane items ++ ofLane lane more := by
  unfold ofLane
  rw [List.filter_append, List.map_append]

@[simp] theorem ofLane_nil (lane : QueuePriority) :
    ofLane lane ([] : List (QueuePriority × PrioritizedItem α)) = [] := rfl

theorem ofLane_singleton (lane priority : QueuePriority) (queued : PrioritizedItem α) :
    ofLane lane [(priority, queued)] = if priority = lane then [queued] else [] := by
  unfold ofLane
  by_cases same : priority = lane
  · simp [same]
  · simp [same]

theorem ofLane_perm (items : List (QueuePriority × PrioritizedItem α)) :
    (ofLane .control items ++ ofLane .normal items).Perm (items.map (·.2)) := by
  unfold ofLane
  rw [← List.map_append]
  apply List.Perm.map
  have complement : items.filter (·.1 = QueuePriority.normal) =
      items.filter (fun item => !decide (item.1 = QueuePriority.control)) := by
    apply List.filter_congr
    rintro ⟨lane, queued⟩ -
    cases lane <;> rfl
  rw [complement]
  exact List.filter_append_perm _ _

/-- What the history of a queue and the state after it keep: each lane holds what it accepted and
has not handed out, tickets count upwards, and the depth stays within the bounds. -/
structure Ledger (queue : PriorityQueue) (history : List (Turn α)) (state : QueueState α) : Prop where
  conserved : ∀ lane, ofLane lane (history.filterMap accepted) =
    ofLane lane (history.filterMap popped) ++ state.lane lane
  numbered : (history.filterMap accepted).Pairwise (·.2.ticket < ·.2.ticket)
  issued : ∀ item ∈ history.filterMap accepted, item.2.ticket ≤ state.nextTicket
  bounded : state.len ≤ queue.capacity

theorem ledger_empty : Ledger queue [] (emptyQueue : QueueState α) :=
  { conserved := fun lane => by cases lane <;> rfl
    numbered := List.Pairwise.nil
    issued := by simp
    bounded := Nat.zero_le _ }

theorem PriorityQueue.limit_le (queue : PriorityQueue) (priority : QueuePriority) :
    queue.limit priority ≤ queue.capacity := by
  cases priority with
  | control => exact le_refl _
  | normal => exact Nat.sub_le _ _

theorem filterMap_turn {β : Type} (read : Turn α → Option β) (history : List (Turn α)) (turn : Turn α) :
    (history ++ [turn]).filterMap read = history.filterMap read ++ (read turn).toList := by
  rw [List.filterMap_append, List.filterMap_cons]
  cases read turn <;> rfl

theorem Ledger.extend (ledger : Ledger queue history state) {turn : Turn α} {after : QueueState α}
    (balance : ∀ lane, state.lane lane ++ ofLane lane (accepted turn).toList =
      ofLane lane (popped turn).toList ++ after.lane lane)
    (fresh : ∀ item ∈ accepted turn,
      state.nextTicket < item.2.ticket ∧ item.2.ticket ≤ after.nextTicket)
    (later : state.nextTicket ≤ after.nextTicket) (bounded : after.len ≤ queue.capacity) :
    Ledger queue (history ++ [turn]) after := by
  refine ⟨fun lane => ?_, ?_, ?_, bounded⟩
  · rw [filterMap_turn, filterMap_turn, ofLane_append, ofLane_append, ledger.conserved,
      List.append_assoc, List.append_assoc, balance]
  · rw [filterMap_turn, List.pairwise_append]
    refine ⟨ledger.numbered, ?_, ?_⟩
    · cases accepted turn <;> simp
    · intro old oldMember item member
      have before := ledger.issued old oldMember
      have next := (fresh item (Option.mem_toList.mp member)).1
      exact before.trans_lt next
  · intro item member
    rw [filterMap_turn, List.mem_append] at member
    rcases member with member | member
    · exact (ledger.issued item member).trans later
    · exact (fresh item (Option.mem_toList.mp member)).2

theorem Ledger.push (ledger : Ledger queue history state) (item : α) (priority : QueuePriority) :
    Ledger queue (history ++ [entry (step queue) state (.push item priority)])
      (step queue state (.push item priority)).2 := by
  rcases tryPushRecoverable_cases queue state item priority with
    ⟨error, rejected⟩ | ⟨-, room, taken⟩
  · simp only [entry, step, rejected]
    exact ledger.extend (fun lane => by simp [accepted, popped]) (by simp [accepted]) (le_refl _)
      ledger.bounded
  · simp only [entry, step, taken]
    apply ledger.extend
    · intro lane
      rw [lane_pushBack]
      simp only [accepted, popped, Option.toList_some, Option.toList_none, ofLane_singleton, ofLane_nil,
        List.nil_append]
    · rintro item ⟨⟩
      cases priority <;> exact ⟨Nat.lt_succ_self _, le_refl _⟩
    · cases priority <;> exact Nat.le_succ _
    · rw [len_pushBack]
      have within := queue.limit_le priority
      omega

theorem Ledger.pop (ledger : Ledger queue history state) :
    Ledger queue (history ++ [entry (step queue) state .pop]) (step queue state .pop).2 := by
  have bounded := ledger.bounded
  have spec := pop_spec state
  simp only [entry, step]
  generalize Service.pop state = outcome at spec ⊢
  cases spec with
  | control front chosen _ =>
    apply ledger.extend
    · intro lane
      cases lane <;> simp [accepted, popped, chosen, front, ofLane_singleton, QueueState.lane]
    · simp [accepted]
    · exact le_refl _
    · simp only [QueueState.len, front, List.length_cons] at bounded ⊢
      omega
  | normal front chosen =>
    apply ledger.extend
    · intro lane
      cases lane <;> simp [accepted, popped, chosen, front, ofLane_singleton, QueueState.lane]
    · simp [accepted]
    · exact le_refl _
    · simp only [QueueState.len, front, List.length_cons] at bounded ⊢
      omega
  | none _ _ =>
    exact ledger.extend (fun lane => by simp [accepted, popped]) (by simp [accepted]) (le_refl _) bounded
  | waits _ _ =>
    exact ledger.extend (fun lane => by simp [accepted, popped]) (by simp [accepted]) (le_refl _) bounded

theorem Ledger.step (ledger : Ledger queue history state) (call : Call α) :
    Ledger queue (history ++ [entry (step queue) state call]) (step queue state call).2 := by
  cases call with
  | push item priority => exact ledger.push item priority
  | pop => exact ledger.pop
  | close =>
    refine ledger.extend (fun lane => ?_) (by simp [entry, Service.step, accepted]) (le_refl _)
      ledger.bounded
    cases lane <;> simp [entry, Service.step, accepted, popped, close, QueueState.lane]

theorem run_ledger (queue : PriorityQueue) (calls : List (Call α)) :
    Ledger queue (Machines.history (step queue) emptyQueue calls)
      (final (step queue) emptyQueue calls) :=
  history_ledger ledger_empty calls fun _ _ call _ ledger => ledger.step call

theorem Ledger.served (ledger : Ledger queue history state) (lane : QueuePriority) :
    (ofLane lane (history.filterMap popped)).Pairwise (·.ticket < ·.ticket) := by
  have numbered : (ofLane lane (history.filterMap accepted)).Pairwise (·.ticket < ·.ticket) :=
    List.pairwise_map.mpr (ledger.numbered.filter _)
  rw [ledger.conserved lane] at numbered
  exact (List.pairwise_append.mp numbered).1

theorem Ledger.once (ledger : Ledger queue history state) :
    ((history.filterMap popped).map (·.2.ticket)).Nodup := by
  have tickets : (((history.filterMap accepted).map (·.2)).map (·.ticket)).Nodup := by
    rw [List.map_map, List.Nodup, List.pairwise_map]
    exact ledger.numbered.imp (fun less => less.ne)
  have handed : (ofLane .control (history.filterMap popped) ++
      ofLane .normal (history.filterMap popped)).Sublist
      (ofLane .control (history.filterMap accepted) ++
        ofLane .normal (history.filterMap accepted)) := by
    rw [ledger.conserved .control, ledger.conserved .normal]
    exact List.Sublist.append (List.sublist_append_left _ _) (List.sublist_append_left _ _)
  have all := ((ofLane_perm (history.filterMap accepted)).map (·.ticket)).nodup_iff.mpr tickets
  have popped := (((ofLane_perm (history.filterMap popped)).map (·.ticket)).nodup_iff).mp
    ((handed.map (·.ticket)).nodup all)
  rwa [List.map_map] at popped

end Ledgers

section Fairness

variable {α : Type} {queue : PriorityQueue}

/-- How many control items may still pass while normal work waits. The counter also runs while no
normal work is there, so it is ignored then. -/
def allowance (state : QueueState α) : ℕ :=
  if state.normal = [] then maxControlBurst else maxControlBurst - state.consecutiveControl

theorem allowance_le (state : QueueState α) : allowance state ≤ maxControlBurst := by
  unfold allowance
  split_ifs
  · exact le_refl _
  · exact Nat.sub_le _ _

theorem allowance_step (state : QueueState α) (call : Call α)
    (passed : ∀ queued, popped (entry (step queue) state call) ≠ some (.normal, queued)) :
    (overtakes (entry (step queue) state call)).toNat + allowance (step queue state call).2 ≤
      allowance state := by
  cases call with
  | push item priority =>
    rcases tryPushRecoverable_cases queue state item priority with
      ⟨error, rejected⟩ | ⟨-, -, taken⟩
    · simp [entry, step, rejected, overtakes, popped]
    · simp only [entry, step, taken, overtakes, popped, Bool.toNat_false, Nat.zero_add]
      cases priority with
      | control => exact le_refl _
      | normal =>
        simp only [allowance, pushBack, List.append_eq_nil_iff, List.cons_ne_self, and_false, if_false]
        split_ifs
        · exact Nat.sub_le _ _
        · exact le_refl _
  | pop =>
    have spec := pop_spec state
    simp only [entry, step] at passed ⊢
    generalize Service.pop state = outcome at spec passed ⊢
    cases spec with
    | control front chosen burst =>
      simp only [overtakes, popped, chosen, if_true, allowance]
      rcases burst with idle | room
      · simp [idle]
      · by_cases waiting : state.normal = []
        · simp [waiting]
        · rw [if_neg waiting, if_neg waiting, List.isEmpty_eq_false_iff.mpr waiting]
          unfold maxControlBurst at room ⊢
          simp only [Bool.not_false, Bool.toNat_true]
          omega
    | normal front chosen =>
      exact (passed _ (by simp only [popped, chosen]; rfl)).elim
    | none _ _ => simp [overtakes, popped]
    | waits _ _ => simp [overtakes, popped]
  | close =>
    simp only [entry, step, overtakes, popped, Bool.toNat_false, Nat.zero_add]
    exact le_refl _

theorem overtaking_le_allowance (state : QueueState α) (calls : List (Call α))
    (passed : ∀ turn ∈ history (step queue) state calls, ∀ queued,
      popped turn ≠ some (.normal, queued)) :
    (history (step queue) state calls).countP overtakes ≤ allowance state := by
  induction calls generalizing state with
  | nil => exact Nat.zero_le _
  | cons call calls ih =>
    rw [history_cons] at passed ⊢
    have one := allowance_step state call (passed _ List.mem_cons_self)
    have rest := ih _ (fun turn member => passed turn (List.mem_cons_of_mem _ member))
    rw [List.countP_cons]
    cases overtaken : overtakes (entry (step queue) state call) with
    | false =>
      simp only [overtaken, Bool.toNat_false] at one
      simp only [Bool.false_eq_true, if_false]
      omega
    | true =>
      simp only [overtaken, Bool.toNat_true] at one
      simp only [if_true]
      omega

end Fairness

section Draining

variable {α : Type} {queue : PriorityQueue}

theorem closed_step {state : QueueState α} (closed : state.closed = true) (call : Call α) :
    (step queue state call).2.closed = true ∧
      (step queue state call).2.len = state.len - (isPop call).toNat := by
  cases call with
  | push item priority =>
    rcases tryPushRecoverable_cases queue state item priority with
      ⟨error, rejected⟩ | ⟨opened, -, -⟩
    · simp only [step, rejected]
      exact ⟨closed, rfl⟩
    · rw [closed] at opened
      cases opened
  | pop =>
    have spec := pop_spec state
    simp only [step, isPop, Bool.toNat_true]
    generalize Service.pop state = outcome at spec ⊢
    cases spec with
    | control front _ _ =>
      refine ⟨closed, ?_⟩
      simp only [QueueState.len, front, List.length_cons]
      omega
    | normal front _ =>
      refine ⟨closed, ?_⟩
      simp only [QueueState.len, front, List.length_cons]
      omega
    | none _ empty => exact ⟨closed, by rw [empty]⟩
    | waits opened _ =>
      rw [closed] at opened
      cases opened
  | close => exact ⟨rfl, rfl⟩

theorem closed_run {state : QueueState α} (closed : state.closed = true) (calls : List (Call α)) :
    (final (step queue) state calls).len = state.len - calls.countP isPop := by
  induction calls generalizing state with
  | nil => rfl
  | cons call calls ih =>
    obtain ⟨closed', len⟩ : (step queue state call).2.closed = true ∧
        (step queue state call).2.len = state.len - (isPop call).toNat := closed_step closed call
    rw [final_cons, ih closed', len, List.countP_cons]
    cases isPop call with
    | false => simp
    | true => simp only [Bool.toNat_true, if_true]; omega

theorem lane_of_len {state : QueueState α} (empty : state.len = 0) (lane : QueuePriority) :
    state.lane lane = [] := by
  unfold QueueState.len at empty
  cases lane with
  | control => exact List.length_eq_zero_iff.mp (Nat.add_eq_zero_iff.mp empty).1
  | normal => exact List.length_eq_zero_iff.mp (Nat.add_eq_zero_iff.mp empty).2

end Draining

section Orders

variable {α : Type}

structure Orderly (queue : PriorityQueue) (history : List (Turn α)) (state : QueueState α) : Prop where
  /-- A lane holds what it accepted and has not handed out yet, in the order of arrival. -/
  conserved : ∀ lane, ofLane lane (history.filterMap accepted) =
    ofLane lane (history.filterMap popped) ++ state.lane lane
  once : ((history.filterMap popped).map (·.2.ticket)).Nodup
  served : ∀ lane, (ofLane lane (history.filterMap popped)).Pairwise (·.ticket < ·.ticket)
  bounded : state.len ≤ queue.capacity
  reserved : ∀ turn ∈ history, ∀ item ticket, turn.call = .push item .normal →
    turn.answer = .pushed (.ok ticket) →
      (turn.after (step queue)).len + queue.controlReserve ≤ queue.capacity
  handedBack : ∀ turn ∈ history, ∀ item priority error back, turn.call = .push item priority →
    turn.answer = .pushed (.error (error, back)) → back = item ∧ turn.after (step queue) = turn.before
  /-- A closed queue answers none only after everything it accepted was handed out. -/
  drained : (pop state).1 = .none → state.closed = true ∧
    ∀ lane, ofLane lane (history.filterMap accepted) = ofLane lane (history.filterMap popped)
  /-- And it gets there: no pop of it waits, and as many as there are items empty it. -/
  draining : state.closed = true → (pop state).1 ≠ .waits ∧
    ∀ calls : List (Call α), state.len ≤ calls.countP isPop → (final (step queue) state calls).len = 0
  /-- Until normal work is taken, the control items that pass it while it waits fit in one burst. -/
  fair : ∀ calls : List (Call α),
    (∀ turn ∈ Machines.history (step queue) state calls, ∀ queued, popped turn ≠ some (.normal, queued)) →
    (Machines.history (step queue) state calls).countP overtakes ≤ maxControlBurst

theorem accepted_leaves_reserve {queue : PriorityQueue} {state : QueueState α} {item : α} {ticket : ℕ}
    (taken : (tryPushRecoverable queue state item .normal).1 = .ok ticket) :
    (tryPushRecoverable queue state item .normal).2.len + queue.controlReserve ≤ queue.capacity := by
  rcases tryPushRecoverable_cases queue state item .normal with ⟨error, rejected⟩ | ⟨-, room, done⟩
  · rw [rejected] at taken
    cases taken
  · rw [done, len_pushBack]
    have fits := queue.reserve_le
    simp only [PriorityQueue.limit] at room
    omega

theorem rejected_unchanged {queue : PriorityQueue} {state : QueueState α} {item back : α}
    {priority : QueuePriority} {error : EnqueueError}
    (refused : (tryPushRecoverable queue state item priority).1 = .error (error, back)) :
    back = item ∧ (tryPushRecoverable queue state item priority).2 = state := by
  rcases tryPushRecoverable_cases queue state item priority with ⟨cause, rejected⟩ | ⟨-, -, done⟩
  · rw [rejected] at refused ⊢
    cases refused
    exact ⟨rfl, rfl⟩
  · rw [done] at refused
    cases refused

theorem run_orderly (queue : PriorityQueue) (calls : List (Call α)) :
    Orderly queue (history (step queue) emptyQueue calls)
      (final (step queue) emptyQueue calls) := by
  have ledger := run_ledger queue calls
  refine
    { conserved := ledger.conserved
      once := ledger.once
      served := ledger.served
      bounded := ledger.bounded
      reserved := ?_
      handedBack := ?_
      drained := ?_
      draining := ?_
      fair := fun more passed => (overtaking_le_allowance _ more passed).trans (allowance_le _) }
  · rintro ⟨before, call, answer⟩ member item ticket rfl rfl
    have answered := history_answer member
    simp only [step, Answer.pushed.injEq] at answered
    exact accepted_leaves_reserve answered.symm
  · rintro ⟨before, call, answer⟩ member item priority error back rfl rfl
    have answered := history_answer member
    simp only [step, Answer.pushed.injEq] at answered
    exact rejected_unchanged answered.symm
  · intro answered
    have conserved := ledger.conserved
    have spec := pop_spec (final (step queue) emptyQueue calls)
    generalize pop (final (step queue) emptyQueue calls) = outcome at spec answered
    cases spec with
    | none closed empty =>
      refine ⟨closed, fun lane => ?_⟩
      rw [conserved lane, lane_of_len empty lane, List.append_nil]
    | control _ _ _ => cases answered
    | normal _ _ => cases answered
    | waits _ _ => cases answered
  · intro closed
    refine ⟨?_, ?_⟩
    · have spec := pop_spec (final (step queue) emptyQueue calls)
      generalize pop (final (step queue) emptyQueue calls) = outcome at spec ⊢
      cases spec with
      | waits opened _ =>
        rw [closed] at opened
        cases opened
      | none _ _ => nofun
      | control _ _ _ => nofun
      | normal _ _ => nofun
    · intro more enough
      rw [closed_run closed]
      omega

/-- Nine control items and one normal item: the ninth control item has to wait. -/
example :
    ((history (step ⟨12, 1, by decide, by decide⟩) emptyQueue
      (.push 100 .normal :: (List.range 9).map (Call.push · .control) ++
        List.replicate 10 .pop)).filterMap popped).map (·.2.item) =
      [0, 1, 2, 3, 4, 5, 6, 7, 100, 8] := by
  decide

end Orders

end Boreal.Service
