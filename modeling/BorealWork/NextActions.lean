/- The next action of a scope: the least of the ready candidates in the order of actions, whatever order
the records are listed in; and the counts of the portfolio as those of its parts. -/
import BorealWork.GlobalAttention

namespace Boreal.GlobalManager
open Drain JsonValue Sorting
open Source (utf8)

variable {state state' item : Value} {time : GlobalCivilTimeContext} {scope : AttentionScope}
  {selected : List String} {arcs : List (String × String)} {id : String}

structure WellFormed (state : Value) : Prop where
  identified : ∀ item ∈ rows state "items", ∃ id, item.getString? "id" = some id
  distinct : ((rows state "items").map (·.getString? "id")).Nodup
  related : ∀ row ∈ rows state "relationships", ∃ source target kind,
    row.getString? "source_id" = some source ∧ row.getString? "target_id" = some target ∧
      row.getString? "kind" = some kind ∧ kind ∈ ["depends_on", "blocks", "related"]

def Requires (state : Value) (dependent prerequisite : String) : Prop :=
  ∃ row ∈ rows state "relationships",
    (row.getString? "kind" = some "depends_on" ∧ row.getString? "source_id" = some dependent ∧
      row.getString? "target_id" = some prerequisite) ∨
    (row.getString? "kind" = some "blocks" ∧ row.getString? "source_id" = some prerequisite ∧
      row.getString? "target_id" = some dependent)

def Completed (state : Value) (id : String) : Prop :=
  ∃ item ∈ rows state "items", item.getString? "id" = some id ∧ itemCategory state item = some .completed

structure Candidate (state : Value) (scope : AttentionScope) (item : Value) : Prop where
  listed : item ∈ rows state "items"
  owned : scope.owns (archivedProjects state) item = true
  unarchived : item.getBool? "archived" ≠ some true
  category : itemCategory state item = some .open ∨ itemCategory state item = some .active
  kind : item.getString? "kind" = some "task" ∨ item.getString? "kind" = some "subtask"

structure Ready (state : Value) (scope : AttentionScope) (item : Value) : Prop extends
    Candidate state scope item where
  prepared : ∀ id prerequisite, item.getString? "id" = some id → Requires state id prerequisite →
    Completed state prerequisite

/-- The best of the items that can be worked on. -/
structure IsNext (state : Value) (time : GlobalCivilTimeContext) (scope : AttentionScope) (item : Value) :
    Prop where
  ready : Ready state scope item
  least : ∀ other, Ready state scope other → actionOrder state time item ≤ actionOrder state time other

theorem mem_candidates : item ∈ candidates state time scope ↔ Candidate state scope item := by
  rw [candidates, mem_sortOn, List.mem_filter, isCandidate, isArchived, decide_eq_true_iff]
  constructor
  · rintro ⟨listed, owned, unarchived, category, kind⟩
    exact ⟨listed, owned, by simpa using unarchived, category, kind⟩
  · intro candidate
    exact ⟨candidate.listed, candidate.owned, by simpa using candidate.unarchived, candidate.category,
      candidate.kind⟩

theorem WellFormed.same (wellFormed : WellFormed state) {other : Value}
    (listed : item ∈ rows state "items") (listed' : other ∈ rows state "items")
    (ids : item.getString? "id" = other.getString? "id") : item = other :=
  List.inj_on_of_nodup_map wellFormed.distinct listed listed' ids

theorem itemById_eq_some (wellFormed : WellFormed state) :
    itemById state id = some item ↔ item ∈ rows state "items" ∧ item.getString? "id" = some id := by
  constructor
  · intro found
    have called := List.find?_some found
    exact ⟨List.mem_reverse.mp (List.mem_of_find?_eq_some found), of_decide_eq_true called⟩
  · rintro ⟨listed, named⟩
    cases found : itemById state id with
    | none =>
      have absent := List.find?_eq_none.mp found item (List.mem_reverse.mpr listed)
      exact absurd (decide_eq_true named) absent
    | some other =>
      have there := List.mem_reverse.mp (List.mem_of_find?_eq_some found)
      have called := List.find?_some found
      rw [wellFormed.same there listed ((of_decide_eq_true called).trans named.symm)]

def arcOf (row : Value) : Option (String × String) := do
  let source ← row.getString? "source_id"
  let target ← row.getString? "target_id"
  let kind ← row.getString? "kind"
  prerequisiteToDependent source target (← (ManagementRelationshipKind.tryFrom kind).toOption)

def arcsOf (state : Value) : List (String × String) := (rows state "relationships").filterMap arcOf

theorem prerequisiteArcs_eq (wellFormed : WellFormed state) :
    prerequisiteArcs state = .ok (arcsOf state) := by
  have each : ∀ row ∈ rows state "relationships", relationshipArc row = .ok (arcOf row) := by
    intro row listed
    obtain ⟨source, target, kind, begins, ends, named, known⟩ := wellFormed.related row listed
    rw [relationshipArc, arcOf, textField, textField, textField, begins, ends, named]
    simp only [List.mem_cons, List.not_mem_nil, or_false] at known
    rcases known with rfl | rfl | rfl
    · rfl
    · rfl
    · rfl
  have passed : (rows state "relationships").mapM relationshipArc =
      .ok ((rows state "relationships").map arcOf) := by
    rw [mapM_eq_ok, List.forall₂_map_right_iff, List.forall₂_same]
    exact each
  rw [prerequisiteArcs, passed, ok_bind, arcsOf, List.reduceOption, List.filterMap_map]
  rfl

theorem mem_arcsOf (wellFormed : WellFormed state) {prerequisite dependent : String} :
    (prerequisite, dependent) ∈ arcsOf state ↔ Requires state dependent prerequisite := by
  rw [arcsOf, List.mem_filterMap, Requires]
  refine exists_congr fun row => and_congr_right fun listed => ?_
  obtain ⟨source, target, kind, begins, ends, named, known⟩ := wellFormed.related row listed
  rw [arcOf, begins, ends, named]
  simp only [List.mem_cons, List.not_mem_nil, or_false] at known
  rcases known with rfl | rfl | rfl
  · simp [ManagementRelationshipKind.tryFrom, prerequisiteToDependent, Except.toOption, and_comm]
  · simp [ManagementRelationshipKind.tryFrom, prerequisiteToDependent, Except.toOption]
  · simp [ManagementRelationshipKind.tryFrom, prerequisiteToDependent, Except.toOption]

theorem mem_prerequisitesOf {prerequisite dependent : String} :
    prerequisite ∈ prerequisitesOf arcs dependent ↔ (prerequisite, dependent) ∈ arcs := by
  rw [prerequisitesOf, mem_sortDedup, List.mem_map]
  constructor
  · rintro ⟨⟨source, target⟩, member, rfl⟩
    obtain ⟨listed, named⟩ := List.mem_filter.mp member
    exact of_decide_eq_true named ▸ listed
  · intro listed
    exact ⟨_, List.mem_filter.mpr ⟨listed, decide_eq_true rfl⟩, rfl⟩

theorem managementPrerequisiteState_eq_satisfied {category : Option StatusCategory} {archived : Bool} :
    managementPrerequisiteState category archived = .satisfied ↔ category = some .completed := by
  cases category with
  | none => exact iff_of_false nofun nofun
  | some category => cases category <;> cases archived <;> decide

theorem blocker_eq_none (wellFormed : WellFormed state) : blocker state id = none ↔ Completed state id := by
  have satisfied : blocker state id = none ↔ prerequisiteReadiness state id = .satisfied := by
    rw [blocker]
    split_ifs with ready
    · exact iff_of_true rfl ready
    · exact iff_of_false nofun ready
  rw [satisfied, prerequisiteReadiness, managementPrerequisiteState_eq_satisfied, Option.bind_eq_some_iff, Completed]
  refine exists_congr fun item => ?_
  rw [itemById_eq_some wellFormed, and_assoc]

theorem blockersOf_eq_nil (wellFormed : WellFormed state) (named : item.getString? "id" = some id) :
    blockersOf state (arcsOf state) item = [] ↔
      ∀ prerequisite, Requires state id prerequisite → Completed state prerequisite := by
  have five : maxBlockersPerCandidate ≠ 0 := by decide
  rw [blockersOf, List.take_eq_nil_iff, or_iff_right five, List.filterMap_eq_nil_iff, textOf, named,
    Option.getD_some]
  refine forall_congr' fun prerequisite => ?_
  rw [mem_prerequisitesOf, mem_arcsOf wellFormed, blocker_eq_none wellFormed]

section Scans

variable {l : List Value} {blocked : List BlockedCandidate}

theorem scanCandidates_action (l : List Value) (blocked : List BlockedCandidate) :
    (scanCandidates state arcs l blocked).1 =
      (l.find? fun candidate => (blockersOf state arcs candidate).isEmpty).map (nextAction state) := by
  induction l generalizing blocked with
  | nil => rfl
  | cons candidate rest ih =>
    rw [scanCandidates, List.find?_cons]
    cases blockersOf state arcs candidate with
    | nil => rfl
    | cons first more => exact ih _

theorem scanCandidates_blocked (without : (scanCandidates state arcs l blocked).1 = none) :
    (scanCandidates state arcs l blocked).2 = [] ↔ l = [] ∧ blocked = [] := by
  induction l generalizing blocked with
  | nil => exact (and_iff_right rfl).symm
  | cons candidate rest ih =>
    rw [scanCandidates] at without ⊢
    cases blocking : blockersOf state arcs candidate with
    | nil =>
      rw [blocking] at without
      cases without
    | cons first more =>
      rw [blocking] at without
      refine (ih without).trans (iff_of_false ?_ nofun)
      rintro ⟨-, empty⟩
      split_ifs at empty with room
      · exact List.append_ne_nil_of_right_ne_nil _ (List.cons_ne_nil _ _) empty
      · rw [empty] at room
        exact room (by decide)

end Scans

section Attentions

variable {counts : Counts} {attention : Attention}

structure Directs (state : Value) (time : GlobalCivilTimeContext) (scope : AttentionScope)
    (attention : Attention) : Prop where
  next : ∀ action, attention.nextAction = some action ↔
    ∃ item, IsNext state time scope item ∧ nextAction state item = action
  without : attention.nextAction = none ↔ ∀ item, ¬ Ready state scope item
  blocked : attention.nextAction = none → (attention.blockedBy ≠ [] ↔ ∃ item, Candidate state scope item)

def detailed (state : Value) (time : GlobalCivilTimeContext) (scope : AttentionScope) (counts : Counts) :
    Attention :=
  let scanned := scanCandidates state (arcsOf state) (candidates state time scope) []
  { counts
    nextAction := scanned.1
    nextMilestone := nextMilestone state time scope
    blockedBy := if scanned.1.isNone then scanned.2 else []
    nextActionUnavailableReason :=
      if scanned.1.isNone then some (if scanned.2.isEmpty then "no_open_action" else "unresolved_prerequisites")
      else none }

theorem populateAttentionDetails_eq (wellFormed : WellFormed state) :
    populateAttentionDetails state time scope (emptyAttention counts) =
      .ok (detailed state time scope counts) := by
  rw [populateAttentionDetails, prerequisiteArcs_eq wellFormed, ok_bind]
  rfl

/-- The candidate that the scan stops at. -/
def firstReady (state : Value) (time : GlobalCivilTimeContext) (scope : AttentionScope) : Option Value :=
  (candidates state time scope).find? fun candidate => (blockersOf state (arcsOf state) candidate).isEmpty

theorem detailed_nextAction :
    (detailed state time scope counts).nextAction = (firstReady state time scope).map (nextAction state) :=
  scanCandidates_action _ _

theorem ready_iff (wellFormed : WellFormed state) : Ready state scope item ↔
    Candidate state scope item ∧ (blockersOf state (arcsOf state) item).isEmpty = true := by
  constructor
  · intro ready
    obtain ⟨id, named⟩ := wellFormed.identified item ready.listed
    refine ⟨ready.toCandidate, List.isEmpty_iff.mpr ((blockersOf_eq_nil wellFormed named).mpr ?_)⟩
    intro prerequisite required
    exact ready.prepared id prerequisite named required
  · rintro ⟨candidate, free⟩
    refine ⟨candidate, fun id prerequisite named required => ?_⟩
    exact (blockersOf_eq_nil wellFormed named).mp (List.isEmpty_iff.mp free) prerequisite required

theorem actionOrder_injective (wellFormed : WellFormed state) {other : Value}
    (listed : item ∈ rows state "items") (listed' : other ∈ rows state "items")
    (same : actionOrder state time item = actionOrder state time other) : item = other :=
  wellFormed.same listed listed' (congrArg (fun key => (ofLex (ofLex (ofLex key).2).2).2) same)

theorem firstReady_eq_some (wellFormed : WellFormed state) :
    firstReady state time scope = some item ↔ IsNext state time scope item := by
  have least : ∀ {found}, firstReady state time scope = some found → IsNext state time scope found := by
    intro found first
    have member := mem_candidates.mp (List.mem_of_find?_eq_some first)
    obtain ⟨-, free, before⟩ := find?_sortOn first
    refine ⟨(ready_iff wellFormed).mpr ⟨member, free⟩, fun other ready => ?_⟩
    obtain ⟨candidate, unblocked⟩ := (ready_iff wellFormed).mp ready
    have listed : other ∈ candidates state time scope := mem_candidates.mpr candidate
    rw [candidates, mem_sortOn] at listed
    exact before other listed unblocked
  constructor
  · exact least
  · intro next
    obtain ⟨candidate, free⟩ := (ready_iff wellFormed).mp next.ready
    cases first : firstReady state time scope with
    | none => exact absurd free (List.find?_eq_none.mp first item (mem_candidates.mpr candidate))
    | some found =>
      have other := least first
      rw [actionOrder_injective wellFormed other.ready.listed next.ready.listed
        (le_antisymm (other.least item next.ready) (next.least found other.ready))]

theorem firstReady_eq_none (wellFormed : WellFormed state) :
    firstReady state time scope = none ↔ ∀ item, ¬ Ready state scope item := by
  rw [firstReady, List.find?_eq_none]
  refine forall_congr' fun item => ?_
  rw [ready_iff wellFormed, not_and, mem_candidates]

theorem detailed_directs (wellFormed : WellFormed state) :
    Directs state time scope (detailed state time scope counts) where
  next := by
    intro action
    rw [detailed_nextAction, Option.map_eq_some_iff]
    exact exists_congr fun item => and_congr_left fun _ => firstReady_eq_some wellFormed
  without := by
    rw [detailed_nextAction, Option.map_eq_none_iff, firstReady_eq_none wellFormed]
  blocked := by
    intro without
    have scanned : (scanCandidates state (arcsOf state) (candidates state time scope) []).1 = none := without
    have kept : (detailed state time scope counts).blockedBy =
        (scanCandidates state (arcsOf state) (candidates state time scope) []).2 := by
      rw [detailed]
      dsimp only
      rw [scanned]
      rfl
    rw [kept, Ne, scanCandidates_blocked scanned, and_iff_left rfl]
    constructor
    · intro some_
      obtain ⟨item, member⟩ := List.exists_mem_of_ne_nil _ some_
      exact ⟨item, mem_candidates.mp member⟩
    · rintro ⟨item, candidate⟩
      exact List.ne_nil_of_mem (mem_candidates.mpr candidate)

end Attentions

/-- Counts add up member by member. -/
instance : Add Counts where
  add counts more := ⟨counts.open + more.open, counts.waiting + more.waiting, counts.overdue + more.overdue,
    counts.dueToday + more.dueToday, counts.unscheduled + more.unscheduled, counts.later + more.later⟩

instance : Zero Counts where
  zero := .none

instance : AddCommMonoid Counts where
  add_assoc _ _ _ := by ext <;> exact Nat.add_assoc _ _ _
  zero_add _ := by ext <;> exact Nat.zero_add _
  add_zero _ := by ext <;> exact Nat.add_zero _
  add_comm _ _ := by ext <;> exact Nat.add_comm _ _
  nsmul := nsmulRec

def Counts.one (classification : DailyClassification) : Counts := Counts.none.record classification

theorem Counts.record_eq (counts : Counts) (classification : DailyClassification) :
    counts.record classification = counts + Counts.one classification := by
  obtain ⟨deadline, waiting, group⟩ := classification
  cases deadline <;> cases waiting <;> rfl

def isCounted (state item : Value) : Bool :=
  !isArchived item && !isClosed state item && (item.getString? "project_id").all (· ∉ archivedProjects state)

/-- The counts of those among the items whose owner passes. -/
def countsOf (state : Value) (time : GlobalCivilTimeContext) (p : Option String → Bool) (items : List Value) :
    Counts :=
  (((items.filter (isCounted state)).filter fun item => p (item.getString? "project_id")).map fun item =>
    Counts.one (itemClassification state time item)).sum

theorem tallyItem_eq (tally : Tally) (item : Value) : tallyItem state time tally item =
    if isCounted state item then
      tally.record (item.getString? "project_id") (itemClassification state time item)
    else tally := by
  rw [tallyItem, isCounted]
  cases isArchived item with
  | true => rfl
  | false =>
    cases isClosed state item with
    | true => rfl
    | false =>
      rw [if_neg (by decide)]
      cases item.getString? "project_id" with
      | none => rfl
      | some owner =>
        by_cases archived : owner ∈ archivedProjects state
        · rw [if_pos (by simpa using archived), if_neg (by simpa using archived)]
        · rw [if_neg (by simpa using archived), if_pos (by simpa using archived)]

theorem countsOf_cons (p : Option String → Bool) (item : Value) (rest : List Value) :
    countsOf state time p (item :: rest) =
      (if isCounted state item && p (item.getString? "project_id") then
        Counts.one (itemClassification state time item) else 0) + countsOf state time p rest := by
  rw [countsOf, countsOf]
  cases counted : isCounted state item with
  | false => rw [List.filter_cons_of_neg (by simp [counted]), Bool.false_and, if_neg (by decide), zero_add]
  | true =>
    rw [List.filter_cons_of_pos counted, Bool.true_and]
    cases passes : p (item.getString? "project_id") with
    | false => rw [List.filter_cons_of_neg (by simp [passes]), if_neg (by decide), zero_add]
    | true => rw [List.filter_cons_of_pos (by simp [passes]), if_pos rfl, List.map_cons, List.sum_cons]

theorem foldl_tallyItem (items : List Value) (tally : Tally) :
    items.foldl (tallyItem state time) tally =
      { portfolio := tally.portfolio + countsOf state time (fun _ => true) items
        personal := tally.personal + countsOf state time (fun owner => owner = none) items
        projects := tally.projects.map fun entry =>
          (entry.1, entry.2 + countsOf state time (fun owner => owner = some entry.1) items) } := by
  induction items generalizing tally with
  | nil =>
    have zero : ∀ p, countsOf state time p [] = 0 := fun p => rfl
    simp only [List.foldl_nil, zero, add_zero, Prod.mk.eta, List.map_id']
  | cons item rest ih =>
    rw [List.foldl_cons, ih, tallyItem_eq]
    simp only [countsOf_cons]
    cases isCounted state item with
    | false => simp
    | true =>
      simp only [if_true, Bool.true_and, decide_eq_true_eq, Tally.record, Counts.record_eq, List.map_map]
      congr 1
      · rw [add_assoc]
      · split_ifs
        · rw [add_assoc]
        · rw [zero_add]
      · apply List.map_congr_left
        intro entry _
        simp only [Function.comp_apply]
        split_ifs
        · rw [add_assoc]
        · rw [zero_add]

theorem sum_owned {α κ M : Type*} [DecidableEq κ] [AddCommMonoid M] {f : α → Option κ} {w : α → M}
    {keys : List κ} (distinct : keys.Nodup) {l : List α} (owned : ∀ a ∈ l, ∀ k ∈ f a, k ∈ keys) :
    ((l.filter fun a => f a = none).map w).sum +
      (keys.map fun k => ((l.filter fun a => f a = some k).map w).sum).sum = (l.map w).sum := by
  induction l with
  | nil => simp
  | cons a rest ih =>
    rw [List.forall_mem_cons] at owned
    rw [List.map_cons, List.sum_cons, ← ih owned.2]
    cases named : f a with
    | none => simp [named, add_assoc]
    | some k =>
      have each (j : κ) : (((a :: rest).filter fun a => f a = some j).map w).sum =
          (if j = k then w a else 0) + ((rest.filter fun a => f a = some j).map w).sum := by
        by_cases own : j = k
        · simp [named, own]
        · simp [named, own, Ne.symm own]
      have once : (keys.map fun j => if j = k then w a else 0).sum = w a := by
        rw [List.sum_map_eq_nsmul_single k _ fun j other _ => if_neg other, if_pos rfl,
          List.count_eq_one_of_mem distinct (owned.1 k named), one_nsmul]
      rw [List.filter_cons_of_neg (by simp [named]), List.map_congr_left fun j _ => each j,
        List.sum_map_add, once, add_left_comm]

theorem countsOf_parts {projects : List String} (distinct : projects.Nodup) (items : List Value)
    (owned : ∀ item ∈ items, ∀ owner, item.getString? "project_id" = some owner →
      owner ∈ projects ∨ owner ∈ archivedProjects state) :
    countsOf state time (fun _ => true) items = countsOf state time (fun owner => owner = none) items +
      (projects.map fun id => countsOf state time (fun owner => owner = some id) items).sum := by
  have counted : ∀ item ∈ items.filter (isCounted state), ∀ owner ∈ item.getString? "project_id",
      owner ∈ projects := by
    intro item member owner named
    obtain ⟨listed, counts⟩ := List.mem_filter.mp member
    refine (owned item listed owner named).resolve_right ?_
    rw [isCounted, Option.mem_def.mp named, Bool.and_eq_true, Option.all_some, decide_eq_true_iff] at counts
    exact counts.2
  have split := sum_owned (w := fun item => Counts.one (itemClassification state time item)) distinct counted
  simp only [countsOf, List.filter_true]
  exact split.symm

def summaryOf (state : Value) (selected : List String) (time : GlobalCivilTimeContext) : AttentionSummary :=
  let tally := tallyItems state time selected
  let personal := detailed state time .personal tally.personal
  { portfolio := detailed state time .portfolio tally.portfolio
    projects := withPersonalAlias state personal (tally.projects.map fun entry =>
      (entry.1, if entry.1 ∈ archivedProjects state then emptyAttention entry.2
        else detailed state time (.project entry.1) entry.2))
    projectsTotal := (projectIds state).length
    projectsLimit := (included state selected).length
    projectsHasMore := (included state selected).length < (projectIds state).length
    projectsTruncated := (included state selected).length < (projectIds state).length
    personal }

theorem attentionSummary_eq (wellFormed : WellFormed state) :
    attentionSummary state selected time = .ok (summaryOf state selected time) := by
  have each (entry : String × Counts) : projectAttention state time entry =
      .ok (entry.1, if entry.1 ∈ archivedProjects state then emptyAttention entry.2
        else detailed state time (.project entry.1) entry.2) := by
    rw [projectAttention, populateAttentionDetails_eq wellFormed]
    split_ifs
    · rfl
    · rfl
  have passed : (tallyItems state time selected).projects.mapM (projectAttention state time) =
      .ok ((tallyItems state time selected).projects.map fun entry =>
        (entry.1, if entry.1 ∈ archivedProjects state then emptyAttention entry.2
          else detailed state time (.project entry.1) entry.2)) := by
    rw [mapM_eq_ok, List.forall₂_map_right_iff, List.forall₂_same]
    exact fun entry _ => each entry
  rw [attentionSummary]
  dsimp only
  rw [passed, ok_bind, populateAttentionDetails_eq wellFormed, ok_bind,
    populateAttentionDetails_eq wellFormed, ok_bind]
  rfl

def AttentionSummary.At (summary : AttentionSummary) : AttentionScope → Attention → Prop
  | .portfolio, attention => attention = summary.portfolio
  | .project id, attention => (id, attention) ∈ summary.projects
  | .personal, attention => attention = summary.personal

def Asked (state : Value) (selected : List String) : AttentionScope → Prop
  | .project id => id ∈ selected ∧ id ∈ projectIds state ∧ id ∉ archivedProjects state
  | _ => True

theorem tallyItems_projects : (tallyItems state time selected).projects =
    (included state selected).map fun id =>
      (id, countsOf state time (fun owner => owner = some id) (rows state "items")) := by
  rw [tallyItems, foldl_tallyItem, List.map_map]
  exact List.map_congr_left fun id _ => congrArg (Prod.mk id) (zero_add _)

theorem mem_included : id ∈ included state selected ↔ id ∈ selected ∧ id ∈ projectIds state := by
  rw [included, mem_sortDedup, List.mem_filter, decide_eq_true_iff]

theorem included_nodup : (included state selected).Nodup :=
  (sortDedup_increasing fun _ _ _ _ same => same).imp fun less => ne_of_lt less

theorem mem_summaryOf_projects (listed : id ∈ projectIds state) {attention : Attention} :
    (id, attention) ∈ (summaryOf state selected time).projects ↔ id ∈ included state selected ∧
      attention = (if id ∈ archivedProjects state then emptyAttention else
        detailed state time (.project id))
          (countsOf state time (fun owner => owner = some id) (rows state "items")) := by
  have hidden (personal : Attention) (projects : List (String × Attention)) :
      (id, attention) ∈ withPersonalAlias state personal projects ↔ (id, attention) ∈ projects := by
    rw [withPersonalAlias]
    split_ifs with shown
    · rw [List.mem_orderedInsert, or_iff_right]
      intro same
      exact shown.2 ((Prod.mk.inj same).1 ▸ listed)
    · rfl
  rw [summaryOf]
  dsimp only
  rw [hidden, tallyItems_projects, List.map_map, List.mem_map]
  constructor
  · rintro ⟨other, member, same⟩
    obtain ⟨rfl, rfl⟩ := Prod.mk.inj same
    refine ⟨member, ?_⟩
    split_ifs
    · rfl
    · rfl
  · rintro ⟨member, rfl⟩
    refine ⟨id, member, ?_⟩
    simp only [Function.comp_apply]
    split_ifs
    · rfl
    · rfl

theorem summaryOf_directs (wellFormed : WellFormed state) (asked : Asked state selected scope) :
    ∃ attention, (∀ other, (summaryOf state selected time).At scope other ↔ other = attention) ∧
      Directs state time scope attention := by
  cases scope with
  | portfolio => exact ⟨_, fun _ => Iff.rfl, detailed_directs wellFormed⟩
  | personal => exact ⟨_, fun _ => Iff.rfl, detailed_directs wellFormed⟩
  | project id =>
    obtain ⟨chosen, listed, unarchived⟩ := asked
    refine ⟨detailed state time (.project id) (countsOf state time (fun owner => owner = some id)
      (rows state "items")), fun other => ?_, detailed_directs wellFormed⟩
    rw [AttentionSummary.At, mem_summaryOf_projects listed, if_neg unarchived,
      and_iff_right (mem_included.mpr ⟨chosen, listed⟩)]

/-- The same records, with the items and the relationships in another order. -/
structure Reordered (state state' : Value) : Prop where
  projects : rows state' "projects" = rows state "projects"
  statuses : rows state' "statuses" = rows state "statuses"
  items : (rows state' "items").Perm (rows state "items")
  relationships : (rows state' "relationships").Perm (rows state "relationships")

theorem Reordered.wellFormed (reordered : Reordered state state') (wellFormed : WellFormed state) :
    WellFormed state' where
  identified := fun item listed => wellFormed.identified item (reordered.items.subset listed)
  distinct := (reordered.items.map _).nodup_iff.mpr wellFormed.distinct
  related := fun row listed => wellFormed.related row (reordered.relationships.subset listed)

theorem Reordered.itemCategory (reordered : Reordered state state') :
    itemCategory state' = itemCategory state := by
  funext item
  rw [GlobalManager.itemCategory, GlobalManager.itemCategory, reordered.statuses]

theorem Reordered.archivedProjects (reordered : Reordered state state') :
    archivedProjects state' = archivedProjects state := by
  rw [GlobalManager.archivedProjects, GlobalManager.archivedProjects, reordered.projects]

theorem Reordered.projectIds (reordered : Reordered state state') : projectIds state' = projectIds state := by
  rw [GlobalManager.projectIds, GlobalManager.projectIds, reordered.projects]

theorem Reordered.itemClassification (reordered : Reordered state state') :
    itemClassification state' time = itemClassification state time := by
  funext item
  rw [GlobalManager.itemClassification, GlobalManager.itemClassification, reordered.itemCategory]

theorem Reordered.actionOrder (reordered : Reordered state state') :
    actionOrder state' time = actionOrder state time := by
  funext item
  rw [GlobalManager.actionOrder, GlobalManager.actionOrder, dueRank, dueRank, reordered.itemClassification]

theorem Reordered.sorted (reordered : Reordered state state') (wellFormed : WellFormed state)
    (p : Value → Bool) :
    sortOn (GlobalManager.actionOrder state time) ((rows state' "items").filter p) =
      sortOn (GlobalManager.actionOrder state time) ((rows state "items").filter p) := by
  refine sortOn_congr (reordered.items.filter p) fun a first b second same => ?_
  exact actionOrder_injective wellFormed (reordered.items.subset (List.mem_filter.mp first).1)
    (reordered.items.subset (List.mem_filter.mp second).1) same

theorem Reordered.itemById (reordered : Reordered state state') (wellFormed : WellFormed state) :
    itemById state' id = itemById state id := by
  apply Option.ext
  intro item
  rw [itemById_eq_some wellFormed, itemById_eq_some (reordered.wellFormed wellFormed),
    reordered.items.mem_iff]

theorem Reordered.blockersOf (reordered : Reordered state state') (wellFormed : WellFormed state) :
    blockersOf state' (arcsOf state') item = blockersOf state (arcsOf state) item := by
  have arcs : (arcsOf state').Perm (arcsOf state) := reordered.relationships.filterMap arcOf
  have prerequisites : prerequisitesOf (arcsOf state') = prerequisitesOf (arcsOf state) := by
    funext dependent
    exact sortDedup_congr Function.injective_id ((arcs.filter _).map _)
  have blockers : blocker state' = blocker state := by
    funext id
    rw [blocker, blocker, prerequisiteReadiness, prerequisiteReadiness, reordered.itemById wellFormed,
      reordered.itemCategory]
  rw [GlobalManager.blockersOf, GlobalManager.blockersOf, prerequisites, blockers]

theorem Reordered.scanCandidates (reordered : Reordered state state') (wellFormed : WellFormed state)
    (l : List Value) (blocked : List BlockedCandidate) :
    scanCandidates state' (arcsOf state') l blocked = scanCandidates state (arcsOf state) l blocked := by
  have actions : nextAction state' = nextAction state := by
    funext item
    rw [nextAction, nextAction, statusLabel, statusLabel, reordered.statuses]
  induction l generalizing blocked with
  | nil => rfl
  | cons candidate rest ih =>
    rw [GlobalManager.scanCandidates, GlobalManager.scanCandidates, reordered.blockersOf wellFormed, actions]
    cases GlobalManager.blockersOf state (arcsOf state) candidate with
    | nil => rfl
    | cons first more => exact ih _

theorem Reordered.nextMilestone (reordered : Reordered state state') (wellFormed : WellFormed state) :
    nextMilestone state' time scope = nextMilestone state time scope := by
  have order : milestones state' time scope = milestones state time scope := by
    rw [milestones, milestones, reordered.actionOrder, reordered.archivedProjects]
    simp only [isClosed, reordered.itemCategory]
    exact reordered.sorted wellFormed _
  rw [GlobalManager.nextMilestone, GlobalManager.nextMilestone, order, reordered.archivedProjects,
    reordered.itemCategory]
  refine congrArg (fun f => Option.map f _) (funext fun milestone => ?_)
  dsimp only
  rw [((reordered.items.filter _).filter _).length_eq, (reordered.items.filter _).length_eq]

theorem Reordered.detailed (reordered : Reordered state state') (wellFormed : WellFormed state)
    (counts : Counts) : detailed state' time scope counts = detailed state time scope counts := by
  have order : candidates state' time scope = candidates state time scope := by
    rw [candidates, candidates, reordered.actionOrder]
    have same : isCandidate state' scope = isCandidate state scope := by
      funext item
      rw [isCandidate, isCandidate, reordered.archivedProjects, reordered.itemCategory]
    rw [same]
    exact reordered.sorted wellFormed _
  rw [GlobalManager.detailed, GlobalManager.detailed, order, reordered.scanCandidates wellFormed,
    reordered.nextMilestone wellFormed]

theorem Reordered.tallyItems (reordered : Reordered state state') :
    tallyItems state' time selected = tallyItems state time selected := by
  have counts (p : Option String → Bool) : countsOf state' time p (rows state' "items") =
      countsOf state time p (rows state "items") := by
    have counted : isCounted state' = isCounted state := by
      funext item
      rw [isCounted, isCounted, isClosed, isClosed, reordered.itemCategory, reordered.archivedProjects]
    rw [countsOf, countsOf, counted, reordered.itemClassification]
    exact (((reordered.items.filter _).filter _).map _).sum_eq
  have chosen : included state' selected = included state selected := by
    rw [included, included, reordered.projectIds]
  rw [GlobalManager.tallyItems, GlobalManager.tallyItems, foldl_tallyItem, foldl_tallyItem, chosen]
  simp only [counts]

theorem Reordered.summaryOf (reordered : Reordered state state') (wellFormed : WellFormed state) :
    summaryOf state' selected time = summaryOf state selected time := by
  rw [GlobalManager.summaryOf, GlobalManager.summaryOf, reordered.tallyItems, included, included,
    reordered.projectIds, reordered.archivedProjects]
  simp only [reordered.detailed wellFormed, withPersonalAlias, reordered.projectIds]

/-- Each item names a listed project or none, and every listed project is selected. -/
structure Complete (state : Value) (selected : List String) : Prop where
  owners : ∀ item ∈ rows state "items", ∀ owner, item.getString? "project_id" = some owner →
    owner ∈ projectIds state
  chosen : ∀ id ∈ projectIds state, id ∈ selected

def projectCounts (state : Value) (summary : AttentionSummary) : List Counts :=
  (summary.projects.filter fun entry =>
    entry.1 ∈ projectIds state ∧ entry.1 ∉ archivedProjects state).map (·.2.counts)

theorem summaryOf_projectCounts :
    (projectCounts state (summaryOf state selected time)).sum =
      (((included state selected).filter (· ∉ archivedProjects state)).map fun id =>
        countsOf state time (fun owner => owner = some id) (rows state "items")).sum := by
  have kept (personal : Attention) (projects : List (String × Attention)) :
      ((withPersonalAlias state personal projects).filter fun entry =>
        entry.1 ∈ projectIds state ∧ entry.1 ∉ archivedProjects state).Perm
      (projects.filter fun entry => entry.1 ∈ projectIds state ∧ entry.1 ∉ archivedProjects state) := by
    rw [withPersonalAlias]
    split_ifs with shown
    · refine ((List.perm_orderedInsert _ _ _).filter _).trans ?_
      rw [List.filter_cons_of_neg (by simp [shown.2])]
    · exact .refl _
  rw [projectCounts, summaryOf]
  dsimp only
  rw [((kept _ _).map _).sum_eq, tallyItems_projects, List.map_map, List.filter_map, List.map_map]
  refine congrArg List.sum ?_
  have known : ∀ id ∈ included state selected, id ∈ projectIds state := fun id member =>
    (mem_included.mp member).2
  rw [List.filter_congr (q := fun id => id ∉ archivedProjects state) fun id member => by
    simp [Function.comp_apply, known id member]]
  apply List.map_congr_left
  intro id member
  have unarchived := of_decide_eq_true (List.mem_filter.mp member).2
  simp only [Function.comp_apply, if_neg unarchived]
  rfl

theorem summaryOf_shares (complete : Complete state selected) :
    (summaryOf state selected time).portfolio.counts =
      (summaryOf state selected time).personal.counts +
        (projectCounts state (summaryOf state selected time)).sum := by
  rw [summaryOf_projectCounts]
  change (tallyItems state time selected).portfolio = (tallyItems state time selected).personal + _
  rw [tallyItems, foldl_tallyItem]
  change 0 + _ = 0 + _ + _
  rw [zero_add, zero_add]
  refine countsOf_parts (included_nodup.filter _) _ fun item listed owner named => ?_
  by_cases archived : owner ∈ archivedProjects state
  · exact .inr archived
  · have known := complete.owners item listed owner named
    exact .inl (List.mem_filter.mpr ⟨mem_included.mpr ⟨complete.chosen owner known, known⟩,
      decide_eq_true archived⟩)

/-- For a state in order there is a summary. In each scope it is asked for, its next action is the least
ready item, and without one it names blocked items exactly where the scope has candidates; the order in
which items and relationships are listed does not matter to it; and when all the projects are selected,
the counts of the portfolio are those of the personal items and of the unarchived projects. -/
theorem attentionSummary_exact (wellFormed : WellFormed state) :
    ∃ summary, attentionSummary state selected time = .ok summary ∧
      (∀ scope, Asked state selected scope → ∃ attention, (∀ other, summary.At scope other ↔ other = attention) ∧
        Directs state time scope attention) ∧
      (∀ state', Reordered state state' → attentionSummary state' selected time = .ok summary) ∧
      (Complete state selected → summary.portfolio.counts =
        summary.personal.counts + (projectCounts state summary).sum) := by
  refine ⟨_, attentionSummary_eq wellFormed, fun scope asked => summaryOf_directs wellFormed asked, ?_,
    summaryOf_shares⟩
  intro state' reordered
  rw [attentionSummary_eq (reordered.wellFormed wellFormed), reordered.summaryOf wellFormed]

def personalStatus (category : String) : Value :=
  .object [("status_id", .string category), ("category", .string category)]

def personalTask (id statusId : String) : Value :=
  .object [("id", .string id), ("kind", .string "task"), ("status_id", .string statusId)]

def dependentTasks : Value := .object [
  ("items", .array [personalTask "release" "open", personalTask "review" "waiting"]),
  ("statuses", .array [personalStatus "open", personalStatus "waiting"]),
  ("relationships", .array [.object [("source_id", .string "release"), ("target_id", .string "review"),
    ("kind", .string "depends_on")]])]

def newYear : GlobalCivilTimeContext := ⟨utf8 "2025-01-01", ⟨[], 0, none⟩, fun table => table⟩

theorem dependentTasks_wellFormed : WellFormed dependentTasks where
  identified := by
    change ∀ item ∈ [_, _], _
    simp only [List.forall_mem_cons, List.not_mem_nil, false_imp_iff, implies_true, and_true]
    exact ⟨⟨"release", rfl⟩, ⟨"review", rfl⟩⟩
  distinct := by decide
  related := by
    change ∀ row ∈ [_], _
    rw [List.forall_mem_singleton]
    exact ⟨_, _, _, rfl, rfl, rfl, List.mem_cons_self⟩

theorem attentionSummary_exact_blocked :
    ∃ summary, attentionSummary dependentTasks [] newYear = .ok summary ∧
      summary.personal.nextAction = none ∧ summary.personal.blockedBy ≠ [] := by
  obtain ⟨summary, made, scopes, -⟩ := @attentionSummary_exact dependentTasks newYear [] dependentTasks_wellFormed
  obtain ⟨attention, here, directs⟩ := scopes .personal trivial
  cases (here summary.personal).mp rfl
  have without : summary.personal.nextAction = none := by
    refine directs.without.mpr fun item ready => ?_
    rcases List.mem_cons.mp ready.listed with rfl | other
    · obtain ⟨review, listed, named, done⟩ := ready.prepared "release" "review" rfl
        ⟨_, List.mem_cons_self, .inl ⟨rfl, rfl, rfl⟩⟩
      rcases List.mem_cons.mp listed with rfl | other
      · exact absurd named (by decide)
      · cases List.mem_singleton.mp other
        exact absurd done (by decide)
    · cases List.mem_singleton.mp other
      exact absurd ready.category (by decide)
  refine ⟨summary, made, without, (directs.blocked without).mpr ⟨_, List.mem_cons_self, ?_, ?_, ?_, ?_⟩⟩
  · rfl
  · decide
  · exact .inl (by decide)
  · exact .inl (by decide)

end Boreal.GlobalManager
