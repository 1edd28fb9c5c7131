/- Work items of the schema-2 model, and the recursive reachability check on their edges. -/
import BorealWork.Identity
import BorealWork.Library.Drain
import BorealWork.Library.Walks

namespace Boreal
open Relation Walks

inductive WorkKind
  | milestone
  | sprint
  | task
  deriving DecidableEq

structure WorkItem where
  id : WorkId
  projectId : ProjectId
  kind : WorkKind
  parentId : Option WorkId
  deriving DecidableEq

structure DependencyEdge where
  blockerId : WorkId
  blockedId : WorkId
  policy : DependencyPolicy
  deriving DecidableEq

inductive DomainError
  | missingWork (id : WorkId)
  | crossProjectReference (source target : WorkId)
  | dependencyCycle (blocker blocked : WorkId)
  deriving DecidableEq

/-- `any` over the outgoing edges; the visited list is shared by the calls. -/
def reachesAny (reach : WorkId → List WorkId → Bool × List WorkId) :
    List DependencyEdge → List WorkId → Bool × List WorkId
  | [], visited => (false, visited)
  | edge :: rest, visited => match reach edge.blockedId visited with
      | (true, visited) => (true, visited)
      | (false, visited) => reachesAny reach rest visited

/-- The fuel bounds the depth of the recursion; `reaches_iff` shows that it is never spent. -/
def reaches (edges : List DependencyEdge) (target : WorkId) :
    ℕ → WorkId → List WorkId → Bool × List WorkId
  | 0, _, visited => (false, visited)
  | fuel + 1, origin, visited =>
    if origin = target then (true, visited)
    else if visited.any (· = origin) then (false, visited)
    else reachesAny (reaches edges target fuel) (edges.filter (·.blockerId = origin))
      (visited ++ [origin])

def validateDependencyEdge (items : List WorkItem) (dependencies : List DependencyEdge)
    (dependency : DependencyEdge) : Except DomainError Unit :=
  match items.find? (·.id = dependency.blockerId) with
  | none => .error (.missingWork dependency.blockerId)
  | some blocker => match items.find? (·.id = dependency.blockedId) with
      | none => .error (.missingWork dependency.blockedId)
      | some blocked =>
        if blocker.projectId ≠ blocked.projectId then
          .error (.crossProjectReference blocker.id blocked.id)
        else if blocker.id = blocked.id ∨
            (reaches dependencies blocker.id (dependencies.length + 2) blocked.id []).1 then
          .error (.dependencyCycle blocker.id blocked.id)
        else .ok ()

def validateDependencyEdges (items : List WorkItem) (dependencies : List DependencyEdge) :
    Except DomainError Unit :=
  dependencies.forM (validateDependencyEdge items dependencies)

abbrev Blocks (edges : List DependencyEdge) : WorkId → WorkId → Prop :=
  Step DependencyEdge.blockerId DependencyEdge.blockedId (· ∈ edges)

section Reaches

variable {edges : List DependencyEdge} {target : WorkId}

/-- What a search that missed the target added: vertices other than the target, each with all its
successors. -/
structure Missed (edges : List DependencyEdge) (target : WorkId) (visited visited' : List WorkId) :
    Prop where
  kept : ∀ a ∈ visited, a ∈ visited'
  avoided : ∀ a ∈ visited', a ∉ visited → a ≠ target
  closed : ∀ a ∈ visited', a ∉ visited → ∀ b, Blocks edges a b → b ∈ visited'

theorem Missed.refl (visited : List WorkId) : Missed edges target visited visited :=
  ⟨fun _ => id, fun _ member fresh => absurd member fresh, fun _ member fresh => absurd member fresh⟩

theorem Missed.trans {v₁ v₂ v₃ : List WorkId} (first : Missed edges target v₁ v₂)
    (second : Missed edges target v₂ v₃) : Missed edges target v₁ v₃ := by
  refine ⟨fun a member => second.kept a (first.kept a member), ?_, ?_⟩
  · intro a member fresh
    by_cases early : a ∈ v₂
    · exact first.avoided a early fresh
    · exact second.avoided a member early
  · intro a member fresh b step
    by_cases early : a ∈ v₂
    · exact second.kept b (first.closed a early fresh b step)
    · exact second.closed a member early b step

def Answers (edges : List DependencyEdge) (target origin : WorkId) (visited : List WorkId) :
    Bool × List WorkId → Prop
  | (true, _) => ReflTransGen (Blocks edges) origin target
  | (false, visited') => Missed edges target visited visited' ∧ origin ∈ visited'

def AnswersAny (edges : List DependencyEdge) (target : WorkId) (outgoing : List DependencyEdge)
    (visited : List WorkId) : Bool × List WorkId → Prop
  | (true, _) => ∃ e ∈ outgoing, ReflTransGen (Blocks edges) e.blockedId target
  | (false, visited') => Missed edges target visited visited' ∧
      ∀ e ∈ outgoing, e.blockedId ∈ visited'

/-- Vertices that a search may still enter. -/
def unentered (scope : Finset WorkId) (visited : List WorkId) : ℕ :=
  (scope.filter fun v => v ∉ visited).card

theorem unentered_le {scope : Finset WorkId} {visited visited' : List WorkId}
    (kept : ∀ a ∈ visited, a ∈ visited') : unentered scope visited' ≤ unentered scope visited := by
  refine Finset.card_le_card ?_
  intro v member
  obtain ⟨inside, fresh⟩ := Finset.mem_filter.mp member
  exact Finset.mem_filter.mpr ⟨inside, fun old => fresh (kept v old)⟩

theorem unentered_lt {scope : Finset WorkId} {visited : List WorkId} {origin : WorkId}
    (inside : origin ∈ scope) (fresh : origin ∉ visited) :
    unentered scope (visited ++ [origin]) < unentered scope visited := by
  refine Finset.card_lt_card ⟨?_, ?_⟩
  · intro v member
    obtain ⟨known, absent⟩ := Finset.mem_filter.mp member
    exact Finset.mem_filter.mpr ⟨known, fun old => absent (List.mem_append_left _ old)⟩
  · intro all
    have own := all (Finset.mem_filter.mpr ⟨inside, fresh⟩)
    exact (Finset.mem_filter.mp own).2 (List.mem_append_right _ (List.mem_singleton_self origin))

theorem reachesAny_spec {reach : WorkId → List WorkId → Bool × List WorkId}
    {scope : Finset WorkId} {bound : ℕ}
    (answers : ∀ origin ∈ scope, ∀ visited, unentered scope visited < bound →
      Answers edges target origin visited (reach origin visited))
    {outgoing : List DependencyEdge} (inside : ∀ e ∈ outgoing, e.blockedId ∈ scope)
    {visited : List WorkId} (fuel : unentered scope visited < bound) :
    AnswersAny edges target outgoing visited (reachesAny reach outgoing visited) := by
  induction outgoing generalizing visited with
  | nil => exact ⟨Missed.refl visited, fun e member => absurd member List.not_mem_nil⟩
  | cons edge rest ih =>
    rw [List.forall_mem_cons] at inside
    have answer := answers edge.blockedId inside.1 visited fuel
    rw [reachesAny]
    cases result : reach edge.blockedId visited with
    | mk found seen =>
      rw [result] at answer
      cases found with
      | true => exact ⟨edge, List.mem_cons_self, answer⟩
      | false =>
        obtain ⟨missed, entered⟩ := answer
        have later := ih inside.2 (lt_of_le_of_lt (unentered_le missed.kept) fuel)
        dsimp only
        cases final : reachesAny reach rest seen with
        | mk found' seen' =>
          rw [final] at later
          cases found' with
          | true =>
            obtain ⟨e, member, walk⟩ := later
            exact ⟨e, List.mem_cons_of_mem _ member, walk⟩
          | false =>
            obtain ⟨missed', entered'⟩ := later
            refine ⟨missed.trans missed', ?_⟩
            rw [List.forall_mem_cons]
            exact ⟨missed'.kept _ entered, entered'⟩

theorem reaches_spec {scope : Finset WorkId} (heads : ∀ e ∈ edges, e.blockedId ∈ scope) :
    ∀ fuel, ∀ origin ∈ scope, ∀ visited, unentered scope visited < fuel →
      Answers edges target origin visited (reaches edges target fuel origin visited) := by
  intro fuel
  induction fuel with
  | zero => exact fun _ _ _ low => absurd low (Nat.not_lt_zero _)
  | succ fuel ih =>
    intro origin inside visited low
    rw [reaches]
    by_cases hit : origin = target
    · rw [if_pos hit]
      exact hit ▸ .refl
    · rw [if_neg hit]
      by_cases old : origin ∈ visited
      · rw [if_pos (List.any_eq_true.mpr ⟨origin, old, decide_eq_true rfl⟩)]
        exact ⟨Missed.refl visited, old⟩
      · have fresh : ¬ visited.any (· = origin) = true := by simpa using old
        rw [if_neg fresh]
        have smaller : unentered scope (visited ++ [origin]) < fuel := by
          have := unentered_lt inside old
          omega
        have outgoing := @reachesAny_spec edges target _ scope fuel ih
          (edges.filter (·.blockerId = origin))
          (fun e member => heads e (List.mem_filter.mp member).1) _ smaller
        cases result : reachesAny (reaches edges target fuel)
            (edges.filter (·.blockerId = origin)) (visited ++ [origin]) with
        | mk found seen =>
          rw [result] at outgoing
          cases found with
          | true =>
            obtain ⟨e, member, walk⟩ := outgoing
            obtain ⟨known, leaves⟩ := List.mem_filter.mp member
            exact walk.head ⟨e, known, of_decide_eq_true leaves, rfl⟩
          | false =>
            obtain ⟨missed, entered⟩ := outgoing
            have own := missed.kept origin
              (List.mem_append_right _ (List.mem_singleton_self origin))
            have split (a : WorkId) (new : a ∉ visited) (other : a ≠ origin) :
                a ∉ visited ++ [origin] := by simp [new, other]
            refine ⟨⟨fun a member => missed.kept a (List.mem_append_left _ member), ?_, ?_⟩, own⟩
            · intro a member new
              by_cases same : a = origin
              · exact same ▸ hit
              · exact missed.avoided a member (split a new same)
            · rintro a member new b ⟨e, known, leaves, rfl⟩
              by_cases same : a = origin
              · exact entered e (List.mem_filter.mpr
                  ⟨known, decide_eq_true (leaves.trans same)⟩)
              · exact missed.closed a member (split a new same) _ ⟨e, known, leaves, rfl⟩

theorem reaches_iff {origin : WorkId} :
    (reaches edges target (edges.length + 2) origin []).1 = true ↔
      ReflTransGen (Blocks edges) origin target := by
  classical
  let scope : Finset WorkId := insert origin (edges.map DependencyEdge.blockedId).toFinset
  have heads (e : DependencyEdge) (member : e ∈ edges) : e.blockedId ∈ scope :=
    Finset.mem_insert_of_mem (List.mem_toFinset.mpr (List.mem_map_of_mem member))
  have size : unentered scope [] < edges.length + 2 := by
    have bound := List.toFinset_card_le (edges.map DependencyEdge.blockedId)
    have grown : scope.card ≤ (edges.map DependencyEdge.blockedId).toFinset.card + 1 :=
      Finset.card_insert_le _ _
    have filtered : unentered scope [] ≤ scope.card := Finset.card_filter_le _ _
    rw [List.length_map] at bound
    omega
  have answer := @reaches_spec edges target scope heads (edges.length + 2) origin
    (Finset.mem_insert_self _ _) [] size
  cases result : reaches edges target (edges.length + 2) origin [] with
  | mk found seen =>
    rw [result] at answer
    cases found with
    | true => exact iff_of_true rfl answer
    | false =>
      obtain ⟨missed, entered⟩ := answer
      simp only [Bool.false_eq_true, false_iff]
      intro walk
      have arrived := mem_of_reflTransGen (S := {v | v ∈ seen})
        (fun a member b step => missed.closed a member List.not_mem_nil b step) entered walk
      exact missed.avoided target arrived List.not_mem_nil rfl

end Reaches

theorem validateDependencyEdges_ok {items : List WorkItem} {dependencies : List DependencyEdge}
    {projectId : ProjectId} (scope : ∀ item ∈ items, item.projectId = projectId)
    (known : ∀ e ∈ dependencies, (∃ item ∈ items, item.id = e.blockerId) ∧
      ∃ item ∈ items, item.id = e.blockedId) :
    validateDependencyEdges items dependencies = .ok () ↔
      Acyclic DependencyEdge.blockerId DependencyEdge.blockedId (· ∈ dependencies) := by
  have found (id : WorkId) (listed : ∃ item ∈ items, item.id = id) :
      ∃ item ∈ items, items.find? (·.id = id) = some item ∧ item.id = id := by
    cases lookup : items.find? (·.id = id) with
    | none =>
      obtain ⟨item, member, named⟩ := listed
      exact absurd (decide_eq_true named) (List.find?_eq_none.mp lookup item member)
    | some item => exact ⟨item, List.mem_of_find?_eq_some lookup, rfl,
        by simpa using List.find?_some lookup⟩
  have each (e : DependencyEdge) (member : e ∈ dependencies) :
      validateDependencyEdge items dependencies e = .ok () ↔
        ¬ ReflTransGen (Blocks dependencies) e.blockedId e.blockerId := by
    obtain ⟨blocker, known₁, lookup₁, named₁⟩ := found _ (known e member).1
    obtain ⟨blocked, known₂, lookup₂, named₂⟩ := found _ (known e member).2
    have same : blocker.projectId = blocked.projectId :=
      (scope blocker known₁).trans (scope blocked known₂).symm
    have back : (blocker.id = blocked.id ∨
        (reaches dependencies blocker.id (dependencies.length + 2) blocked.id []).1 = true) ↔
          ReflTransGen (Blocks dependencies) e.blockedId e.blockerId := by
      rw [reaches_iff, named₁, named₂]
      exact or_iff_right_of_imp fun equal => equal ▸ .refl
    simp only [validateDependencyEdge, lookup₁, lookup₂, ne_eq, same, not_true_eq_false, if_false, back]
    split_ifs with closes
    · exact iff_of_false (by simp) fun free => free (back.mp closes)
    · exact iff_of_true rfl (mt back.mpr closes)
  rw [validateDependencyEdges, Drain.forM_eq_ok, acyclic_iff_arc]
  exact forall₂_congr each

end Boreal
