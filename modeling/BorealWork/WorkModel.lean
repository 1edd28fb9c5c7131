/- Work-model v3: the decomposition forest, and direct dependencies checked one edge at a time
against the edges accepted before. -/
import BorealWork.Identity
import BorealWork.Library.Drain
import BorealWork.Library.Walks

namespace Boreal.WorkModel
open Relation Walks

inductive DecompositionKind
  | milestone
  | task
  deriving DecidableEq

inductive ExecutionMode
  | direct
  | container
  deriving DecidableEq

structure WorkNode where
  id : WorkId
  projectId : ProjectId
  kind : DecompositionKind
  executionMode : ExecutionMode
  parentId : Option WorkId
  title : String
  deriving DecidableEq

def WorkNode.isDirect (node : WorkNode) : Bool := node.executionMode = .direct

structure LocalDate where
  year : ℤ
  month : ℕ
  day : ℕ

/-- The derived order compares the fields in declaration order. -/
def LocalDate.key (date : LocalDate) : ℤ ×ₗ ℕ ×ₗ ℕ :=
  toLex (date.year, toLex (date.month, date.day))

theorem LocalDate.key_injective : Function.Injective LocalDate.key := by
  intro ⟨y, m, d⟩ ⟨y', m', d'⟩ h
  simp only [key, EmbeddingLike.apply_eq_iff_eq, Prod.mk.injEq] at h
  obtain ⟨rfl, rfl, rfl⟩ := h
  rfl

instance : LinearOrder LocalDate := LinearOrder.lift' LocalDate.key LocalDate.key_injective

structure LocalTime where
  hour : ℕ
  minute : ℕ
  second : ℕ
  deriving DecidableEq

inductive ModelError
  | duplicateIdentifier (id : String)
  | missingParent (id : WorkId)
  | missingWork (id : WorkId)
  | crossProjectReference (source target : WorkId)
  | milestoneMustBeContainer (id : WorkId)
  | invalidParentShape (parent child : WorkId)
  | directTaskHasChildren (id : WorkId)
  | decompositionCycle (id : WorkId)
  | dependencyEndpointNotDirect (blocker blocked : WorkId)
  | duplicateDependency (blocker blocked : WorkId)
  | dependencyCycle (id : WorkId)
  | invalidSchedule (reason : String)
  | invalidExternalWait (reason : String)
  | invalidLocalDate (date : LocalDate)
  | invalidLocalTime (time : LocalTime)
  | invalidUtcOffset (minutes : ℤ)
  | missingTimeZoneIdentity
  deriving DecidableEq

abbrev WorkIndex := Std.TreeMap WorkId WorkNode
abbrev ChildIndex := Std.TreeMap WorkId (List WorkId)

def indexWork : List WorkNode → WorkIndex → Except ModelError WorkIndex :=
  Lookup.indexAll WorkNode.id (fun _ => none) (fun node => .duplicateIdentifier node.id.value)
    fun node => if node.kind = .milestone ∧ node.executionMode ≠ .container then
        some (.milestoneMustBeContainer node.id)
      else none

def allowedParent (parent child : WorkNode) : Bool :=
  match parent.kind, parent.executionMode, child.kind with
  | .milestone, .container, .milestone => true
  | .milestone, .container, .task => true
  | .task, .container, .task => true
  | _, _, _ => false

def linkParents (byId : WorkIndex) : List WorkNode → ChildIndex → Except ModelError ChildIndex
  | [], children => .ok children
  | node :: rest, children => match node.parentId with
      | none => linkParents byId rest children
      | some parentId => match byId[parentId]? with
          | none => .error (.missingParent node.id)
          | some parent =>
            if node.projectId ≠ parent.projectId then
              .error (.crossProjectReference node.id parent.id)
            else if allowedParent parent node = false then
              .error (.invalidParentShape parent.id node.id)
            else linkParents byId rest
              (children.insert parent.id (children.getD parent.id [] ++ [node.id]))

def checkChildless (children : ChildIndex) (node : WorkNode) : Except ModelError Unit :=
  if node.isDirect && children.contains node.id then .error (.directTaskHasChildren node.id)
  else .ok ()

/-- Where the walk up the parent links stands. -/
structure Climb where
  seen : Std.TreeSet WorkId
  current : Option WorkId

/-- A climb stops past a root, or at an id it has already seen. -/
def climbStep (byId : WorkIndex) (s : Climb) : Option Climb :=
  match s.current with
  | none => none
  | some id =>
    if s.seen.contains id then none
    else some ⟨s.seen.insert id, byId[id]?.bind WorkNode.parentId⟩

def checkClimb (byId : WorkIndex) (node : WorkNode) : Except ModelError Unit :=
  match (Drain.drain (climbStep byId) (byId.toList.length + 2) ⟨∅, some node.id⟩).current with
  | none => .ok ()
  | some id => .error (.decompositionCycle id)

def validateDecomposition (nodes : List WorkNode) : Except ModelError Unit :=
  match indexWork nodes ∅ with
  | .error error => .error error
  | .ok byId => match linkParents byId nodes ∅ with
      | .error error => .error error
      | .ok children => match nodes.forM (checkChildless children) with
          | .error error => .error error
          | .ok () => nodes.forM (checkClimb byId)

structure DirectDependency where
  blockerId : WorkId
  blockedId : WorkId
  deriving DecidableEq

abbrev Arc := WorkId ×ₗ WorkId

def Arc.source (arc : Arc) : WorkId := (ofLex arc).1
def Arc.destination (arc : Arc) : WorkId := (ofLex arc).2

def DirectDependency.arc (edge : DirectDependency) : Arc := toLex (edge.blockerId, edge.blockedId)

/-- A depth-first search with an explicit stack, last pushed first. -/
structure Search where
  stack : List WorkId
  visited : Std.TreeSet WorkId
  found : Bool

def destinations (edges : Std.TreeSet Arc) (current : WorkId) : List WorkId :=
  (edges.toList.filter (·.source = current)).map Arc.destination

def searchStep (edges : Std.TreeSet Arc) (target : WorkId) (s : Search) : Option Search :=
  if s.found then none
  else match s.stack with
    | [] => none
    | current :: rest =>
      if s.visited.contains current then some ⟨rest, s.visited, false⟩
      else if target ∈ destinations edges current then
        some ⟨rest, s.visited.insert current, true⟩
      else some ⟨(destinations edges current).reverse ++ rest, s.visited.insert current, false⟩

def reaches (edges : Std.TreeSet Arc) (origin target : WorkId) : Bool :=
  if origin = target then true
  else (Drain.drain (searchStep edges target) (edges.toList.length + 1) ⟨[origin], ∅, false⟩).found

/-- Each edge is inserted before it is asked whether its head reaches its tail. -/
def checkDependencies (byId : WorkIndex) :
    List DirectDependency → Std.TreeSet Arc → Except ModelError Unit
  | [], _ => .ok ()
  | edge :: rest, edges => match byId[edge.blockerId]? with
      | none => .error (.missingWork edge.blockerId)
      | some blocker => match byId[edge.blockedId]? with
          | none => .error (.missingWork edge.blockedId)
          | some blocked =>
            if blocker.projectId ≠ blocked.projectId then
              .error (.crossProjectReference blocker.id blocked.id)
            else if !blocker.isDirect || !blocked.isDirect then
              .error (.dependencyEndpointNotDirect blocker.id blocked.id)
            else if edges.contains edge.arc then
              .error (.duplicateDependency edge.blockerId edge.blockedId)
            else if edge.blockerId = edge.blockedId ∨
                reaches (edges.insert edge.arc) edge.blockedId edge.blockerId then
              .error (.dependencyCycle edge.blockerId)
            else checkDependencies byId rest (edges.insert edge.arc)

def validateDirectDependencies (nodes : List WorkNode) (dependencies : List DirectDependency) :
    Except ModelError Unit :=
  match validateDecomposition nodes with
  | .error error => .error error
  | .ok () => checkDependencies (nodes.foldl (Lookup.indexBy WorkNode.id) ∅) dependencies ∅

section Reaches

variable {edges : Std.TreeSet Arc} {origin target : WorkId}

theorem mem_destinations {a b : WorkId} :
    b ∈ destinations edges a ↔ Step Arc.source Arc.destination (· ∈ edges) a b := by
  simp [destinations, Step, and_assoc]

structure SearchInvariant (edges : Std.TreeSet Arc) (origin target : WorkId) (s : Search) :
    Prop where
  sound : s.found = true →
    ReflTransGen (Step Arc.source Arc.destination (· ∈ edges)) origin target
  reached : ∀ v ∈ s.stack, ReflTransGen (Step Arc.source Arc.destination (· ∈ edges)) origin v
  entered : s.found = false → origin ∈ s.visited ∨ origin ∈ s.stack
  closed : s.found = false → ∀ a ∈ s.visited, ∀ b,
    Step Arc.source Arc.destination (· ∈ edges) a b → b ≠ target ∧ (b ∈ s.visited ∨ b ∈ s.stack)

def Search.work (edges : Std.TreeSet Arc) (s : Search) : ℕ :=
  s.stack.length + (edges.toList.filter fun arc => arc.source ∉ s.visited).length

theorem length_filter_split (arcs : List Arc) (visited : Std.TreeSet WorkId) {current : WorkId}
    (fresh : current ∉ visited) : (arcs.filter fun arc => arc.source ∉ visited).length =
      (arcs.filter (·.source = current)).length +
        (arcs.filter fun arc => arc.source ∉ visited.insert current).length := by
  induction arcs with
  | nil => rfl
  | cons arc rest ih =>
    have inserted : arc.source ∈ visited.insert current ↔
        current = arc.source ∨ arc.source ∈ visited := Lookup.mem_insert
    simp only [List.filter_cons, decide_eq_true_eq]
    by_cases own : arc.source = current
    · have unseen : arc.source ∉ visited := own ▸ fresh
      have seen : ¬ arc.source ∉ visited.insert current := not_not.mpr (inserted.mpr (.inl own.symm))
      rw [if_pos unseen, if_pos own, if_neg seen, List.length_cons, List.length_cons, ih]
      omega
    · by_cases old : arc.source ∈ visited
      · rw [if_neg (not_not.mpr old), if_neg own, if_neg (not_not.mpr (inserted.mpr (.inr old))), ih]
      · have unseen : arc.source ∉ visited.insert current := by
          rw [inserted]
          exact not_or.mpr ⟨Ne.symm own, old⟩
        rw [if_pos old, if_neg own, if_pos unseen, List.length_cons, List.length_cons, ih]
        omega

theorem searchStep_spec {s s' : Search} (inv : SearchInvariant edges origin target s)
    (step : searchStep edges target s = some s') :
    SearchInvariant edges origin target s' ∧ s'.work edges < s.work edges := by
  obtain ⟨stack, visited, found⟩ := s
  unfold searchStep at step
  cases found with
  | true => cases step
  | false =>
    cases stack with
    | nil => cases step
    | cons current rest =>
      have walk := inv.reached current List.mem_cons_self
      simp only [Bool.false_eq_true, if_false] at step
      by_cases old : current ∈ visited
      · rw [if_pos (Std.TreeSet.mem_iff_contains.mp old)] at step
        cases step
        have popped (v : WorkId) (known : v ∈ visited ∨ v ∈ current :: rest) :
            v ∈ visited ∨ v ∈ rest := by
          rcases known with early | member
          · exact .inl early
          · rcases List.mem_cons.mp member with rfl | later
            · exact .inl old
            · exact .inr later
        refine ⟨⟨fun h => (by cases h), fun v member => inv.reached v (List.mem_cons_of_mem _ member),
          fun _ => popped _ (inv.entered rfl), ?_⟩, ?_⟩
        · intro _ a member b arc
          obtain ⟨other, known⟩ := inv.closed rfl a member b arc
          exact ⟨other, popped b known⟩
        · simp only [Search.work, List.length_cons]
          omega
      · rw [if_neg (mt Std.TreeSet.mem_iff_contains.mpr old)] at step
        have split := length_filter_split edges.toList visited old
        by_cases hit : target ∈ destinations edges current
        · rw [if_pos hit] at step
          cases step
          refine ⟨⟨fun _ => walk.tail (mem_destinations.mp hit),
            fun v member => inv.reached v (List.mem_cons_of_mem _ member),
            fun h => (by cases h), fun h => (by cases h)⟩, ?_⟩
          simp only [Search.work, List.length_cons]
          omega
        · rw [if_neg hit] at step
          cases step
          have moved (v : WorkId) (known : v ∈ visited ∨ v ∈ current :: rest) :
              v ∈ visited.insert current ∨
                v ∈ (destinations edges current).reverse ++ rest := by
            rw [Lookup.mem_insert, List.mem_append]
            rcases known with early | member
            · exact .inl (.inr early)
            · rcases List.mem_cons.mp member with rfl | later
              · exact .inl (.inl rfl)
              · exact .inr (.inr later)
          refine ⟨⟨fun h => (by cases h), ?_, fun _ => moved _ (inv.entered rfl), ?_⟩, ?_⟩
          · intro v member
            rcases List.mem_append.mp member with next | later
            · exact walk.tail (mem_destinations.mp (List.mem_reverse.mp next))
            · exact inv.reached v (List.mem_cons_of_mem _ later)
          · intro _ a member b arc
            rcases Lookup.mem_insert.mp member with rfl | early
            · have next := mem_destinations.mpr arc
              refine ⟨fun equal => hit (equal ▸ next), .inr (List.mem_append_left _ ?_)⟩
              exact List.mem_reverse.mpr next
            · obtain ⟨other, known⟩ := inv.closed rfl a early b arc
              exact ⟨other, moved b known⟩
          · have size : (destinations edges current).length =
                (edges.toList.filter (·.source = current)).length := List.length_map _
            simp only [Search.work, List.length_cons, List.length_append, List.length_reverse]
            omega

theorem reaches_iff : reaches edges origin target = true ↔
    ReflTransGen (Step Arc.source Arc.destination (· ∈ edges)) origin target := by
  unfold reaches
  by_cases same : origin = target
  · rw [if_pos same]
    exact iff_of_true rfl (same ▸ .refl)
  · rw [if_neg same]
    have start : SearchInvariant edges origin target ⟨[origin], ∅, false⟩ := by
      refine ⟨fun h => (by cases h), ?_, fun _ => .inr (List.mem_singleton_self _), ?_⟩
      · intro v member
        exact List.mem_singleton.mp member ▸ .refl
      · exact fun _ a member => by simp at member
    have fuel : Search.work edges ⟨[origin], ∅, false⟩ ≤ edges.toList.length + 1 := by
      have := List.length_filter_le (fun arc : Arc => arc.source ∉ (∅ : Std.TreeSet WorkId))
        edges.toList
      simp only [Search.work, List.length_singleton]
      omega
    have inv := Drain.drain_invariant (fun _ _ inv step => (searchStep_spec inv step).1)
      (edges.toList.length + 1) start
    have stopped := Drain.drain_stopped (Search.work edges)
      (fun _ _ inv step => (searchStep_spec inv step).1)
      (fun _ _ inv step => (searchStep_spec inv step).2) start fuel
    generalize Drain.drain (searchStep edges target) (edges.toList.length + 1)
      ⟨[origin], ∅, false⟩ = final at inv stopped ⊢
    obtain ⟨stack, visited, found⟩ := final
    cases found with
    | true => exact iff_of_true rfl (inv.sound rfl)
    | false =>
      cases stack with
      | cons current rest =>
        unfold searchStep at stopped
        simp only [Bool.false_eq_true, if_false] at stopped
        split_ifs at stopped
      | nil =>
        refine iff_of_false Bool.false_ne_true ?_
        intro walk
        have closed (a : WorkId) (member : a ∈ {v | v ∈ visited}) (b : WorkId)
            (arc : Step Arc.source Arc.destination (· ∈ edges) a b) : b ∈ {v | v ∈ visited} :=
          (inv.closed rfl a member b arc).2.resolve_right List.not_mem_nil
        have entered : origin ∈ {v | v ∈ visited} :=
          (inv.entered rfl).resolve_right List.not_mem_nil
        rcases ReflTransGen.cases_tail walk with equal | ⟨a, before, arc⟩
        · exact same equal.symm
        · exact (inv.closed rfl a (mem_of_reflTransGen closed entered before) _ arc).1 rfl

end Reaches

theorem linkParents_roots {byId : WorkIndex} {nodes : List WorkNode} (children : ChildIndex)
    (roots : ∀ node ∈ nodes, node.parentId = none) : linkParents byId nodes children = .ok children := by
  induction nodes with
  | nil => rfl
  | cons node rest ih =>
    rw [List.forall_mem_cons] at roots
    rw [linkParents, roots.1]
    exact ih roots.2

theorem checkClimb_root {byId : WorkIndex} {node : WorkNode}
    (root : byId[node.id]?.bind WorkNode.parentId = none) : checkClimb byId node = .ok () := by
  have first : climbStep byId ⟨∅, some node.id⟩ = some ⟨(∅ : Std.TreeSet WorkId).insert node.id, none⟩ := by
    simp [climbStep, root]
  simp only [checkClimb, Drain.drain, first]
  rfl

theorem validateDecomposition_roots {nodes : List WorkNode}
    (tasks : ∀ node ∈ nodes, node.kind = .task ∧ node.parentId = none) :
    validateDecomposition nodes = .ok () ↔ (nodes.map WorkNode.id).Nodup := by
  have kinds (node : WorkNode) (member : node ∈ nodes) :
      (if node.kind = .milestone ∧ node.executionMode ≠ .container then
        some (ModelError.milestoneMustBeContainer node.id) else none) = none := by
    rw [(tasks node member).1]
    simp
  unfold validateDecomposition
  cases indexed : indexWork nodes ∅ with
  | error error =>
    refine iff_of_false (by simp) ?_
    intro distinct
    have accepted : indexWork nodes ∅ = .ok (nodes.foldl (Lookup.indexBy WorkNode.id) ∅) :=
      Lookup.indexAll_ok.mpr ⟨fun node member => ⟨rfl, kinds node member⟩, distinct, by simp, rfl⟩
    cases indexed.symm.trans accepted
  | ok byId =>
    obtain ⟨_, distinct, apart, rfl⟩ := Lookup.indexAll_ok.mp indexed
    refine iff_of_true ?_ distinct
    have childless : nodes.forM (checkChildless ∅) = .ok () := by
      refine Drain.forM_eq_ok.mpr fun node _ => ?_
      simp [checkChildless]
    have climbs : nodes.forM
        (checkClimb (nodes.foldl (Lookup.indexBy WorkNode.id) ∅)) = .ok () := by
      refine Drain.forM_eq_ok.mpr fun node member => checkClimb_root ?_
      have found := (Lookup.getElem?_foldl_indexBy distinct apart).mpr (.inr ⟨member, rfl⟩)
      rw [found, Option.bind_some]
      exact (tasks node member).2
    simp only [linkParents_roots ∅ fun node member => (tasks node member).2, childless, climbs]

theorem validateDecomposition_indexed {nodes : List WorkNode}
    (valid : validateDecomposition nodes = .ok ()) :
    (nodes.map WorkNode.id).Nodup ∧
      ∀ node ∈ nodes, node.kind = .milestone → node.executionMode = .container := by
  rw [validateDecomposition] at valid
  cases indexed : indexWork nodes ∅ with
  | error error => simp [indexed] at valid
  | ok byId =>
    obtain ⟨passed, distinct, _⟩ := Lookup.indexAll_ok.mp indexed
    refine ⟨distinct, fun node member milestone => ?_⟩
    have shape := (passed node member).2
    by_contra direct
    rw [if_pos ⟨milestone, direct⟩] at shape
    cases shape

section Incremental

variable {byId : WorkIndex} {projectId : ProjectId}

def DirectWork (byId : WorkIndex) (projectId : ProjectId) (id : WorkId) : Prop :=
  ∃ node, byId[id]? = some node ∧ node.projectId = projectId ∧ node.isDirect = true

theorem checkDependencies_ok {dependencies : List DirectDependency} {edges : Std.TreeSet Arc}
    (known : ∀ e ∈ dependencies,
      DirectWork byId projectId e.blockerId ∧ DirectWork byId projectId e.blockedId)
    (acyclic : Acyclic Arc.source Arc.destination (· ∈ edges)) :
    checkDependencies byId dependencies edges = .ok () ↔
      (∀ e ∈ dependencies, e.arc ∉ edges) ∧ (dependencies.map DirectDependency.arc).Nodup ∧
      Acyclic Arc.source Arc.destination
        fun arc => arc ∈ edges ∨ arc ∈ dependencies.map DirectDependency.arc := by
  induction dependencies generalizing edges with
  | nil => simpa [checkDependencies] using acyclic
  | cons e rest ih =>
    rw [List.forall_mem_cons] at known
    obtain ⟨⟨blocker, found₁, scope₁, direct₁⟩, blocked, found₂, scope₂, direct₂⟩ := known.1
    have inserted (arc : Arc) : arc ∈ edges.insert e.arc ↔ arc ∈ edges ∨ arc = e.arc := by
      rw [Lookup.mem_insert, or_comm, eq_comm]
    have together (arc : Arc) : (arc ∈ edges.insert e.arc ∨
        arc ∈ rest.map DirectDependency.arc) ↔
          arc ∈ edges ∨ arc ∈ (e :: rest).map DirectDependency.arc := by
      rw [inserted, List.map_cons, List.mem_cons, or_assoc]
    have closes : (e.blockerId = e.blockedId ∨
        reaches (edges.insert e.arc) e.blockedId e.blockerId = true) ↔
          ¬ Acyclic Arc.source Arc.destination (· ∈ edges.insert e.arc) := by
      simp only [reaches_iff, inserted, acyclic_insert, acyclic, true_and, not_not]
      exact or_iff_right_of_imp fun equal => equal ▸ .refl
    rw [checkDependencies]
    simp only [found₁, found₂, scope₁, scope₂, direct₁, direct₂, ne_eq, not_true_eq_false,
      if_false, Bool.not_true, Bool.or_false, Bool.false_eq_true]
    by_cases old : e.arc ∈ edges
    · rw [if_pos (Std.TreeSet.mem_iff_contains.mp old)]
      exact iff_of_false (by simp) fun accepted => accepted.1 e List.mem_cons_self old
    · rw [if_neg (mt Std.TreeSet.mem_iff_contains.mpr old)]
      by_cases next : Acyclic Arc.source Arc.destination (· ∈ edges.insert e.arc)
      · rw [if_neg (not_not.mpr next ∘ closes.mp), ih known.2 next]
        simp only [together]
        rw [List.map_cons, List.nodup_cons, List.forall_mem_cons]
        constructor
        · rintro ⟨apart, distinct, all⟩
          refine ⟨⟨old, fun f member => ?_⟩, ⟨?_, distinct⟩, all⟩
          · exact fun early => apart f member ((inserted _).mpr (.inl early))
          · intro member
            obtain ⟨f, inside, same⟩ := List.mem_map.mp member
            exact apart f inside ((inserted _).mpr (.inr same))
        · rintro ⟨⟨_, apart⟩, ⟨absent, distinct⟩, all⟩
          refine ⟨fun f member => ?_, distinct, all⟩
          intro present
          rcases (inserted _).mp present with early | same
          · exact apart f member early
          · exact absent (same ▸ List.mem_map_of_mem member)
      · rw [if_pos (closes.mpr next)]
        refine iff_of_false (by simp) fun accepted => next ?_
        exact accepted.2.2.mono fun arc member => (together arc).mp (.inl member)

theorem validateDirectDependencies_ok {nodes : List WorkNode} {dependencies : List DirectDependency}
    (distinct : (nodes.map WorkNode.id).Nodup)
    (tasks : ∀ node ∈ nodes, node.projectId = projectId ∧ node.kind = .task ∧
      node.executionMode = .direct ∧ node.parentId = none)
    (known : ∀ e ∈ dependencies, (∃ node ∈ nodes, node.id = e.blockerId) ∧
      ∃ node ∈ nodes, node.id = e.blockedId)
    (duplicateFree : (dependencies.map DirectDependency.arc).Nodup) :
    validateDirectDependencies nodes dependencies = .ok () ↔
      Acyclic Arc.source Arc.destination (· ∈ dependencies.map DirectDependency.arc) := by
  have decomposed : validateDecomposition nodes = .ok () :=
    (validateDecomposition_roots fun node member =>
      ⟨(tasks node member).2.1, (tasks node member).2.2.2⟩).mpr distinct
  have direct (id : WorkId) (listed : ∃ node ∈ nodes, node.id = id) :
      DirectWork (nodes.foldl (Lookup.indexBy WorkNode.id) ∅) projectId id := by
    obtain ⟨node, member, rfl⟩ := listed
    obtain ⟨scope, _, mode, _⟩ := tasks node member
    refine ⟨node, (Lookup.getElem?_foldl_indexBy distinct (by simp)).mpr (.inr ⟨member, rfl⟩),
      scope, ?_⟩
    rw [WorkNode.isDirect, mode]
    rfl
  have empty : Acyclic Arc.source Arc.destination (· ∈ (∅ : Std.TreeSet Arc)) := by
    rw [acyclic_iff_arc]
    simp
  simp only [validateDirectDependencies, decomposed]
  rw [@checkDependencies_ok _ projectId _ _ (fun e member =>
    ⟨direct _ (known e member).1, direct _ (known e member).2⟩) empty]
  simp [duplicateFree]

end Incremental

end Boreal.WorkModel
