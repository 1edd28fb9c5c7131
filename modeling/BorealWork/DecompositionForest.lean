/- The decomposition check is exact: what it accepts is a forest of the allowed shapes, and every
climb it makes comes to its end. -/
import BorealWork.Library.Orders
import BorealWork.WorkModel

namespace Boreal.WorkModel
open Drain Relation

section Forests

variable {nodes : List WorkNode}

def MayHold (parent child : WorkNode) : Prop :=
  parent.executionMode = .container ∧ (child.kind = .milestone → parent.kind = .milestone)

/-- The one listed under `parentId` is the parent that a listed work names. -/
def IsParent (nodes : List WorkNode) (parentId childId : WorkId) : Prop :=
  ∃ node ∈ nodes, node.id = childId ∧ node.parentId = some parentId

structure Decomposed (nodes : List WorkNode) : Prop where
  distinct : (nodes.map WorkNode.id).Nodup
  containers : ∀ node ∈ nodes, node.kind = .milestone → node.executionMode = .container
  parents : ∀ node ∈ nodes, ∀ parentId ∈ node.parentId, ∃ parent ∈ nodes, parent.id = parentId ∧
    node.projectId = parent.projectId ∧ MayHold parent node
  childless : ∀ node ∈ nodes, node.executionMode = .direct →
    ∀ child ∈ nodes, child.parentId ≠ some node.id
  acyclic : ∀ id, ¬ TransGen (IsParent nodes) id id

theorem allowedParent_iff {parent child : WorkNode} :
    allowedParent parent child = true ↔ MayHold parent child := by
  rw [allowedParent, MayHold]
  cases parent.kind with
  | milestone => cases parent.executionMode <;> cases child.kind <;> simp
  | task => cases parent.executionMode <;> cases child.kind <;> simp

end Forests

section Links

variable {byId : WorkIndex} {nodes : List WorkNode}

def Linked (byId : WorkIndex) (node : WorkNode) : Prop :=
  ∀ parentId ∈ node.parentId, ∃ parent, byId[parentId]? = some parent ∧
    node.projectId = parent.projectId ∧ MayHold parent node

def parentKey (byId : WorkIndex) (node : WorkNode) : Option WorkId :=
  (node.parentId.bind fun parentId => byId[parentId]?).map WorkNode.id

theorem linkParents_cons {node : WorkNode} {rest : List WorkNode} {children children' : ChildIndex} :
    linkParents byId (node :: rest) children = .ok children' ↔
      Linked byId node ∧ linkParents byId rest
        ((parentKey byId node).elim children fun id =>
          children.insert id (children.getD id [] ++ [node.id])) = .ok children' := by
  rw [linkParents, Linked, parentKey]
  cases node.parentId with
  | none => simp
  | some parentId =>
    cases found : byId[parentId]? with
    | none => simp [found]
    | some parent =>
      simp only [Option.mem_def, Option.some.injEq, forall_eq', Option.bind_some, found,
        Option.map_some, Option.elim_some, exists_eq_left']
      split_ifs with scope shape
      · simp [scope]
      · have refused : ¬ MayHold parent node := by
          rw [← allowedParent_iff, shape]
          exact Bool.false_ne_true
        simp [refused]
      · rw [Bool.not_eq_false, allowedParent_iff] at shape
        simp [not_not.mp scope, shape]

theorem linkParents_ok {children children' : ChildIndex}
    (linked : linkParents byId nodes children = .ok children') :
    (∀ node ∈ nodes, Linked byId node) ∧ ∀ id, children'.contains id = true ↔
      children.contains id = true ∨ ∃ node ∈ nodes, parentKey byId node = some id := by
  induction nodes generalizing children with
  | nil =>
    cases linked
    simp
  | cons node rest ih =>
    obtain ⟨own, later⟩ := linkParents_cons.mp linked
    obtain ⟨others, named⟩ := ih later
    refine ⟨List.forall_mem_cons.mpr ⟨own, others⟩, fun id => ?_⟩
    rw [named, List.exists_mem_cons_iff, ← or_assoc]
    refine or_congr_left ?_
    cases parentKey byId node with
    | none => simp
    | some key => simp [Std.TreeMap.contains_insert, or_comm]

theorem linkParents_links (links : ∀ node ∈ nodes, Linked byId node) (children : ChildIndex) :
    ∃ children', linkParents byId nodes children = .ok children' := by
  induction nodes generalizing children with
  | nil => exact ⟨children, rfl⟩
  | cons node rest ih =>
    rw [List.forall_mem_cons] at links
    obtain ⟨children', later⟩ := ih links.2
      ((parentKey byId node).elim children fun id => children.insert id (children.getD id [] ++ [node.id]))
    exact ⟨children', linkParents_cons.mpr ⟨links.1, later⟩⟩

end Links

section Climbs

variable {byId : WorkIndex}

def parentOf (byId : WorkIndex) (id : WorkId) : Option WorkId := byId[id]?.bind WorkNode.parentId

def Climb.at (climb : Orders.Climb WorkId) : Climb :=
  ⟨climb.path.foldr (fun id seen => seen.insert id) ∅, climb.current⟩

theorem mem_seen {path : List WorkId} {id : WorkId} :
    (path.foldr (fun id seen => seen.insert id) (∅ : Std.TreeSet WorkId)).contains id = true ↔ id ∈ path := by
  rw [← Std.TreeSet.mem_iff_contains]
  induction path with
  | nil => simp
  | cons first rest ih => rw [List.foldr_cons, Lookup.mem_insert, ih, List.mem_cons, eq_comm]

theorem climbStep_eq (climb : Orders.Climb WorkId) :
    climbStep byId (.at climb) = (Orders.climbStep (parentOf byId) [] climb).map Climb.at := by
  obtain ⟨path, current⟩ := climb
  cases current with
  | none => rfl
  | some id =>
    simp only [climbStep, Climb.at, Orders.climbStep, mem_seen, List.not_mem_nil, false_or]
    split_ifs
    · rfl
    · rfl

theorem climb_eq (fuel : ℕ) (id : WorkId) :
    drain (climbStep byId) fuel ⟨∅, some id⟩ = .at (Orders.climb (parentOf byId) [] fuel id) :=
  Orders.drain_climb climbStep_eq fuel ⟨[], some id⟩

theorem parentOf_leads (id : WorkId) (onward : parentOf byId id ≠ none) :
    id ∈ byId.toList.map Prod.fst := by
  cases found : byId[id]? with
  | none =>
    rw [parentOf, found] at onward
    exact absurd rfl onward
  | some node => exact List.mem_map.mpr ⟨(id, node), Lookup.mem_toList_iff.mpr found, rfl⟩

theorem orders_climb_stopped (id : WorkId) : Orders.climbStep (parentOf byId) []
    (Orders.climb (parentOf byId) [] (byId.toList.length + 2) id) = none :=
  Orders.climb_stopped parentOf_leads (by rw [List.length_map]; omega) id

theorem climb_stopped (byId : WorkIndex) (id : WorkId) :
    climbStep byId (drain (climbStep byId) (byId.toList.length + 2) ⟨∅, some id⟩) = none := by
  rw [climb_eq, climbStep_eq, orders_climb_stopped]
  rfl

theorem checkClimb_ok {node : WorkNode} :
    checkClimb byId node = .ok () ↔ Orders.Founded (parentOf byId) node.id := by
  have here (place : Orders.Climb WorkId) : (Climb.at place).current = place.current := rfl
  unfold checkClimb
  rw [climb_eq, here]
  have stopped := @orders_climb_stopped byId node.id
  cases ended : (Orders.climb (parentOf byId) [] (byId.toList.length + 2) node.id).current with
  | none =>
    refine iff_of_true rfl ?_
    have rests := @Orders.climb_rests _ _ (parentOf byId) [] (byId.toList.length + 2) node.id
    refine (rests fun last current => ?_).2
    cases ended.symm.trans current
  | some last =>
    refine iff_of_false nofun fun founded => ?_
    have fresh := @Orders.climb_fresh _ _ _ [] _ founded (byId.toList.length + 2) last ended
    rw [Orders.climbStep, ended] at stopped
    dsimp only at stopped
    rw [if_neg (by simpa using fresh)] at stopped
    cases stopped

theorem checkClimb_error {node : WorkNode} {error : ModelError} (failed : checkClimb byId node = .error error) :
    ∃ last, error = .decompositionCycle last ∧
      TransGen (fun a b => parentOf byId b = some a) last last := by
  rw [checkClimb] at failed
  cases ended : (drain (climbStep byId) (byId.toList.length + 2) ⟨∅, some node.id⟩).current with
  | none =>
    rw [ended] at failed
    cases failed
  | some last =>
    rw [ended] at failed
    cases failed
    have stopped := climb_stopped byId node.id
    rw [climb_eq] at ended stopped
    rw [climbStep, ended] at stopped
    simp only [Climb.at, mem_seen, ite_eq_left_iff, reduceCtorEq, imp_false, not_not] at stopped
    have leads : (Orders.climb (parentOf byId) [] (byId.toList.length + 2) node.id).Leads (parentOf byId) :=
      drain_invariant (fun _ _ => Orders.climbStep_leads) _ (List.forall_mem_nil _)
    exact ⟨last, rfl, leads last stopped last ended⟩

end Climbs

section Exactness

variable {nodes : List WorkNode}

theorem found_iff (distinct : (nodes.map WorkNode.id).Nodup) {id : WorkId} {node : WorkNode} :
    (nodes.foldl (Lookup.indexBy WorkNode.id) ∅ : WorkIndex)[id]? = some node ↔
      node ∈ nodes ∧ node.id = id := by
  rw [Lookup.getElem?_foldl_indexBy distinct (by simp)]
  simp

theorem parentOf_index (distinct : (nodes.map WorkNode.id).Nodup) {parentId childId : WorkId} :
    parentOf (nodes.foldl (Lookup.indexBy WorkNode.id) ∅) childId = some parentId ↔
      IsParent nodes parentId childId := by
  simp only [parentOf, Option.bind_eq_some_iff, IsParent, found_iff distinct, and_assoc]

theorem founded_iff_acyclic (distinct : (nodes.map WorkNode.id).Nodup) :
    (∀ node ∈ nodes, checkClimb (nodes.foldl (Lookup.indexBy WorkNode.id) ∅) node = .ok ()) ↔
      ∀ id, ¬ TransGen (IsParent nodes) id id := by
  have same : (fun a b => parentOf (nodes.foldl (Lookup.indexBy WorkNode.id) ∅) b = some a) =
      IsParent nodes := by
    funext a b
    exact propext (parentOf_index distinct)
  constructor
  · intro climbs id loop
    obtain ⟨_, _, node, member, rfl, _⟩ := TransGen.tail'_iff.mp loop
    have founded := checkClimb_ok.mp (climbs node member)
    rw [Orders.Founded, same] at founded
    exact Orders.acc_not_transGen founded loop
  · intro acyclic node member
    cases climbed : checkClimb (nodes.foldl (Lookup.indexBy WorkNode.id) ∅) node with
    | ok done => rfl
    | error error =>
      obtain ⟨last, -, loop⟩ := checkClimb_error climbed
      rw [same] at loop
      exact absurd loop (acyclic last)

theorem linked_iff (distinct : (nodes.map WorkNode.id).Nodup) :
    (∀ node ∈ nodes, Linked (nodes.foldl (Lookup.indexBy WorkNode.id) ∅) node) ↔
      ∀ node ∈ nodes, ∀ parentId ∈ node.parentId, ∃ parent ∈ nodes, parent.id = parentId ∧
        node.projectId = parent.projectId ∧ MayHold parent node := by
  simp only [Linked, found_iff distinct, and_assoc]

theorem childless_of_links (distinct : (nodes.map WorkNode.id).Nodup)
    (links : ∀ node ∈ nodes, ∀ parentId ∈ node.parentId, ∃ parent ∈ nodes, parent.id = parentId ∧
      node.projectId = parent.projectId ∧ MayHold parent node) :
    ∀ node ∈ nodes, node.executionMode = .direct → ∀ child ∈ nodes, child.parentId ≠ some node.id := by
  intro node member direct child inside named
  obtain ⟨parent, listed, same, -, container, -⟩ := links child inside node.id named
  obtain rfl := List.inj_on_of_nodup_map distinct listed member same
  cases direct.symm.trans container

theorem checkChildless_passes (distinct : (nodes.map WorkNode.id).Nodup) {children : ChildIndex}
    (linked : linkParents (nodes.foldl (Lookup.indexBy WorkNode.id) ∅) nodes ∅ = .ok children) :
    nodes.forM (checkChildless children) = .ok () := by
  obtain ⟨links, named⟩ := linkParents_ok linked
  refine forM_eq_ok.mpr fun node member => ?_
  rw [checkChildless, if_neg]
  rw [Bool.and_eq_true, named, not_and]
  rintro direct (early | ⟨child, inside, key⟩)
  · simp at early
  · obtain ⟨parent, found, same⟩ := Option.map_eq_some_iff.mp key
    obtain ⟨parentId, given, found⟩ := Option.bind_eq_some_iff.mp found
    obtain ⟨listed, -⟩ := (found_iff distinct).mp found
    obtain rfl := List.inj_on_of_nodup_map distinct listed member same
    obtain ⟨parent', found', -, container, -⟩ := links child inside parentId given
    obtain rfl := Option.some.inj (found'.symm.trans found)
    exact absurd (of_decide_eq_true direct) (by rw [container]; decide)

theorem indexWork_ok (distinct : (nodes.map WorkNode.id).Nodup)
    (containers : ∀ node ∈ nodes, node.kind = .milestone → node.executionMode = .container) :
    indexWork nodes ∅ = .ok (nodes.foldl (Lookup.indexBy WorkNode.id) ∅) := by
  refine Lookup.indexAll_ok.mpr ⟨fun node member => ⟨rfl, if_neg ?_⟩, distinct, by simp, rfl⟩
  exact fun bent => bent.2 (containers node member bent.1)

theorem validateDecomposition_passes (distinct : (nodes.map WorkNode.id).Nodup)
    (containers : ∀ node ∈ nodes, node.kind = .milestone → node.executionMode = .container) :
    validateDecomposition nodes = .ok () ↔
      ∃ children, linkParents (nodes.foldl (Lookup.indexBy WorkNode.id) ∅) nodes ∅ = .ok children ∧
        ∀ node ∈ nodes, checkClimb (nodes.foldl (Lookup.indexBy WorkNode.id) ∅) node = .ok () := by
  rw [validateDecomposition, indexWork_ok distinct containers]
  dsimp only
  cases linked : linkParents (nodes.foldl (Lookup.indexBy WorkNode.id) ∅) nodes ∅ with
  | error error => simp
  | ok children =>
    have childless := checkChildless_passes distinct linked
    dsimp only
    rw [childless]
    dsimp only
    rw [forM_eq_ok]
    constructor
    · exact fun climbs => ⟨children, rfl, climbs⟩
    · rintro ⟨_, _, climbs⟩
      exact climbs

/-- Every climb ends, and the check accepts exactly the forests. -/
theorem validateDecomposition_exact :
    (∀ (byId : WorkIndex) (id : WorkId),
      climbStep byId (drain (climbStep byId) (byId.toList.length + 2) ⟨∅, some id⟩) = none) ∧
    ∀ nodes : List WorkNode, validateDecomposition nodes = .ok () ↔ Decomposed nodes := by
  refine ⟨climb_stopped, fun nodes => ?_⟩
  constructor
  · intro valid
    obtain ⟨distinct, containers⟩ := validateDecomposition_indexed valid
    obtain ⟨children, linked, climbs⟩ := (validateDecomposition_passes distinct containers).mp valid
    have links := linked_iff distinct |>.mp (linkParents_ok linked).1
    exact ⟨distinct, containers, links, childless_of_links distinct links,
      (founded_iff_acyclic distinct).mp climbs⟩
  · rintro ⟨distinct, containers, links, childless, acyclic⟩
    obtain ⟨children, linked⟩ := linkParents_links ((linked_iff distinct).mpr links) ∅
    exact (validateDecomposition_passes distinct containers).mpr
      ⟨children, linked, (founded_iff_acyclic distinct).mpr acyclic⟩

end Exactness

end Boreal.WorkModel
