/- Healthy branches of a malformed forest: a refusal of the decomposition check names a listed work
that is unhealthy, and health does not depend on the unhealthy works around it. -/
import BorealWork.DecompositionForest

namespace Boreal.WorkModel
open Relation

section Healthy

variable {nodes : List WorkNode}

inductive Healthy (nodes : List WorkNode) : WorkNode → Prop
  | root {node} (listed : node ∈ nodes)
      (container : node.kind = .milestone → node.executionMode = .container)
      (alone : node.parentId = none) : Healthy nodes node
  | child {node parent} (listed : node ∈ nodes)
      (container : node.kind = .milestone → node.executionMode = .container)
      (named : node.parentId = some parent.id) (scope : node.projectId = parent.projectId)
      (shape : MayHold parent node) (above : Healthy nodes parent) : Healthy nodes node

variable {node : WorkNode}

theorem Healthy.listed (healthy : Healthy nodes node) : node ∈ nodes := by
  cases healthy with
  | root listed => exact listed
  | child listed => exact listed

theorem Healthy.container (healthy : Healthy nodes node) :
    node.kind = .milestone → node.executionMode = .container := by
  cases healthy with
  | root _ container => exact container
  | child _ container => exact container

theorem Healthy.linked (distinct : (nodes.map WorkNode.id).Nodup)
    (healthy : Healthy nodes node) : Linked (nodes.foldl (Lookup.indexBy WorkNode.id) ∅) node := by
  intro parentId given
  cases healthy with
  | root _ _ alone => cases alone.symm.trans given
  | @child _ parent _ _ named scope shape above =>
    obtain rfl := Option.some.inj (named.symm.trans given)
    exact ⟨parent, (found_iff distinct).mpr ⟨above.listed, rfl⟩, scope, shape⟩

theorem Healthy.founded (distinct : (nodes.map WorkNode.id).Nodup) (healthy : Healthy nodes node) :
    Orders.Founded (parentOf (nodes.foldl (Lookup.indexBy WorkNode.id) ∅)) node.id := by
  have parent_of {node : WorkNode} (listed : node ∈ nodes) {parentId : WorkId}
      (onward : parentOf (nodes.foldl (Lookup.indexBy WorkNode.id) ∅) node.id = some parentId) :
      node.parentId = some parentId := by
    obtain ⟨other, inside, same, named⟩ := (parentOf_index distinct).mp onward
    obtain rfl := List.inj_on_of_nodup_map distinct inside listed same
    exact named
  induction healthy with
  | root listed _ alone =>
    refine Orders.founded_of_next fun parentId onward => ?_
    cases alone.symm.trans (parent_of listed onward)
  | child listed _ named _ _ _ ih =>
    refine Orders.founded_of_next fun parentId onward => ?_
    obtain rfl := Option.some.inj (named.symm.trans (parent_of listed onward))
    exact ih

theorem Healthy.keep {kept : List WorkNode} (healthy : Healthy nodes node)
    (stays : ∀ other, Healthy nodes other → other ∈ kept) : Healthy kept node := by
  induction healthy with
  | root listed container alone => exact .root (stays _ (.root listed container alone)) container alone
  | child listed container named scope shape above ih =>
    have whole := Healthy.child listed container named scope shape above
    exact .child (stays _ whole) container named scope shape ih

theorem Healthy.mono {others : List WorkNode} (more : nodes ⊆ others)
    (healthy : Healthy nodes node) : Healthy others node := by
  induction healthy with
  | root listed container alone => exact .root (more listed) container alone
  | child listed container named scope shape _ ih => exact .child (more listed) container named scope shape ih

end Healthy

section Refusals

variable {nodes : List WorkNode} {byId : WorkIndex}

/-- The work that an error of the decomposition check is about. -/
def affected : ModelError → Option String
  | .missingParent id => some id.value
  | .milestoneMustBeContainer id => some id.value
  | .directTaskHasChildren id => some id.value
  | .decompositionCycle id => some id.value
  | .crossProjectReference source _ => some source.value
  | .invalidParentShape _ child => some child.value
  | .duplicateIdentifier id => some id
  | _ => none

theorem linkParents_error {children : ChildIndex} {error : ModelError}
    (failed : linkParents byId nodes children = .error error) :
    ∃ node ∈ nodes, affected error = some node.id.value ∧ ¬ Linked byId node := by
  induction nodes generalizing children with
  | nil => cases failed
  | cons node rest ih =>
    have later (children : ChildIndex) (failed : linkParents byId rest children = .error error) :
        ∃ other ∈ node :: rest, affected error = some other.id.value ∧ ¬ Linked byId other := by
      obtain ⟨other, inside, about⟩ := ih failed
      exact ⟨other, List.mem_cons_of_mem node inside, about⟩
    rw [linkParents] at failed
    cases given : node.parentId with
    | none =>
      rw [given] at failed
      exact later children failed
    | some parentId =>
      simp only [given] at failed
      cases found : byId[parentId]? with
      | none =>
        rw [found] at failed
        cases failed
        refine ⟨node, List.mem_cons_self, rfl, fun linked => ?_⟩
        obtain ⟨parent, there, -⟩ := linked parentId given
        cases found.symm.trans there
      | some parent =>
        simp only [found] at failed
        have only (linked : Linked byId node) : node.projectId = parent.projectId ∧ MayHold parent node := by
          obtain ⟨other, there, scope, shape⟩ := linked parentId given
          obtain rfl := Option.some.inj (found.symm.trans there)
          exact ⟨scope, shape⟩
        split_ifs at failed with scope shape
        · cases failed
          exact ⟨node, List.mem_cons_self, rfl, fun linked => scope (only linked).1⟩
        · cases failed
          refine ⟨node, List.mem_cons_self, rfl, fun linked => ?_⟩
          rw [allowedParent_iff.mpr (only linked).2] at shape
          cases shape
        · exact later _ failed

theorem forM_error {α ε : Type} {check : α → Except ε Unit} {l : List α} {error : ε}
    (failed : l.forM check = .error error) : ∃ a ∈ l, check a = .error error := by
  induction l with
  | nil => cases failed
  | cons a rest ih =>
    change (check a >>= fun _ => rest.forM check) = .error error at failed
    cases checked : check a with
    | error own =>
      rw [checked] at failed
      cases failed
      exact ⟨a, List.mem_cons_self, checked⟩
    | ok done =>
      rw [checked] at failed
      obtain ⟨b, inside, refused⟩ := ih failed
      exact ⟨b, List.mem_cons_of_mem a inside, refused⟩

theorem validateDecomposition_error (distinct : (nodes.map WorkNode.id).Nodup) {error : ModelError}
    (refused : validateDecomposition nodes = .error error) :
    ∃ node ∈ nodes, affected error = some node.id.value ∧ ¬ Healthy nodes node := by
  rw [validateDecomposition] at refused
  cases indexed : indexWork nodes ∅ with
  | error early =>
    rw [indexed] at refused
    cases refused
    obtain ⟨node, member, reason⟩ := Lookup.indexAll_error_distinct distinct (by simp) indexed
    rcases reason with early | late
    · cases early
    · split_ifs at late with bent
      cases late
      exact ⟨node, member, rfl, fun healthy => bent.2 (healthy.container bent.1)⟩
  | ok byId =>
    obtain ⟨-, -, -, rfl⟩ := Lookup.indexAll_ok.mp indexed
    rw [indexed] at refused
    dsimp only at refused
    cases linked : linkParents (nodes.foldl (Lookup.indexBy WorkNode.id) ∅) nodes ∅ with
    | error early =>
      rw [linked] at refused
      cases refused
      obtain ⟨node, member, about, loose⟩ := linkParents_error linked
      exact ⟨node, member, about, fun healthy => loose (healthy.linked distinct)⟩
    | ok children =>
      rw [linked] at refused
      dsimp only at refused
      rw [checkChildless_passes distinct linked] at refused
      obtain ⟨node, member, climbed⟩ := forM_error refused
      obtain ⟨last, rfl, loop⟩ := checkClimb_error climbed
      obtain ⟨_, _, above⟩ := TransGen.tail'_iff.mp loop
      obtain ⟨inner, listed, same, -⟩ := (parentOf_index distinct).mp above
      refine ⟨inner, listed, by rw [affected, same], fun healthy => ?_⟩
      exact Orders.acc_not_transGen (healthy.founded distinct) (same ▸ loop)

theorem validateDecomposition_healthy (valid : validateDecomposition nodes = .ok ()) :
    ∀ node ∈ nodes, Healthy nodes node := by
  obtain ⟨distinct, containers⟩ := validateDecomposition_indexed valid
  obtain ⟨children, linked, climbs⟩ := (validateDecomposition_passes distinct containers).mp valid
  have links := (linkParents_ok linked).1
  have each (id : WorkId) (founded : Orders.Founded (parentOf (nodes.foldl (Lookup.indexBy WorkNode.id) ∅)) id) :
      ∀ node ∈ nodes, node.id = id → Healthy nodes node := by
    -- along the chain of parents: the parent is healthy before the work is
    induction founded with
    | intro id _ ih =>
      rintro node member rfl
      cases given : node.parentId with
      | none => exact .root member (containers node member) given
      | some parentId =>
        obtain ⟨parent, found, scope, shape⟩ := links node member parentId given
        obtain ⟨listed, rfl⟩ := (found_iff distinct).mp found
        have onward := (parentOf_index distinct).mpr ⟨node, member, rfl, given⟩
        exact .child member (containers node member) given scope shape (ih _ onward parent listed rfl)
  intro node member
  exact each node.id (checkClimb_ok.mp (climbs node member)) node member rfl

end Refusals

end Boreal.WorkModel
