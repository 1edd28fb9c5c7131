/- The relationships between the items of the global manager: over any run of additions and removals the
dependencies among them stay free of cycles. -/
import BorealWork.GlobalDependencies
import BorealWork.Library.Machines
import BorealWork.StoreJournal

namespace Boreal.GlobalManager
open Arcs Drain Machines
open Store (StoreError)

structure Relationship where
  projectId : Option String
  sourceId : String
  targetId : String
  kind : String
  deriving DecidableEq

structure ManagementItem where
  id : String
  projectId : Option String
  deriving DecidableEq

def dependencyEdge (source target : String) : String → Option (String × String)
  | "blocks" => some (source, target)
  | "depends_on" => some (target, source)
  | _ => none

def dependencyEdges (rows : List Relationship) : List (String × String) :=
  rows.filterMap fun row => dependencyEdge row.sourceId row.targetId row.kind

theorem dependencyEdges_concat (rows : List Relationship) (row : Relationship) :
    dependencyEdges (rows ++ [row]) =
      dependencyEdges rows ++ (dependencyEdge row.sourceId row.targetId row.kind).toList := by
  rw [dependencyEdges, dependencyEdges, List.filterMap_append, List.filterMap_cons, List.filterMap_nil]
  cases dependencyEdge row.sourceId row.targetId row.kind <;> rfl

def relationshipKinds : List String := ["depends_on", "blocks", "related"]

def requireItem (items : List ManagementItem) (id : String) : Except StoreError ManagementItem :=
  (items.find? (·.id = id)).elim (.error (.invalid "relationship item not found")) .ok

variable (display : GlobalManagerDomainError → String)

def checkDependency (rows : List Relationship) (source target kind : String) : Except StoreError Unit :=
  match dependencyEdge source target kind with
  | none => .ok ()
  | some edge => (validateDependency edge.1 edge.2 (dependencyEdges rows)).mapError fun error =>
      .invalid (display error)

def addRelationship (items : List ManagementItem) (source target kind : String) (rows : List Relationship) :
    Except StoreError (List Relationship) := do
  refuse (kind ∉ relationshipKinds) (.invalid "relationship kind must be depends_on, blocks, or related")
  refuse (source = target) (.invalid "relationship cannot target itself")
  let left ← requireItem items source
  let right ← requireItem items target
  refuse (left.projectId ≠ right.projectId) (.invalid "relationships cannot cross management projects")
  checkDependency display rows source target kind
  let value : Relationship := ⟨left.projectId, source, target, kind⟩
  return if value ∈ rows then rows else rows ++ [value]

def removeRelationship (source target kind : String) (rows : List Relationship) :
    Except StoreError (List Relationship) := do
  let kept := rows.filter fun row => ¬ (row.sourceId = source ∧ row.targetId = target ∧ row.kind = kind)
  refuse (kept.length = rows.length) (.invalid "relationship not found")
  return kept

inductive RelationshipCommand
  | add (items : List ManagementItem) (source target kind : String)
  | remove (source target kind : String)

def changeRelationships (rows : List Relationship) : RelationshipCommand → Except StoreError (List Relationship)
  | .add items source target kind => addRelationship display items source target kind rows
  | .remove source target kind => removeRelationship source target kind rows

def applyRelationship (rows : List Relationship) (command : RelationshipCommand) :
    Except StoreError Unit × List Relationship :=
  match changeRelationships display rows command with
  | .ok rows => (.ok (), rows)
  | .error error => (.error error, rows)

structure Coherent (rows : List Relationship) : Prop where
  distinct : rows.Nodup
  proper : ∀ row ∈ rows, row.kind ∈ relationshipKinds ∧ row.sourceId ≠ row.targetId
  acyclic : validateDependencyGraph (dependencyEdges rows) = .ok ()

variable {display : GlobalManagerDomainError → String}

theorem addRelationship_coherent {items : List ManagementItem} {source target kind : String}
    {rows rows' : List Relationship} (coherent : Coherent rows)
    (added : addRelationship display items source target kind rows = .ok rows') : Coherent rows' := by
  simp only [addRelationship, bind_eq_ok, refuse_eq_ok, not_not] at added
  obtain ⟨_, known, _, different, left, _, right, _, _, _, _, checked, done⟩ := added
  cases Except.ok.inj done
  split_ifs with stored
  · exact coherent
  · refine ⟨?_, ?_, ?_⟩
    · exact List.nodup_append.mpr ⟨coherent.distinct, List.nodup_singleton _,
        fun row member _ new same => stored (List.mem_singleton.mp new ▸ same ▸ member)⟩
    · intro row member
      rcases List.mem_append.mp member with old | new
      · exact coherent.proper row old
      · rw [List.mem_singleton.mp new]
        exact ⟨known, different⟩
    · rw [dependencyEdges_concat]
      unfold checkDependency at checked
      cases edge : dependencyEdge source target kind with
      | none =>
        rw [Option.toList_none, List.append_nil]
        exact coherent.acyclic
      | some edge' =>
        rw [edge] at checked
        obtain ⟨identified, apart⟩ := validateDependency_eq_ok.mp (mapError_eq_ok.mp checked)
        obtain ⟨all, acyclic⟩ := validateDependencyGraph_eq_ok.mp coherent.acyclic
        rw [Option.toList_some]
        refine validateDependencyGraph_eq_ok.mpr ⟨?_, ?_⟩
        · intro arc member
          rcases List.mem_append.mp member with old | new
          · exact all arc old
          · rw [List.mem_singleton.mp new]
            exact identified
        · exact (acyclic_perm List.perm_append_comm).mpr (acyclic_cons.mpr ⟨acyclic, apart⟩)

theorem removeRelationship_coherent {source target kind : String} {rows rows' : List Relationship}
    (coherent : Coherent rows) (removed : removeRelationship source target kind rows = .ok rows') :
    Coherent rows' := by
  simp only [removeRelationship, check_eq_ok] at removed
  cases Except.ok.inj removed.2
  obtain ⟨all, acyclic⟩ := validateDependencyGraph_eq_ok.mp coherent.acyclic
  refine ⟨coherent.distinct.filter _, ?_, validateDependencyGraph_eq_ok.mpr ⟨?_, ?_⟩⟩
  · exact fun row member => coherent.proper row (List.mem_filter.mp member).1
  · exact fun arc member => all arc ((List.filter_sublist.filterMap _).subset member)
  · refine fun a cycle => acyclic a (Relation.TransGen.mono (fun _ _ listed => ?_) _ _ cycle)
    exact (List.filter_sublist.filterMap _).subset listed

/-- Whatever is added and removed, the stored relationships are distinct, of a known kind and between two
items each, and an export of them is not refused for a cycle. -/
theorem relationships_coherent (display : GlobalManagerDomainError → String)
    (commands : List RelationshipCommand) : Coherent (final (applyRelationship display) [] commands) := by
  refine final_invariant (fun rows command coherent => ?_) ?_ commands
  · unfold applyRelationship
    cases changed : changeRelationships display rows command with
    | error error => exact coherent
    | ok rows' =>
      cases command with
      | add items source target kind => exact addRelationship_coherent coherent changed
      | remove source target kind => exact removeRelationship_coherent coherent changed
  · refine ⟨List.nodup_nil, List.forall_mem_nil _, validateDependencyGraph_eq_ok.mpr ⟨List.forall_mem_nil _, ?_⟩⟩
    intro a cycle
    obtain ⟨b, first, -⟩ := Relation.TransGen.head'_iff.mp cycle
    cases first

end Boreal.GlobalManager
