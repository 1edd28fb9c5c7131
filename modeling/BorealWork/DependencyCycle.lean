/- The cycle search is total, sound and complete, and validation accepts exactly the admissible
graphs. The invariant of the search is about finished vertices only: they are closed under the
edges and on no cycle. -/
import BorealWork.DependencyGraph

namespace Boreal.Dependencies
open Relation Sorting Walks

abbrev Follows (edges : List DependencyEdge) : WorkId → WorkId → Prop :=
  Step DependencyEdge.predecessor DependencyEdge.successor (· ∈ edges)

theorem mem_foldl_pushEdge (edges : List DependencyEdge) (adjacency : Adjacency) (w : WorkId)
    (e : DependencyEdge) : e ∈ (edges.foldl pushEdge adjacency).getD w [] ↔
      e ∈ adjacency.getD w [] ∨ (e ∈ edges ∧ e.predecessor = w) := by
  induction edges generalizing adjacency with
  | nil => simp
  | cons edge rest ih =>
    rw [List.foldl_cons, ih]
    have entry : e ∈ (pushEdge adjacency edge).getD w [] ↔
        e ∈ adjacency.getD w [] ∨ (e = edge ∧ edge.predecessor = w) := by
      simp only [pushEdge, Std.TreeMap.getD_eq_getD_getElem?, Lookup.getElem?_insert]
      by_cases same : edge.predecessor = w
      · simp [same]
      · simp [same]
    rw [entry, List.mem_cons]
    constructor
    · rintro ((old | ⟨rfl, source⟩) | ⟨member, source⟩)
      · exact .inl old
      · exact .inr ⟨.inl rfl, source⟩
      · exact .inr ⟨.inr member, source⟩
    · rintro (old | ⟨rfl | member, source⟩)
      · exact .inl (.inl old)
      · exact .inl (.inr ⟨rfl, source⟩)
      · exact .inr ⟨member, source⟩

theorem mem_adjacencyOf {edges : List DependencyEdge} {w : WorkId} {e : DependencyEdge} :
    e ∈ (adjacencyOf edges).getD w [] ↔ e ∈ edges ∧ e.predecessor = w := by
  have plain := mem_foldl_pushEdge edges ∅ w e
  simp only [Std.TreeMap.getD_eq_getD_getElem?, Std.TreeMap.getElem?_emptyc, Option.getD_none,
    List.not_mem_nil, false_or] at plain
  rw [adjacencyOf, Std.TreeMap.getD_eq_getD_getElem?, Std.TreeMap.getElem?_map]
  cases found : (edges.foldl pushEdge ∅)[w]? with
  | none => simpa [found] using plain
  | some outgoing => simpa [found] using plain

/-- Nodes on the live path are exactly the ones being visited; finished nodes are settled. -/
structure SearchInvariant (edges : List DependencyEdge) (states : VisitStates)
    (path : List WorkId) : Prop where
  visiting : ∀ w, states[w]? = some .visiting ↔ w ∈ path
  closed : ∀ w, states[w]? = some .done → ∀ b, Follows edges w b → states[b]? = some .done
  offCycle : ∀ w, states[w]? = some .done → ¬ TransGen (Follows edges) w w

def Extends (states states' : VisitStates) : Prop :=
  ∀ (w : WorkId) (v : VisitState), states[w]? = some v → states'[w]? = some v

theorem Extends.refl (states : VisitStates) : Extends states states := fun _ _ h => h

theorem Extends.trans {s₁ s₂ s₃ : VisitStates} (h : Extends s₁ s₂) (k : Extends s₂ s₃) :
    Extends s₁ s₃ := fun w v hw => k w v (h w v hw)

theorem Extends.insert {states : VisitStates} {w : WorkId} (h : states[w]? = none)
    (v : VisitState) : Extends states (states.insert w v) := by
  intro a u ha
  rw [Lookup.getElem?_insert_ne]
  · exact ha
  · rintro rfl
    rw [h] at ha
    cases ha

def unvisited (scope : Finset WorkId) (states : VisitStates) : ℕ :=
  (scope.filter fun w => states[w]? = none).card

theorem Extends.unvisited_le {states states' : VisitStates} (h : Extends states states')
    (scope : Finset WorkId) : unvisited scope states' ≤ unvisited scope states := by
  apply Finset.card_le_card
  intro w hw
  simp only [Finset.mem_filter] at hw ⊢
  refine ⟨hw.1, ?_⟩
  cases same : states[w]? with
  | none => rfl
  | some v =>
    rw [h w v same] at hw
    cases hw.2

theorem unvisited_insert_lt {scope : Finset WorkId} {states : VisitStates} {w : WorkId}
    (member : w ∈ scope) (fresh : states[w]? = none) (v : VisitState) :
    unvisited scope (states.insert w v) < unvisited scope states := by
  apply Finset.card_lt_card
  refine Finset.ssubset_iff_subset_ne.mpr ⟨?_, ?_⟩
  · intro a ha
    simp only [Finset.mem_filter, Lookup.getElem?_insert] at ha ⊢
    refine ⟨ha.1, ?_⟩
    by_cases same : w = a
    · simp [same] at ha
    · simpa [same] using ha.2
  · intro same
    have kept : w ∈ scope.filter fun a => states[a]? = none :=
      Finset.mem_filter.mpr ⟨member, fresh⟩
    rw [← same, Finset.mem_filter, Lookup.getElem?_insert_self] at kept
    cases kept.2

/-- A visit reports a genuine cycle or finishes as `post` says; it is never stuck. -/
def Visit.Good (edges : List DependencyEdge) (post : VisitStates → Prop) : Visit → Prop
  | .cycle workIds edgeIds => ClosedWalk edges workIds edgeIds
  | .finished states => post states
  | .stuck => False

theorem Visit.Good.mono {edges : List DependencyEdge} {post post' : VisitStates → Prop}
    (h : ∀ states, post states → post' states) {v : Visit} (good : v.Good edges post) :
    v.Good edges post' := by
  cases v with
  | cycle workIds edgeIds => exact good
  | finished states => exact h states good
  | stuck => exact good

theorem SearchInvariant.enter {edges : List DependencyEdge} {states : VisitStates}
    {path : List WorkId} (inv : SearchInvariant edges states path) {current : WorkId}
    (fresh : states[current]? = none) :
    SearchInvariant edges (states.insert current .visiting) (path ++ [current]) := by
  have keeps {w : WorkId} (h : states[w]? = some .done) :
      (states.insert current .visiting)[w]? = some .done := Extends.insert fresh _ w _ h
  have settled {w : WorkId} (h : (states.insert current .visiting)[w]? = some .done) :
      states[w]? = some .done := by
    rw [Lookup.getElem?_insert] at h
    by_cases same : current = w
    · simp [same] at h
    · simpa [same] using h
  refine ⟨?_, fun w hw b hb => keeps (inv.closed w (settled hw) b hb),
    fun w hw => inv.offCycle w (settled hw)⟩
  intro w
  rw [Lookup.getElem?_insert, List.mem_append, List.mem_singleton, ← inv.visiting w]
  by_cases same : current = w
  · simp [same]
  · simp [same, Ne.symm same]

theorem SearchInvariant.leave {edges : List DependencyEdge} {states : VisitStates}
    {path : List WorkId} {current : WorkId} (inv : SearchInvariant edges states (path ++ [current]))
    (offPath : current ∉ path) (successors : ∀ b, Follows edges current b → states[b]? = some .done) :
    SearchInvariant edges (states.insert current .done) path := by
  have visited : states[current]? = some .visiting := (inv.visiting current).mpr (by simp)
  have other {w : WorkId} (h : states[w]? = some .done) : current ≠ w := by
    rintro rfl
    rw [visited] at h
    cases h
  have keeps {w : WorkId} (h : states[w]? = some .done) :
      (states.insert current .done)[w]? = some .done := by
    rw [Lookup.getElem?_insert_ne _ _ (other h)]
    exact h
  refine ⟨?_, ?_, ?_⟩
  · intro w
    rw [Lookup.getElem?_insert]
    by_cases same : current = w
    · subst same
      simp [offPath]
    · rw [if_neg same, inv.visiting w]
      simp [Ne.symm same]
  · intro w hw b hb
    rw [Lookup.getElem?_insert] at hw
    by_cases same : current = w
    · exact keeps (successors b (same ▸ hb))
    · rw [if_neg same] at hw
      exact keeps (inv.closed w hw b hb)
  · intro w hw
    rw [Lookup.getElem?_insert] at hw
    by_cases same : current = w
    · subst same
      apply not_on_cycle (S := {a | states[a]? = some .done})
      · exact fun a ha b hb => inv.closed a ha b hb
      · exact fun h => other h rfl
      · exact successors
    · rw [if_neg same] at hw
      exact inv.offCycle w hw

theorem closedWalk_of_back_edge {edges : List DependencyEdge} {path : List WorkId}
    {pathEdges : List DependencyId} {edge : DependencyEdge} {start : ℕ}
    (trail : Trail DependencyEdge.predecessor DependencyEdge.successor (· ∈ edges)
      DependencyEdge.id path pathEdges)
    (member : edge ∈ edges) (last : path.getLast? = some edge.predecessor)
    (position : path.idxOf? edge.successor = some start) :
    ClosedWalk edges (path.drop start ++ [edge.successor])
      (pathEdges.drop start ++ [edge.id]) := by
  obtain ⟨inside, atStart, _⟩ := List.idxOf?_eq_some_iff.mp position
  have sizes := trail.length
  refine ⟨?_, by simp, ?_⟩
  · have pushed := (trail.push member last).drop (k := start) (by simp; omega)
    rwa [List.drop_append_of_le_length (by omega), List.drop_append_of_le_length (by omega)]
      at pushed
  · rw [List.getLast?_append_of_ne_nil _ (by simp), List.head?_append, List.head?_drop,
      List.getElem?_eq_getElem inside]
    simpa using atStart

theorem visitOutgoing_good {edges : List DependencyEdge} {scope : Finset WorkId} {bound : ℕ}
    {visit : WorkId → VisitStates → List DependencyId → Visit} {path : List WorkId}
    {pathEdges : List DependencyId} {current : WorkId}
    (visits : ∀ next states found, states[next]? = none → next ∈ scope →
      SearchInvariant edges states path →
      Trail DependencyEdge.predecessor DependencyEdge.successor (· ∈ edges) DependencyEdge.id
        (path ++ [next]) found →
      unvisited scope states ≤ bound →
      (visit next states found).Good edges fun states' => SearchInvariant edges states' path ∧
        Extends states states' ∧ states'[next]? = some .done)
    (trail : Trail DependencyEdge.predecessor DependencyEdge.successor (· ∈ edges)
      DependencyEdge.id path pathEdges)
    (last : path.getLast? = some current) (outgoing : List DependencyEdge) (states : VisitStates)
    (leaves : ∀ e ∈ outgoing, e ∈ edges ∧ e.predecessor = current ∧ e.successor ∈ scope)
    (inv : SearchInvariant edges states path) (fuel : unvisited scope states ≤ bound) :
    (visitOutgoing visit path pathEdges outgoing states).Good edges fun states' =>
      SearchInvariant edges states' path ∧ Extends states states' ∧
        ∀ e ∈ outgoing, states'[e.successor]? = some .done := by
  induction outgoing generalizing states with
  | nil => exact ⟨inv, Extends.refl states, by simp⟩
  | cons edge rest ih =>
    obtain ⟨member, source, target⟩ := leaves edge List.mem_cons_self
    have later := fun e he => leaves e (List.mem_cons_of_mem edge he)
    have arrived : path.getLast? = some edge.predecessor := by rw [source]; exact last
    rw [visitOutgoing]
    cases seen : states[edge.successor]? with
    | none =>
      have pushed := trail.push member arrived
      have visited := visits edge.successor states _ seen target inv pushed fuel
      cases result : visit edge.successor states (pathEdges ++ [edge.id]) with
      | cycle workIds edgeIds =>
        rw [result] at visited
        exact visited
      | stuck => simp only [result, Visit.Good] at visited
      | finished states₁ =>
        rw [result] at visited
        obtain ⟨inv₁, grown, finished⟩ := visited
        refine (ih states₁ later inv₁ ((grown.unvisited_le scope).trans fuel)).mono ?_
        rintro states₂ ⟨inv₂, grown₂, settled⟩
        refine ⟨inv₂, grown.trans grown₂, ?_⟩
        intro e he
        rcases List.mem_cons.mp he with rfl | he
        · exact grown₂ _ _ finished
        · exact settled e he
    | some state =>
      cases state with
      | visiting =>
        have onPath := (inv.visiting edge.successor).mp seen
        cases position : path.idxOf? edge.successor with
        | none => exact absurd onPath (List.idxOf?_eq_none_iff.mp position)
        | some start => exact closedWalk_of_back_edge trail member arrived position
      | done =>
        refine (ih states later inv fuel).mono ?_
        rintro states₁ ⟨inv₁, grown, settled⟩
        refine ⟨inv₁, grown, ?_⟩
        intro e he
        rcases List.mem_cons.mp he with rfl | he
        · exact grown _ _ seen
        · exact settled e he

theorem visitCycle_good {edges : List DependencyEdge} {adjacency : Adjacency}
    {scope : Finset WorkId}
    (lists : ∀ w e, e ∈ adjacency.getD w [] ↔ e ∈ edges ∧ e.predecessor = w)
    (targets : ∀ e ∈ edges, e.successor ∈ scope) (fuel : ℕ) (current : WorkId)
    (states : VisitStates) (pathNodes : List WorkId) (pathEdges : List DependencyId)
    (fresh : states[current]? = none) (member : current ∈ scope)
    (inv : SearchInvariant edges states pathNodes)
    (trail : Trail DependencyEdge.predecessor DependencyEdge.successor (· ∈ edges)
      DependencyEdge.id (pathNodes ++ [current]) pathEdges)
    (enough : unvisited scope states ≤ fuel) :
    (visitCycle adjacency fuel current states pathNodes pathEdges).Good edges fun states' =>
      SearchInvariant edges states' pathNodes ∧ Extends states states' ∧
        states'[current]? = some .done := by
  induction fuel generalizing current states pathNodes pathEdges with
  | zero =>
    have strict := unvisited_insert_lt member fresh .visiting
    omega
  | succ fuel ih =>
    have offPath : current ∉ pathNodes := by
      intro onPath
      rw [(inv.visiting current).mpr onPath] at fresh
      cases fresh
    have strict := unvisited_insert_lt member fresh .visiting
    have leaves : ∀ e ∈ adjacency.getD current [],
        e ∈ edges ∧ e.predecessor = current ∧ e.successor ∈ scope := by
      intro e he
      obtain ⟨known, source⟩ := (lists current e).mp he
      exact ⟨known, source, targets e known⟩
    have loop := @visitOutgoing_good edges scope fuel
      (fun next seen found => visitCycle adjacency fuel next seen (pathNodes ++ [current]) found)
      (pathNodes ++ [current]) pathEdges current
      (fun next seen found unseen inScope inv' trail' low =>
        ih next seen (pathNodes ++ [current]) found unseen inScope inv' trail' low)
      trail (by simp) (adjacency.getD current []) (states.insert current .visiting) leaves
      (inv.enter fresh) (by omega)
    rw [visitCycle]
    cases result : visitOutgoing
        (fun next seen found =>
          visitCycle adjacency fuel next seen (pathNodes ++ [current]) found)
        (pathNodes ++ [current]) pathEdges (adjacency.getD current [])
        (states.insert current .visiting) with
    | cycle workIds edgeIds =>
      rw [result] at loop
      exact loop
    | stuck =>
      rw [result] at loop
      exact loop.elim
    | finished states₁ =>
      rw [result] at loop
      obtain ⟨inv₁, grown, settled⟩ := loop
      have successors : ∀ b, Follows edges current b → states₁[b]? = some .done := by
        rintro b ⟨e, known, source, rfl⟩
        exact settled e ((lists current e).mpr ⟨known, source⟩)
      refine ⟨inv₁.leave offPath successors, ?_, Lookup.getElem?_insert_self _ _ _⟩
      intro w v hw
      rw [Lookup.getElem?_insert_ne]
      · exact grown w v (Extends.insert fresh _ w v hw)
      · rintro rfl
        rw [fresh] at hw
        cases hw

theorem searchRoots_good {edges : List DependencyEdge} {adjacency : Adjacency}
    {scope : Finset WorkId} {fuel : ℕ}
    (lists : ∀ w e, e ∈ adjacency.getD w [] ↔ e ∈ edges ∧ e.predecessor = w)
    (targets : ∀ e ∈ edges, e.successor ∈ scope) (roots : List WorkId) (states : VisitStates)
    (known : ∀ w ∈ roots, w ∈ scope) (inv : SearchInvariant edges states [])
    (enough : unvisited scope states ≤ fuel) :
    (searchRoots adjacency fuel roots states).Good edges fun states' =>
      SearchInvariant edges states' [] ∧ Extends states states' ∧
        ∀ w ∈ roots, states'[w]? = some .done := by
  induction roots generalizing states with
  | nil => exact ⟨inv, Extends.refl states, by simp⟩
  | cons root rest ih =>
    have later := fun w hw => known w (List.mem_cons_of_mem root hw)
    -- a root already in the map was finished by an earlier root: the live path is empty here
    have continued (states₁ : VisitStates) (inv₁ : SearchInvariant edges states₁ [])
        (grown : Extends states states₁) (finished : states₁[root]? = some .done) :
        (searchRoots adjacency fuel rest states₁).Good edges fun states' =>
          SearchInvariant edges states' [] ∧ Extends states states' ∧
            ∀ w ∈ root :: rest, states'[w]? = some .done := by
      refine (ih states₁ later inv₁ ((grown.unvisited_le scope).trans enough)).mono ?_
      rintro states₂ ⟨inv₂, grown₂, settled⟩
      refine ⟨inv₂, grown.trans grown₂, ?_⟩
      intro w hw
      rcases List.mem_cons.mp hw with rfl | hw
      · exact grown₂ _ _ finished
      · exact settled w hw
    rw [searchRoots]
    cases seen : states.contains root with
    | true =>
      obtain ⟨state, found⟩ := Lookup.contains_iff.mp seen
      have finished : states[root]? = some .done := by
        cases state with
        | done => exact found
        | visiting => exact absurd ((inv.visiting root).mp found) List.not_mem_nil
      exact continued states inv (Extends.refl states) finished
    | false =>
      have fresh := Lookup.contains_eq_false.mp seen
      have visited := visitCycle_good lists targets fuel root states [] [] fresh
        (known root List.mem_cons_self) inv (Trail.single _ _ _) enough
      simp only [Bool.false_eq_true, if_false]
      cases result : visitCycle adjacency fuel root states [] [] with
      | cycle workIds edgeIds =>
        rw [result] at visited
        exact visited
      | stuck =>
        rw [result] at visited
        exact visited.elim
      | finished states₁ =>
        rw [result] at visited
        exact continued states₁ visited.1 visited.2.1 visited.2.2

theorem searchCycle_good (nodes : NodeIndex) (edges : List DependencyEdge) :
    (searchCycle nodes edges).Good edges fun states =>
      SearchInvariant edges states [] ∧ ∀ w ∈ nodes.keys, states[w]? = some .done := by
  let scope := nodes.keys.toFinset ∪ (edges.map DependencyEdge.successor).toFinset
  have targets : ∀ e ∈ edges, e.successor ∈ scope := by
    intro e he
    apply Finset.mem_union_right
    exact List.mem_toFinset.mpr (List.mem_map_of_mem he)
  have roots : ∀ w ∈ nodes.keys, w ∈ scope := fun w hw =>
    Finset.mem_union_left _ (List.mem_toFinset.mpr hw)
  have enough : unvisited scope ∅ ≤ nodes.keys.length + edges.length := by
    calc unvisited scope ∅ ≤ scope.card := Finset.card_filter_le _ _
      _ ≤ _ := Finset.card_union_le _ _
      _ ≤ _ := by
        apply Nat.add_le_add (List.toFinset_card_le _)
        simpa using List.toFinset_card_le (edges.map DependencyEdge.successor)
  have start : SearchInvariant edges ∅ [] :=
    ⟨by simp, fun w hw => by simp at hw, fun w hw => by simp at hw⟩
  refine (searchRoots_good (fun w e => mem_adjacencyOf) targets nodes.keys ∅ roots start
    enough).mono ?_
  rintro states ⟨inv, _, settled⟩
  exact ⟨inv, settled⟩

theorem searchCycle_ne_stuck (nodes : NodeIndex) (edges : List DependencyEdge) :
    searchCycle nodes edges ≠ .stuck := by
  intro h
  have good := searchCycle_good nodes edges
  rw [h] at good
  exact good

theorem findCycle_sound {nodes : NodeIndex} {edges : List DependencyEdge} {workIds : List WorkId}
    {edgeIds : List DependencyId} (h : findCycle nodes edges = some (workIds, edgeIds)) :
    ClosedWalk edges workIds edgeIds := by
  have good := searchCycle_good nodes edges
  unfold findCycle at h
  cases result : searchCycle nodes edges with
  | cycle ws es =>
    rw [result] at h good
    cases h
    exact good
  | finished states =>
    rw [result] at h
    cases h
  | stuck =>
    rw [result] at h
    cases h

theorem findCycle_complete {nodes : NodeIndex} {edges : List DependencyEdge}
    (sources : ∀ e ∈ edges, e.predecessor ∈ nodes.keys) (h : findCycle nodes edges = none) :
    Acyclic DependencyEdge.predecessor DependencyEdge.successor (· ∈ edges) := by
  have good := searchCycle_good nodes edges
  unfold findCycle at h
  cases result : searchCycle nodes edges with
  | cycle ws es =>
    rw [result] at h
    cases h
  | stuck => exact absurd result (searchCycle_ne_stuck nodes edges)
  | finished states =>
    rw [result] at good
    intro w cycle
    obtain ⟨_, ⟨e, known, source, _⟩, _⟩ := TransGen.head'_iff.mp cycle
    exact good.1.offCycle w (good.2 w (source ▸ sources e known)) cycle

theorem ClosedWalk.not_acyclic {edges : List DependencyEdge} {workIds : List WorkId}
    {edgeIds : List DependencyId} (walk : ClosedWalk edges workIds edgeIds) :
    ¬ Acyclic DependencyEdge.predecessor DependencyEdge.successor (· ∈ edges) := by
  intro acyclic
  have sizes := walk.trail.length
  have positive := List.length_pos_iff.mpr walk.nonempty
  have first : workIds[0]? = some workIds[0] := List.getElem?_eq_getElem (by omega)
  have last : workIds[edgeIds.length - 1 + 1]? = some workIds[0] := by
    have closed := walk.closed
    rw [List.head?_eq_getElem?, List.getLast?_eq_getElem?] at closed
    have index : edgeIds.length - 1 + 1 = workIds.length - 1 := by omega
    rw [index, ← closed, first]
  exact acyclic _ (walk.trail.transGen first last)

end Boreal.Dependencies
