/- What the changes of an assignment list do to its lineage: assignments that keep their links, one more
assignment without links, and one that is carried over to a new one. -/
import BorealWork.CycleLineage

namespace Boreal.Planning
open WorkModel Orders

/-- What no change of an assignment touches. -/
structure SameSubject (before after : CycleAssignment) : Prop where
  id : after.id = before.id
  workId : after.workId = before.workId
  projectId : after.projectId = before.projectId
  cycleId : after.cycleId = before.cycleId

/-- A change that keeps the links, carries nothing over and brings nothing back to life. -/
structure Moved (before after : CycleAssignment) : Prop extends SameSubject before after where
  predecessorId : after.predecessorId = before.predecessorId
  successorId : after.successorId = before.successorId
  carried : after.state = .carriedOver ↔ before.state = .carriedOver
  live : after.state.isLive = true → before.state.isLive = true

structure Carried (before after later : CycleAssignment) : Prop extends SameSubject before after where
  predecessorId : after.predecessorId = before.predecessorId
  successorId : after.successorId = some later.id
  carried : after.state = .carriedOver

theorem Moved.refl (a : CycleAssignment) : Moved a a where
  id := rfl
  workId := rfl
  projectId := rfl
  cycleId := rfl
  predecessorId := rfl
  successorId := rfl
  carried := Iff.rfl
  live := id

theorem CarriesOn.moved {former former' later later' : CycleAssignment} (onward : CarriesOn former later)
    (first : Moved former former') (second : SameSubject later later')
    (linked : later'.predecessorId = later.predecessorId) : CarriesOn former' later' where
  successor := by rw [first.successorId, onward.successor, second.id]
  predecessor := by rw [linked, onward.predecessor, first.id]
  carried := first.carried.mpr onward.carried
  sameWork := by rw [second.workId, first.workId, onward.sameWork]
  sameProject := by rw [second.projectId, first.projectId, onward.sameProject]
  otherCycle := by
    rw [second.cycleId, first.cycleId]
    exact onward.otherCycle

theorem not_carried_of_live {state : CycleAssignmentState} (live : state.isLive = true) :
    state ≠ .carriedOver := by
  rintro rfl
  cases live

section Next

variable {assignments : List CycleAssignment}

theorem nextOf_eq_some (distinct : (assignments.map (·.id)).Nodup) {id successor : String} :
    nextOf (assignments.foldl (Lookup.indexBy (·.id)) ∅) id = some successor ↔
      ∃ a ∈ assignments, a.id = id ∧ a.successorId = some successor := by
  rw [nextOf, Option.bind_eq_some_iff]
  constructor
  · rintro ⟨a, found, named⟩
    obtain ⟨member, own⟩ := (indexed_iff distinct).mp found
    exact ⟨a, member, own, named⟩
  · rintro ⟨a, member, own, named⟩
    exact ⟨a, (indexed_iff distinct).mpr ⟨member, own⟩, named⟩

theorem Lineage.unfollowed (lineage : Lineage assignments) {a : CycleAssignment} (member : a ∈ assignments)
    (live : a.state.isLive = true) : a.successorId = none := by
  by_contra named
  exact not_carried_of_live live ((lineage.linked a member).carried.mpr named)

theorem Lineage.founded (lineage : Lineage assignments) (id : String) :
    Founded (nextOf (assignments.foldl (Lookup.indexBy (·.id)) ∅)) id := by
  apply founded_of_next
  intro successor onward
  obtain ⟨a, member, -, named⟩ := (nextOf_eq_some lineage.distinct).mp onward
  obtain ⟨later, listed, rfl, -⟩ := (lineage.linked a member).successor _ named
  exact (ends_iff_founded lineage.distinct lineage.linked listed).mp (lineage.ends later listed)

theorem lineage_of_founded (distinct : (assignments.map (·.id)).Nodup)
    (single : ((assignments.filter (·.state.isLive)).map (·.workId)).Nodup)
    (linked : ∀ a ∈ assignments, Reciprocal assignments a)
    (founded : ∀ id, Founded (nextOf (assignments.foldl (Lookup.indexBy (·.id)) ∅)) id) :
    Lineage assignments where
  distinct := distinct
  single := single
  linked := linked
  ends := fun a member => (ends_iff_founded distinct linked member).mpr (founded a.id)

end Next

section Edits

variable {ι : Type} {l : List ι} {before after : ι → CycleAssignment}

theorem map_ids (each : ∀ i ∈ l, SameSubject (before i) (after i)) :
    (l.map after).map (·.id) = (l.map before).map (·.id) := by
  rw [List.map_map, List.map_map]
  exact List.map_congr_left fun i member => (each i member).id

theorem single_of_sameSubject (each : ∀ i ∈ l, SameSubject (before i) (after i))
    (live : ∀ i ∈ l, (after i).state.isLive = true → (before i).state.isLive = true)
    (single : (((l.map before).filter (·.state.isLive)).map (·.workId)).Nodup) :
    (((l.map after).filter (·.state.isLive)).map (·.workId)).Nodup := by
  rw [List.filter_map, List.map_map] at single ⊢
  have works : (l.filter fun i => (after i).state.isLive).map ((·.workId) ∘ after) =
      (l.filter fun i => (after i).state.isLive).map ((·.workId) ∘ before) :=
    List.map_congr_left fun i member => (each i (List.mem_of_mem_filter member)).workId
  have fewer : (l.filter fun i => (after i).state.isLive).Sublist
      (l.filter fun i => (before i).state.isLive) := by
    have both : l.filter (fun i => (after i).state.isLive) =
        (l.filter fun i => (before i).state.isLive).filter fun i => (after i).state.isLive := by
      rw [List.filter_filter]
      refine List.filter_congr fun i member => ?_
      cases alive : (after i).state.isLive with
      | false => rfl
      | true => rw [live i member alive, Bool.and_self]
    rw [both]
    exact List.filter_sublist
  refine List.Nodup.sublist ?_ single
  change ((l.filter fun i => (after i).state.isLive).map ((·.workId) ∘ after)).Sublist _
  rw [works]
  exact fewer.map _

theorem Lineage.moved (each : ∀ i ∈ l, Moved (before i) (after i)) (lineage : Lineage (l.map before)) :
    Lineage (l.map after) := by
  have ids := map_ids fun i member => (each i member).toSameSubject
  have distinct : ((l.map after).map (·.id)).Nodup := ids ▸ lineage.distinct
  apply lineage_of_founded distinct
  · exact single_of_sameSubject (fun i member => (each i member).toSameSubject)
      (fun i member => (each i member).live) lineage.single
  · intro b listed
    obtain ⟨i, member, rfl⟩ := List.mem_map.mp listed
    have moves := each i member
    obtain ⟨carried, former, later⟩ := lineage.linked _ (List.mem_map_of_mem member)
    refine ⟨?_, ?_, ?_⟩
    · rw [moves.carried, moves.successorId]
      exact carried
    · intro id named
      rw [moves.predecessorId] at named
      obtain ⟨m, inside, rfl, onward⟩ := former id named
      obtain ⟨j, member', rfl⟩ := List.mem_map.mp inside
      exact ⟨after j, List.mem_map_of_mem member', (each j member').id,
        onward.moved (each j member') moves.toSameSubject moves.predecessorId⟩
    · intro id named
      rw [moves.successorId] at named
      obtain ⟨m, inside, rfl, onward⟩ := later id named
      obtain ⟨j, member', rfl⟩ := List.mem_map.mp inside
      exact ⟨after j, List.mem_map_of_mem member', (each j member').id,
        onward.moved moves (each j member').toSameSubject (each j member').predecessorId⟩
  · have same : nextOf ((l.map after).foldl (Lookup.indexBy (·.id)) ∅) =
        nextOf ((l.map before).foldl (Lookup.indexBy (·.id)) ∅) := by
      funext id
      ext successor
      rw [nextOf_eq_some distinct, nextOf_eq_some lineage.distinct]
      simp only [List.mem_map, exists_exists_and_eq_and]
      refine exists_congr fun i => and_congr_right fun member => ?_
      rw [(each i member).id, (each i member).successorId]
    rw [same]
    exact lineage.founded

variable {assignments : List CycleAssignment} {b : CycleAssignment}

theorem apart_of_distinct
    (fresh : b.id ∉ assignments.map (·.id)) {a : CycleAssignment} (member : a ∈ assignments) :
    a.id ≠ b.id :=
  fun same => fresh (same ▸ List.mem_map_of_mem member)

theorem distinct_append
    (distinct : (assignments.map (·.id)).Nodup) (fresh : b.id ∉ assignments.map (·.id)) :
    ((assignments ++ [b]).map (·.id)).Nodup := by
  rw [List.map_append, List.map_singleton, List.nodup_append_comm, List.singleton_append]
  exact List.nodup_cons.mpr ⟨fresh, distinct⟩

theorem single_append_iff (live : b.state.isLive = true) :
    (((assignments ++ [b]).filter (·.state.isLive)).map (·.workId)).Nodup ↔
      ((assignments.filter (·.state.isLive)).map (·.workId)).Nodup ∧
      ∀ a ∈ assignments, a.state.isLive = true → a.workId ≠ b.workId := by
  have kept : [b].filter (·.state.isLive) = [b] := List.filter_cons_of_pos live
  rw [List.filter_append, kept, List.map_append, List.map_singleton, List.nodup_append_comm,
    List.singleton_append, List.nodup_cons, and_comm, List.mem_map]
  refine and_congr_right fun _ => ?_
  push Not
  exact ⟨fun apart a member alive => apart a (List.mem_filter.mpr ⟨member, alive⟩),
    fun apart a both => apart a (List.mem_filter.mp both).1 (List.mem_filter.mp both).2⟩

theorem Lineage.append_iff (lineage : Lineage assignments) (fresh : b.id ∉ assignments.map (·.id))
    (live : b.state.isLive = true) (first : b.predecessorId = none) (last : b.successorId = none) :
    Lineage (assignments ++ [b]) ↔
      ∀ a ∈ assignments, a.state.isLive = true → a.workId ≠ b.workId := by
  constructor
  · exact fun joined => ((single_append_iff live).mp joined.single).2
  · intro free
    have distinct := distinct_append lineage.distinct fresh
    apply lineage_of_founded distinct ((single_append_iff live).mpr ⟨lineage.single, free⟩)
    · intro a listed
      rcases List.mem_append.mp listed with member | own
      · obtain ⟨carried, former, later⟩ := lineage.linked a member
        refine ⟨carried, ?_, ?_⟩
        · intro id named
          obtain ⟨m, inside, same⟩ := former id named
          exact ⟨m, List.mem_append_left _ inside, same⟩
        · intro id named
          obtain ⟨m, inside, same⟩ := later id named
          exact ⟨m, List.mem_append_left _ inside, same⟩
      · obtain rfl := List.mem_singleton.mp own
        refine ⟨?_, ?_, ?_⟩
        · exact iff_of_false (not_carried_of_live live) (not_not.mpr last)
        · intro id named
          cases first.symm.trans named
        · intro id named
          cases last.symm.trans named
    · have same : nextOf ((assignments ++ [b]).foldl (Lookup.indexBy (·.id)) ∅) =
          nextOf (assignments.foldl (Lookup.indexBy (·.id)) ∅) := by
        funext id
        ext successor
        rw [nextOf_eq_some distinct, nextOf_eq_some lineage.distinct]
        constructor
        · rintro ⟨a, listed, own, named⟩
          rcases List.mem_append.mp listed with member | new
          · exact ⟨a, member, own, named⟩
          · obtain rfl := List.mem_singleton.mp new
            cases last.symm.trans named
        · rintro ⟨a, member, own, named⟩
          exact ⟨a, List.mem_append_left _ member, own, named⟩
      rw [same]
      exact lineage.founded

theorem Lineage.carried {i : ι} (member : i ∈ l)
    (lineage : Lineage (l.map before)) (live : (before i).state.isLive = true)
    (carries : Carried (before i) (after i) b)
    (others : ∀ j ∈ l, (before j).id ≠ (before i).id → Moved (before j) (after j))
    (fresh : b.id ∉ (l.map before).map (·.id)) (planned : b.state.isLive = true)
    (linked : b.predecessorId = some (before i).id) (last : b.successorId = none)
    (work : b.workId = (before i).workId) (project : b.projectId = (before i).projectId)
    (cycle : b.cycleId ≠ (before i).cycleId) : Lineage (l.map after ++ [b]) := by
  have own (j : ι) (inside : j ∈ l) (same : (before j).id = (before i).id) : j = i := by
    have distinct := lineage.distinct
    rw [List.map_map] at distinct
    exact List.inj_on_of_nodup_map distinct inside member same
  have each (j : ι) (inside : j ∈ l) : SameSubject (before j) (after j) ∧
      (after j).predecessorId = (before j).predecessorId := by
    by_cases same : (before j).id = (before i).id
    · rw [own j inside same]
      exact ⟨carries.toSameSubject, carries.predecessorId⟩
    · exact ⟨(others j inside same).toSameSubject, (others j inside same).predecessorId⟩
  have former (j : ι) (inside : j ∈ l) (passed : (before j).state = .carriedOver) :
      Moved (before j) (after j) := by
    refine others j inside fun same => ?_
    rw [own j inside same] at passed
    exact not_carried_of_live live passed
  have onward : CarriesOn (after i) b := by
    refine ⟨carries.successorId, ?_, carries.carried, ?_, ?_, ?_⟩
    · rw [linked, carries.id]
    · rw [work, carries.workId]
    · rw [project, carries.projectId]
    · rw [carries.cycleId]
      exact cycle
  have alive (j : ι) (inside : j ∈ l) (lives : (after j).state.isLive = true) :
      (before j).id ≠ (before i).id ∧ (before j).state.isLive = true := by
    by_cases same : (before j).id = (before i).id
    · rw [own j inside same] at lives
      exact absurd carries.carried (not_carried_of_live lives)
    · exact ⟨same, (others j inside same).live lives⟩
  have ids := map_ids fun j inside => (each j inside).1
  have fresh' : b.id ∉ (l.map after).map (·.id) := ids ▸ fresh
  have distinct := distinct_append (ids ▸ lineage.distinct) fresh'
  apply lineage_of_founded distinct
  · refine (single_append_iff planned).mpr ⟨?_, ?_⟩
    · exact single_of_sameSubject (fun j inside => (each j inside).1)
        (fun j inside lives => (alive j inside lives).2) lineage.single
    · intro a listed lives same
      obtain ⟨j, inside, rfl⟩ := List.mem_map.mp listed
      obtain ⟨other, lived⟩ := alive j inside lives
      apply other
      rw [(each j inside).1.workId, work] at same
      rw [List.inj_on_of_nodup_map lineage.single
        (List.mem_filter.mpr ⟨List.mem_map_of_mem inside, lived⟩)
        (List.mem_filter.mpr ⟨List.mem_map_of_mem member, live⟩) same]
  · intro a listed
    rcases List.mem_append.mp listed with held | new
    · obtain ⟨j, inside, rfl⟩ := List.mem_map.mp held
      obtain ⟨passed, back, forth⟩ := lineage.linked _ (List.mem_map_of_mem inside)
      have behind (id : String) (named : (after j).predecessorId = some id) :
          ∃ m ∈ l.map after ++ [b], m.id = id ∧ CarriesOn m (after j) := by
        rw [(each j inside).2] at named
        obtain ⟨m, found, rfl, link⟩ := back id named
        obtain ⟨k, inside', rfl⟩ := List.mem_map.mp found
        have moves := former k inside' link.carried
        exact ⟨after k, List.mem_append_left _ (List.mem_map_of_mem inside'), moves.id,
          link.moved moves (each j inside).1 (each j inside).2⟩
      by_cases same : (before j).id = (before i).id
      · obtain rfl := own j inside same
        refine ⟨iff_of_true carries.carried ?_, behind, ?_⟩
        · rw [carries.successorId]
          exact Option.some_ne_none b.id
        · intro id named
          obtain rfl := Option.some.inj (carries.successorId.symm.trans named)
          exact ⟨b, List.mem_append_right _ List.mem_cons_self, rfl, onward⟩
      · have moves := others j inside same
        refine ⟨?_, behind, ?_⟩
        · rw [moves.carried, moves.successorId]
          exact passed
        · intro id named
          rw [moves.successorId] at named
          obtain ⟨m, found, rfl, link⟩ := forth id named
          obtain ⟨k, inside', rfl⟩ := List.mem_map.mp found
          exact ⟨after k, List.mem_append_left _ (List.mem_map_of_mem inside'), (each k inside').1.id,
            link.moved moves (each k inside').1 (each k inside').2⟩
    · obtain rfl := List.mem_singleton.mp new
      refine ⟨iff_of_false (not_carried_of_live planned) (not_not.mpr last), ?_, ?_⟩
      · intro id named
        obtain rfl := Option.some.inj (linked.symm.trans named)
        exact ⟨after i, List.mem_append_left _ (List.mem_map_of_mem member), carries.id, onward⟩
      · intro id named
        cases last.symm.trans named
  · have ended : Founded (nextOf ((l.map after ++ [b]).foldl (Lookup.indexBy (·.id)) ∅)) b.id := by
      apply founded_of_next
      intro successor leads
      obtain ⟨a, listed, same, named⟩ := (nextOf_eq_some distinct).mp leads
      rcases List.mem_append.mp listed with inside | new
      · exact absurd same (apart_of_distinct fresh' inside)
      · obtain rfl := List.mem_singleton.mp new
        cases last.symm.trans named
    intro id
    -- the successors run as before, until they come to the one that is carried over
    induction lineage.founded id with
    | intro id _ ih =>
      apply founded_of_next
      intro successor leads
      obtain ⟨a, listed, same, named⟩ := (nextOf_eq_some distinct).mp leads
      rcases List.mem_append.mp listed with held | new
      · obtain ⟨j, inside, rfl⟩ := List.mem_map.mp held
        by_cases passed : (before j).id = (before i).id
        · rw [own j inside passed, carries.successorId] at named
          exact Option.some.inj named ▸ ended
        · have moves := others j inside passed
          apply ih
          rw [moves.successorId] at named
          exact (nextOf_eq_some lineage.distinct).mpr
            ⟨before j, List.mem_map_of_mem inside, moves.id.symm.trans same, named⟩
      · obtain rfl := List.mem_singleton.mp new
        cases last.symm.trans named

end Edits

end Boreal.Planning
