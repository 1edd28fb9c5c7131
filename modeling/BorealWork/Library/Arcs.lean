/- Searches of a graph that is given by its list of arcs, repeated arcs included: for a vertex, with a
stack, and for an order of removal, by counting the arcs that still lead to each vertex. -/
import BorealWork.Library.Orders
import BorealWork.Library.Walks

namespace Arcs
open Drain Relation

section Graph

variable {κ : Type*} {arcs : List (κ × κ)}

def Leads (arcs : List (κ × κ)) (a b : κ) : Prop := (a, b) ∈ arcs

def Acyclic (arcs : List (κ × κ)) : Prop := ∀ a, ¬ TransGen (Leads arcs) a a

def targets [DecidableEq κ] (arcs : List (κ × κ)) (k : κ) : List κ :=
  (arcs.filter (·.1 = k)).map Prod.snd

theorem mem_targets [DecidableEq κ] {a b : κ} : b ∈ targets arcs a ↔ Leads arcs a b := by
  rw [targets, List.mem_map]
  constructor
  · rintro ⟨arc, member, rfl⟩
    rw [List.mem_filter, decide_eq_true_eq] at member
    obtain ⟨listed, rfl⟩ := member
    exact listed
  · intro listed
    exact ⟨(a, b), List.mem_filter.mpr ⟨listed, decide_eq_true rfl⟩, rfl⟩

theorem acyclic_perm {arcs' : List (κ × κ)} (perm : arcs.Perm arcs') : Acyclic arcs ↔ Acyclic arcs' := by
  have same : Leads arcs = Leads arcs' := by
    funext a b
    exact propext perm.mem_iff
  rw [Acyclic, Acyclic, same]

theorem reflTransGen_cons {arc : κ × κ} {a : κ} :
    ReflTransGen (Leads (arc :: arcs)) a arc.1 ↔ ReflTransGen (Leads arcs) a arc.1 := by
  constructor
  · intro walk
    induction walk using ReflTransGen.head_induction_on with
    | refl => exact .refl
    | head step _ ih =>
      rcases List.mem_cons.mp step with rfl | old
      · exact .refl
      · exact .head old ih
  · exact ReflTransGen.mono (fun _ _ => List.mem_cons_of_mem _) _ _

theorem acyclic_cons {arc : κ × κ} :
    Acyclic (arc :: arcs) ↔ Acyclic arcs ∧ ¬ ReflTransGen (Leads arcs) arc.2 arc.1 := by
  have asStep (arcs : List (κ × κ)) : Walks.Step Prod.fst Prod.snd (· ∈ arcs) = Leads arcs := by
    funext a b
    apply propext
    constructor
    · rintro ⟨arc, listed, rfl, rfl⟩
      exact listed
    · exact fun listed => ⟨(a, b), listed, rfl, rfl⟩
  have asAcyclic (arcs : List (κ × κ)) : Walks.Acyclic Prod.fst Prod.snd (· ∈ arcs) ↔ Acyclic arcs := by
    rw [Walks.Acyclic, asStep, Acyclic]
  have extended : (· ∈ arc :: arcs) = fun other => other ∈ arcs ∨ other = arc := by
    funext other
    exact propext (List.mem_cons.trans or_comm)
  rw [← asAcyclic, ← asAcyclic, extended, Walks.acyclic_insert, ← extended, asStep, reflTransGen_cons]

end Graph

section Search

variable {κ : Type*} [DecidableEq κ]

/-- The stack of what is still to be looked at, its top first, and what has been looked at. -/
structure Search (κ : Type*) where
  pending : List κ
  seen : List κ

/-- A search stops with an empty stack, or with its goal on top of it. -/
def Search.step (arcs : List (κ × κ)) (goal : κ) (s : Search κ) : Option (Search κ) :=
  match s.pending with
  | [] => none
  | k :: rest =>
    if k = goal then none
    else if k ∈ s.seen then some { s with pending := rest }
    else some ⟨(targets arcs k).reverse ++ rest, k :: s.seen⟩

/-- Every arc is put on the stack at most once. -/
def search (arcs : List (κ × κ)) (goal origin : κ) : Search κ :=
  drain (Search.step arcs goal) (arcs.length + 1) ⟨[origin], []⟩

variable {arcs : List (κ × κ)} {goal origin : κ}

def Search.work (arcs : List (κ × κ)) (s : Search κ) : ℕ :=
  s.pending.length + (arcs.filter (·.1 ∉ s.seen)).length

structure Search.Sound (arcs : List (κ × κ)) (goal origin : κ) (s : Search κ) : Prop where
  started : origin ∈ s.seen ∨ origin ∈ s.pending
  closed : ∀ a ∈ s.seen, ∀ b, Leads arcs a b → b ∈ s.seen ∨ b ∈ s.pending
  missed : goal ∉ s.seen
  reached : ∀ a ∈ s.pending, ReflTransGen (Leads arcs) origin a

theorem Search.step_cases {s s' : Search κ} (step : s.step arcs goal = some s') :
    ∃ k rest, s.pending = k :: rest ∧ k ≠ goal ∧
      (k ∈ s.seen ∧ s' = ⟨rest, s.seen⟩ ∨
        k ∉ s.seen ∧ s' = ⟨(targets arcs k).reverse ++ rest, k :: s.seen⟩) := by
  obtain ⟨pending, seen⟩ := s
  cases pending with
  | nil => cases step
  | cons k rest =>
    simp only [Search.step] at step
    split_ifs at step with goal known
    · exact ⟨k, rest, rfl, goal, .inl ⟨known, (Option.some.inj step).symm⟩⟩
    · exact ⟨k, rest, rfl, goal, .inr ⟨known, (Option.some.inj step).symm⟩⟩

theorem Search.step_shorter {s s' : Search κ} (step : s.step arcs goal = some s') :
    s'.work arcs < s.work arcs := by
  obtain ⟨k, rest, stacked, -, ⟨-, rfl⟩ | ⟨fresh, rfl⟩⟩ := Search.step_cases step
  · simp only [Search.work, stacked, List.length_cons]
    omega
  · have own : (arcs.filter fun arc => arc.1 ∉ k :: s.seen).length + (targets arcs k).length =
        (arcs.filter (·.1 ∉ s.seen)).length := by
      rw [targets, List.length_map, ← List.countP_eq_length_filter, ← List.countP_eq_length_filter,
        ← List.countP_eq_length_filter]
      clear step
      induction arcs with
      | nil => rfl
      | cons arc rest ih =>
        simp only [List.countP_cons, List.mem_cons, not_or, Bool.decide_and, decide_not] at ih ⊢
        by_cases here : arc.1 = k
        · simp [here, fresh]
          omega
        · simp [here]
          omega
    simp only [Search.work, stacked, List.length_cons, List.length_append, List.length_reverse]
    omega

theorem Search.Sound.step {s s' : Search κ} (sound : s.Sound arcs goal origin)
    (step : s.step arcs goal = some s') : s'.Sound arcs goal origin := by
  obtain ⟨k, rest, stacked, other, ⟨known, rfl⟩ | ⟨fresh, rfl⟩⟩ := Search.step_cases step
  · have left {a : κ} : a ∈ s.seen ∨ a ∈ s.pending → a ∈ s.seen ∨ a ∈ rest := by
      rw [stacked, List.mem_cons]
      rintro (seen | rfl | later)
      · exact .inl seen
      · exact .inl known
      · exact .inr later
    refine ⟨left sound.started, fun a member b onward => left (sound.closed a member b onward),
      sound.missed, fun a member => sound.reached a ?_⟩
    rw [stacked]
    exact List.mem_cons_of_mem _ member
  · have moved {a : κ} : a ∈ s.seen ∨ a ∈ s.pending →
        a ∈ k :: s.seen ∨ a ∈ (targets arcs k).reverse ++ rest := by
      rw [stacked, List.mem_cons, List.mem_cons, List.mem_append]
      tauto
    have here : ReflTransGen (Leads arcs) origin k := by
      apply sound.reached
      rw [stacked]
      exact List.mem_cons_self
    refine ⟨moved sound.started, ?_, ?_, ?_⟩
    · intro a member b onward
      rcases List.mem_cons.mp member with rfl | old
      · exact .inr (List.mem_append_left _ (List.mem_reverse.mpr (mem_targets.mpr onward)))
      · exact moved (sound.closed a old b onward)
    · exact List.not_mem_cons_of_ne_of_not_mem (Ne.symm other) sound.missed
    · intro a member
      rcases List.mem_append.mp member with next | later
      · exact here.tail (mem_targets.mp (List.mem_reverse.mp next))
      · apply sound.reached
        rw [stacked]
        exact List.mem_cons_of_mem _ later

theorem search_iff : (search arcs goal origin).pending = [] ↔ ¬ ReflTransGen (Leads arcs) origin goal := by
  have start : Search.Sound arcs goal origin ⟨[origin], []⟩ :=
    ⟨.inr List.mem_cons_self, List.forall_mem_nil _, List.not_mem_nil, List.forall_mem_singleton.mpr .refl⟩
  have sound : (search arcs goal origin).Sound arcs goal origin :=
    drain_invariant (fun _ _ sound step => sound.step step) _ start
  have stopped : (search arcs goal origin).step arcs goal = none := by
    refine @drain_stopped _ _ (fun _ => True) (Search.work arcs) (fun _ _ _ _ => trivial)
      (fun _ _ _ step => Search.step_shorter step) _ _ trivial ?_
    have all := List.length_filter_le (fun arc : κ × κ => decide (arc.1 ∉ ([] : List κ))) arcs
    simp only [Search.work, List.length_singleton]
    omega
  generalize search arcs goal origin = s at sound stopped
  obtain ⟨pending, seen⟩ := s
  cases pending with
  | nil =>
    refine iff_of_true rfl fun walk => sound.missed ?_
    have origin_seen : origin ∈ seen := sound.started.resolve_right List.not_mem_nil
    exact @Walks.mem_of_reflTransGen _ _ {a | a ∈ seen} (fun a member b onward =>
      (sound.closed a member b onward).resolve_right List.not_mem_nil) _ _ origin_seen walk
  | cons k rest =>
    simp only [Search.step] at stopped
    split_ifs at stopped with found
    refine iff_of_false (List.cons_ne_nil _ _) fun unreachable => unreachable ?_
    exact found ▸ sound.reached k List.mem_cons_self

end Search

section Removal

variable {κ : Type*} [LinearOrder κ]

/-- How many arcs still lead to each vertex, the vertices to which none does, and those removed. -/
structure Removal (κ : Type*) [LinearOrder κ] where
  indegree : Std.TreeMap κ ℕ
  ready : List κ
  visited : List κ

def enterArc (m : Std.TreeMap κ ℕ) (arc : κ × κ) : Std.TreeMap κ ℕ :=
  let m := m.insert arc.1 (m.getD arc.1 0)
  m.insert arc.2 (m.getD arc.2 0 + 1)

def Removal.start (indegree : Std.TreeMap κ ℕ) : Removal κ :=
  ⟨indegree, (indegree.toList.filter (·.2 = 0)).map Prod.fst, []⟩

/-- One arc to a vertex is gone. -/
def Removal.release (s : Removal κ) (k : κ) : Removal κ :=
  let degree := s.indegree.getD k 0 - 1
  { s with
    indegree := s.indegree.insert k degree
    ready := if degree = 0 then s.ready ++ [k] else s.ready }

def Removal.step (arcs : List (κ × κ)) (s : Removal κ) : Option (Removal κ) :=
  match s.ready with
  | [] => none
  | k :: rest => some ((targets arcs k).foldl Removal.release
      { s with ready := rest, visited := k :: s.visited })

/-- As many steps as there are vertices. -/
def removal (arcs : List (κ × κ)) (indegree : Std.TreeMap κ ℕ) : Removal κ :=
  drain (Removal.step arcs) indegree.size (Removal.start indegree)

variable {arcs : List (κ × κ)}

def Vertex (arcs : List (κ × κ)) (k : κ) : Prop := ∃ arc ∈ arcs, arc.1 = k ∨ arc.2 = k

theorem lawfulBEq_key : LawfulBEq κ := inferInstance

attribute [local instance] lawfulBEq_key

/-- The arcs to a vertex that do not come from a removed one, each as often as it is listed. -/
def degreeLeft (arcs : List (κ × κ)) (visited : List κ) (k : κ) : ℕ :=
  arcs.countP fun arc => arc.2 = k ∧ arc.1 ∉ visited

theorem degreeLeft_eq_zero {visited : List κ} {k : κ} :
    degreeLeft arcs visited k = 0 ↔ ∀ a, Leads arcs a k → a ∈ visited := by
  rw [degreeLeft, List.countP_eq_zero]
  constructor
  · intro none a onward
    by_contra missing
    exact none (a, k) onward (decide_eq_true ⟨rfl, missing⟩)
  · rintro all ⟨a, b⟩ listed passes
    obtain ⟨rfl, missing⟩ := of_decide_eq_true passes
    exact missing (all a listed)

theorem degreeLeft_of_not_vertex {visited : List κ} {k : κ} (outside : ¬ Vertex arcs k) :
    degreeLeft arcs visited k = 0 :=
  degreeLeft_eq_zero.mpr fun a onward => absurd ⟨(a, k), onward, .inr rfl⟩ outside

theorem degreeLeft_cons {visited : List κ} {k t : κ} (fresh : k ∉ visited) :
    degreeLeft arcs visited t = degreeLeft arcs (k :: visited) t + (targets arcs k).count t := by
  induction arcs with
  | nil => rfl
  | cons arc rest ih =>
    obtain ⟨a, b⟩ := arc
    rw [targets] at ih
    rw [degreeLeft, degreeLeft, targets, List.countP_cons, List.countP_cons, List.filter_cons]
    rw [degreeLeft, degreeLeft] at ih
    by_cases from_ : a = k
    · subst from_
      by_cases target : b = t
      · subst target
        simp [fresh] at ih ⊢
        omega
      · simp [fresh, target] at ih ⊢
        omega
    · simp [from_] at ih ⊢
      omega

structure Counts (arcs : List (κ × κ)) (visited : List κ) (m : Std.TreeMap κ ℕ) : Prop where
  found : ∀ k, Vertex arcs k → m[k]? = some (degreeLeft arcs visited k)
  others : ∀ k, ¬ Vertex arcs k → m[k]? = none

theorem Counts.getD {visited : List κ} {m : Std.TreeMap κ ℕ} (counts : Counts arcs visited m) (k : κ) :
    m.getD k 0 = degreeLeft arcs visited k := by
  rw [Std.TreeMap.getD_eq_getD_getElem?]
  by_cases vertex : Vertex arcs k
  · rw [counts.found k vertex, Option.getD_some]
  · rw [counts.others k vertex, degreeLeft_of_not_vertex vertex, Option.getD_none]

theorem Counts.mem_keys {visited : List κ} {m : Std.TreeMap κ ℕ} (counts : Counts arcs visited m) {k : κ} :
    k ∈ m.keys ↔ Vertex arcs k := by
  rw [Lookup.mem_keys_iff]
  constructor
  · rintro ⟨degree, found⟩
    by_contra outside
    cases (counts.others k outside).symm.trans found
  · exact fun vertex => ⟨_, counts.found k vertex⟩

theorem counts_enter : Counts arcs [] (arcs.foldl enterArc ∅) := by
  induction arcs using List.reverseRecOn with
  | nil => exact ⟨fun k vertex => absurd vertex (by simp [Vertex]), fun k _ => by simp⟩
  | append_singleton arcs arc counts =>
    obtain ⟨a, b⟩ := arc
    rw [List.foldl_append, List.foldl_cons, List.foldl_nil]
    generalize arcs.foldl enterArc ∅ = m at counts
    have same : (m.insert a (m.getD a 0)).getD b 0 = m.getD b 0 := by
      rw [Std.TreeMap.getD_eq_getD_getElem?, Lookup.getElem?_insert]
      split_ifs with own
      · rw [own, Option.getD_some]
      · rw [Std.TreeMap.getD_eq_getD_getElem?]
    have grown (k : κ) : degreeLeft (arcs ++ [(a, b)]) [] k =
        degreeLeft arcs [] k + if b = k then 1 else 0 := by
      simp [degreeLeft, List.countP_cons]
    have vertices (k : κ) : Vertex (arcs ++ [(a, b)]) k ↔ Vertex arcs k ∨ a = k ∨ b = k := by
      simp only [Vertex, List.mem_append, List.mem_singleton, or_and_right, exists_or, exists_eq_left]
    have entry (k : κ) : (enterArc m (a, b))[k]? =
        if b = k then some (m.getD b 0 + 1) else if a = k then some (m.getD a 0) else m[k]? := by
      rw [enterArc, Lookup.getElem?_insert, same, Lookup.getElem?_insert]
    constructor
    · intro k vertex
      rw [entry, grown]
      split_ifs with target source
      · rw [counts.getD, target]
      · rw [counts.getD, source, Nat.add_zero]
      · have old : Vertex arcs k := by
          rcases (vertices k).mp vertex with old | own | own
          · exact old
          · exact absurd own source
          · exact absurd own target
        rw [counts.found k old, Nat.add_zero]
    · intro k outside
      rw [vertices, not_or, not_or] at outside
      rw [entry, if_neg outside.2.2, if_neg outside.2.1, counts.others k outside.1]

theorem releases_spec {ts : List κ} (s : Removal κ)
    (enough : ∀ k ∈ ts, ts.count k ≤ s.indegree.getD k 0) :
    (ts.foldl Removal.release s).visited = s.visited ∧
    (∀ k, (ts.foldl Removal.release s).indegree[k]? =
      if k ∈ ts then some (s.indegree.getD k 0 - ts.count k) else s.indegree[k]?) ∧
    ∃ opened, (ts.foldl Removal.release s).ready = s.ready ++ opened ∧ opened.Nodup ∧
      ∀ k, k ∈ opened ↔ k ∈ ts ∧ s.indegree.getD k 0 = ts.count k := by
  induction ts generalizing s with
  | nil => exact ⟨rfl, fun k => by simp, [], (List.append_nil _).symm, List.nodup_nil, by simp⟩
  | cons t rest ih =>
    have own := enough t List.mem_cons_self
    rw [List.count_cons_self] at own
    have lowered (k : κ) : (s.release t).indegree.getD k 0 =
        s.indegree.getD k 0 - if t = k then 1 else 0 := by
      rw [Std.TreeMap.getD_eq_getD_getElem?, Removal.release, Lookup.getElem?_insert]
      split_ifs with same
      · rw [same, Option.getD_some]
      · rw [Std.TreeMap.getD_eq_getD_getElem?, Nat.sub_zero]
    have enough' (k : κ) (member : k ∈ rest) : rest.count k ≤ (s.release t).indegree.getD k 0 := by
      have bound := enough k (List.mem_cons_of_mem _ member)
      rw [List.count_cons] at bound
      rw [lowered]
      simp only [beq_iff_eq] at bound
      split_ifs at bound ⊢ <;> omega
    obtain ⟨visited, indegree, opened, ready, distinct, opens⟩ := ih (s.release t) enough'
    refine ⟨visited, fun k => ?_, ?_⟩
    · rw [List.foldl_cons, indegree, lowered, List.count_cons]
      by_cases same : t = k
      · subst same
        rw [if_pos List.mem_cons_self, if_pos rfl, beq_self_eq_true, if_pos rfl, Removal.release,
          Lookup.getElem?_insert_self]
        split_ifs with again
        · rw [Nat.sub_sub, Nat.add_comm]
        · rw [List.count_eq_zero.mpr again, Nat.zero_add]
      · have kept : (s.release t).indegree[k]? = s.indegree[k]? := by
          rw [Removal.release, Lookup.getElem?_insert_ne _ _ same]
        have other : ¬ (t == k) = true := by simpa using same
        simp only [kept, same, other, Bool.false_eq_true, if_false, Nat.sub_zero, Nat.add_zero,
          List.mem_cons, Ne.symm same, false_or]
    · by_cases last : s.indegree.getD t 0 - 1 = 0
      · have gone : t ∉ rest := List.count_eq_zero.mp (by omega)
        have fresh : t ∉ opened := fun member => gone ((opens t).mp member).1
        refine ⟨t :: opened, ?_, List.nodup_cons.mpr ⟨fresh, distinct⟩, ?_⟩
        · rw [List.foldl_cons, ready, Removal.release, if_pos last, List.append_assoc, List.singleton_append]
        · intro k
          rw [List.mem_cons, List.mem_cons, opens, lowered, List.count_cons]
          by_cases same : t = k
          · subst same
            rw [List.count_eq_zero.mpr gone, beq_self_eq_true, if_pos rfl, if_pos rfl]
            exact iff_of_true (.inl rfl) ⟨.inl rfl, by omega⟩
          · rw [if_neg same, if_neg (by simpa using same), Nat.sub_zero, Nat.add_zero]
            simp only [Ne.symm same, false_or]
      · refine ⟨opened, ?_, distinct, ?_⟩
        · rw [List.foldl_cons, ready, Removal.release, if_neg last]
        · intro k
          rw [List.mem_cons, opens, lowered, List.count_cons]
          by_cases same : t = k
          · subst same
            rw [beq_self_eq_true, if_pos rfl, if_pos rfl]
            have more : 0 < rest.count t ↔ t ∈ rest := List.count_pos_iff
            constructor
            · rintro ⟨member, met⟩
              exact ⟨.inl rfl, by omega⟩
            · rintro ⟨-, met⟩
              exact ⟨more.mp (by omega), by omega⟩
          · rw [if_neg same, if_neg (by simpa using same), Nat.sub_zero, Nat.add_zero]
            simp only [Ne.symm same, false_or]

structure Removal.Sound (arcs : List (κ × κ)) (s : Removal κ) : Prop where
  counts : Counts arcs s.visited s.indegree
  distinct : (s.visited ++ s.ready).Nodup
  listed : ∀ k ∈ s.visited ++ s.ready, Vertex arcs k
  settled : ∀ k, Vertex arcs k → (k ∈ s.visited ++ s.ready ↔ degreeLeft arcs s.visited k = 0)
  founded : ∀ k ∈ s.visited, Acc (Leads arcs) k

theorem Removal.Sound.start {indegree : Std.TreeMap κ ℕ} (counts : Counts arcs [] indegree) :
    (Removal.start indegree).Sound arcs := by
  have ready (k : κ) : k ∈ (Removal.start indegree).ready ↔ indegree[k]? = some 0 := by
    rw [Removal.start, List.mem_map]
    constructor
    · rintro ⟨⟨k, degree⟩, member, rfl⟩
      rw [List.mem_filter, decide_eq_true_eq] at member
      obtain ⟨listed, rfl⟩ := member
      exact Lookup.mem_toList_iff.mp listed
    · exact fun zero => ⟨(k, 0), List.mem_filter.mpr ⟨Lookup.mem_toList_iff.mpr zero, by simp⟩, rfl⟩
  have keys : (Removal.start indegree).ready.Sublist indegree.keys := by
    rw [← Std.TreeMap.map_fst_toList_eq_keys]
    exact List.filter_sublist.map Prod.fst
  refine ⟨counts, keys.nodup indegree.nodup_keys, fun k member => ?_, fun k vertex => ?_,
    List.forall_mem_nil _⟩
  · exact counts.mem_keys.mp (keys.subset member)
  · rw [show (Removal.start indegree).visited = [] from rfl, List.nil_append, ready, counts.found k vertex,
      Option.some_inj]

theorem Removal.Sound.step {s s' : Removal κ} (sound : s.Sound arcs) (step : s.step arcs = some s') :
    s'.Sound arcs ∧ ∃ k, s'.visited = k :: s.visited := by
  obtain ⟨indegree, ready, visited⟩ := s
  cases ready with
  | nil => cases step
  | cons k rest =>
    obtain rfl := Option.some.inj step
    obtain ⟨counts, distinct, listed, settled, founded⟩ := sound
    dsimp only at counts distinct listed settled founded
    have fresh : k ∉ visited := fun member =>
      List.disjoint_of_nodup_append distinct member List.mem_cons_self
    have here : k ∈ visited ++ k :: rest := List.mem_append_right _ List.mem_cons_self
    have cut (t : κ) := @degreeLeft_cons _ _ arcs visited k t fresh
    have enough (t : κ) (_ : t ∈ targets arcs k) : (targets arcs k).count t ≤ indegree.getD t 0 := by
      rw [counts.getD, cut]
      exact Nat.le_add_left _ _
    obtain ⟨taken, entries, opened, behind, apart, opens⟩ :=
      releases_spec ⟨indegree, rest, k :: visited⟩ enough
    generalize (targets arcs k).foldl Removal.release ⟨indegree, rest, k :: visited⟩ = s'
      at taken entries behind
    dsimp only at taken entries behind opens
    have own (t : κ) : t ∈ opened ↔ t ∈ targets arcs k ∧ degreeLeft arcs (k :: visited) t = 0 := by
      rw [opens, counts.getD, cut]
      exact and_congr_right fun _ => by omega
    have pointed {t : κ} (member : t ∈ targets arcs k) : Vertex arcs t :=
      ⟨(k, t), mem_targets.mp member, .inr rfl⟩
    have many (t : κ) : t ∈ targets arcs k ↔ 0 < (targets arcs k).count t := List.count_pos_iff.symm
    have reordered : (k :: visited ++ (rest ++ opened)).Perm ((visited ++ k :: rest) ++ opened) := by
      rw [List.append_assoc, List.cons_append]
      exact List.perm_middle.symm
    have members (t : κ) :
        t ∈ k :: visited ++ (rest ++ opened) ↔ t ∈ visited ++ k :: rest ∨ t ∈ opened := by
      rw [reordered.mem_iff, List.mem_append]
    refine ⟨⟨?_, ?_, ?_, ?_, ?_⟩, k, taken⟩
    · rw [taken]
      constructor
      · intro t vertex
        rw [entries, counts.getD, counts.found t vertex, cut]
        split_ifs with member
        · rw [Nat.add_sub_cancel]
        · rw [List.count_eq_zero.mpr member, Nat.add_zero]
      · intro t outside
        rw [entries, if_neg fun member => outside (pointed member), counts.others t outside]
    · rw [taken, behind]
      refine reordered.nodup_iff.mpr (List.nodup_append'.mpr ⟨distinct, apart, fun t old new => ?_⟩)
      have member := ((own t).mp new).1
      have zero := (settled t (pointed member)).mp old
      rw [cut] at zero
      have := (many t).mp member
      omega
    · rw [taken, behind]
      intro t member
      rcases (members t).mp member with old | new
      · exact listed t old
      · exact pointed ((own t).mp new).1
    · rw [taken, behind]
      intro t vertex
      rw [members, own, settled t vertex, cut, many]
      omega
    · rw [taken]
      refine List.forall_mem_cons.mpr ⟨⟨k, fun a onward => ?_⟩, founded⟩
      have none := (settled k (listed k here)).mp here
      exact founded a (degreeLeft_eq_zero.mp none a onward)

theorem Removal.Sound.visited_le {s : Removal κ} (sound : s.Sound arcs) {visited : List κ}
    {indegree : Std.TreeMap κ ℕ} (counts : Counts arcs visited indegree) :
    s.visited.length ≤ indegree.size := by
  rw [← Std.TreeMap.length_keys]
  refine (List.subperm_of_subset (List.nodup_append.mp sound.distinct).1 fun k member => ?_).length_le
  exact counts.mem_keys.mpr (sound.listed k (List.mem_append_left _ member))

theorem removal_sound {indegree : Std.TreeMap κ ℕ} (counts : Counts arcs [] indegree) :
    (removal arcs indegree).Sound arcs :=
  drain_invariant (fun _ _ sound step => (sound.step step).1) _ (.start counts)

theorem removal_stopped {indegree : Std.TreeMap κ ℕ} (counts : Counts arcs [] indegree) :
    (removal arcs indegree).ready = [] := by
  have stopped : (removal arcs indegree).step arcs = none := by
    refine @drain_stopped _ _ (Removal.Sound arcs) (fun s => indegree.size - s.visited.length)
      (fun _ _ sound step => (sound.step step).1) ?_ _ _ (.start counts) (Nat.sub_le _ _)
    intro s s' sound step
    obtain ⟨sound', k, taken⟩ := sound.step step
    have bound := sound'.visited_le counts
    rw [taken, List.length_cons] at bound ⊢
    omega
  generalize removal arcs indegree = s at stopped
  obtain ⟨indegree, ready, visited⟩ := s
  cases ready with
  | nil => rfl
  | cons k rest => cases stopped

omit [LinearOrder κ] in
theorem acyclic_induction (acyclic : Acyclic arcs) {p : κ → Prop}
    (passes : ∀ k, (∀ a, Leads arcs a k → p a) → p k) (k : κ) : p k := by
  let sources : Set κ := {a | a ∈ arcs.map Prod.fst}
  have finite : sources.Finite := List.finite_toSet _
  have order : IsStrictOrder κ (TransGen (Leads arcs)) :=
    { irrefl := acyclic, trans := fun _ _ _ => TransGen.trans }
  have founded : sources.WellFoundedOn (TransGen (Leads arcs)) := finite.wellFoundedOn
  have source {a b : κ} (onward : Leads arcs a b) : a ∈ sources := List.mem_map.mpr ⟨(a, b), onward, rfl⟩
  refine passes k fun a onward => founded.induction (source onward) fun b _ ih => passes b fun c before => ?_
  exact ih c (source before) (.single before)

theorem removal_iff : (removal arcs (arcs.foldl enterArc ∅)).visited.length =
    (removal arcs (arcs.foldl enterArc ∅)).indegree.size ↔ Acyclic arcs := by
  have sound := removal_sound (@counts_enter _ _ arcs)
  have stopped := removal_stopped (@counts_enter _ _ arcs)
  generalize removal arcs (arcs.foldl enterArc ∅) = s at sound stopped
  have distinct := (List.nodup_append.mp sound.distinct).1
  have listed (k : κ) (member : k ∈ s.visited) : k ∈ s.indegree.keys :=
    sound.counts.mem_keys.mpr (sound.listed k (List.mem_append_left _ member))
  rw [← Std.TreeMap.length_keys]
  constructor
  · intro all a cycle
    obtain ⟨b, onward, -⟩ := TransGen.head'_iff.mp cycle
    have perm := (List.subperm_of_subset distinct listed).perm_of_length_le all.ge
    have vertex : Vertex arcs a := ⟨(a, b), onward, .inl rfl⟩
    have visited := perm.symm.subset (sound.counts.mem_keys.mpr vertex)
    exact Orders.acc_not_transGen (sound.founded a visited) cycle
  · intro acyclic
    have visited (k : κ) : Vertex arcs k → k ∈ s.visited := by
      refine @acyclic_induction _ arcs acyclic (fun k => Vertex arcs k → k ∈ s.visited) ?_ k
      intro k before vertex
      have settled := sound.settled k vertex
      rw [stopped, List.append_nil] at settled
      exact settled.mpr (degreeLeft_eq_zero.mpr fun a onward => before a onward ⟨(a, k), onward, .inl rfl⟩)
    refine ((List.perm_ext_iff_of_nodup distinct s.indegree.nodup_keys).mpr fun k => ?_).length_eq
    exact ⟨listed k, fun member => visited k (sound.counts.mem_keys.mp member)⟩

end Removal

end Arcs
