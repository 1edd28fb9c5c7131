/- Orders in which everything comes behind what it needs: climbs along a chain, picking whatever is
ready, and counting down what is still needed. -/
import BorealWork.Library.Drain
import BorealWork.Library.Lookup

namespace Orders
open Drain

theorem acc_not_transGen {α : Type*} {r : α → α → Prop} {a : α} (founded : Acc r a) :
    ¬ Relation.TransGen r a a := by
  have each {a : α} (founded : Acc (Relation.TransGen r) a) : ¬ Relation.TransGen r a a := by
    induction founded with
    | intro a _ ih => exact fun loop => ih a loop loop
  exact each founded.transGen

section Climbs

variable {κ : Type*} [DecidableEq κ]

/-- Where a walk along a chain stands, and where it has been. -/
structure Climb (κ : Type*) where
  path : List κ
  current : Option κ

/-- A climb stops past the end of the chain, on ground it knows, or where it has been. -/
def climbStep (next : κ → Option κ) (known : List κ) (climb : Climb κ) : Option (Climb κ) :=
  match climb.current with
  | none => none
  | some k => if k ∈ known ∨ k ∈ climb.path then none else some ⟨k :: climb.path, next k⟩

def climb (next : κ → Option κ) (known : List κ) (fuel : ℕ) (k : κ) : Climb κ :=
  drain (climbStep next known) fuel ⟨[], some k⟩

variable {next : κ → Option κ} {known : List κ}

/-- What is left of a climb among the keys that lead on. -/
def Climb.remaining (keys : List κ) (climb : Climb κ) : ℕ :=
  (keys.filter (· ∉ climb.path)).length + climb.current.toList.length

theorem climbStep_shorter {keys : List κ} (leads : ∀ k, next k ≠ none → k ∈ keys) {climb climb' : Climb κ}
    (step : climbStep next known climb = some climb') : climb'.remaining keys < climb.remaining keys := by
  obtain ⟨path, current⟩ := climb
  cases current with
  | none => cases step
  | some k =>
    simp only [climbStep] at step
    split_ifs at step with ended
    rw [not_or] at ended
    cases step
    have weaker : (keys.filter (· ∉ k :: path)).Sublist (keys.filter (· ∉ path)) := by
      refine List.monotone_filter_right _ fun other fresh => ?_
      simp only [decide_eq_true_eq] at fresh ⊢
      exact fun member => fresh (List.mem_cons_of_mem _ member)
    have fewer := weaker.length_le
    simp only [Climb.remaining, Option.toList_some, List.length_singleton]
    cases onward : next k with
    | none =>
      rw [Option.toList_none, List.length_nil]
      omega
    | some k' =>
      have strict : (keys.filter (· ∉ k :: path)).length ≠ (keys.filter (· ∉ path)).length := by
        intro same
        have listed := leads k (by rw [onward]; exact Option.some_ne_none k')
        have member : k ∈ keys.filter (· ∉ path) :=
          List.mem_filter.mpr ⟨listed, decide_eq_true ended.2⟩
        rw [← weaker.eq_of_length same, List.mem_filter, decide_eq_true_eq] at member
        exact member.2 List.mem_cons_self
      rw [Option.toList_some, List.length_singleton]
      omega

theorem climb_stopped {keys : List κ} (leads : ∀ k, next k ≠ none → k ∈ keys) {fuel : ℕ}
    (enough : keys.length + 1 ≤ fuel) (k : κ) : climbStep next known (climb next known fuel k) = none := by
  refine @drain_stopped _ _ (fun _ => True) (Climb.remaining keys)
    (fun _ _ _ _ => trivial) (fun _ _ _ step => climbStep_shorter leads step) _ _ trivial ?_
  have all := List.length_filter_le (fun other => decide (other ∉ ([] : List κ))) keys
  simp only [Climb.remaining, Option.toList_some, List.length_singleton]
  omega

/-- A key from which the chain comes to an end. -/
def Founded (next : κ → Option κ) : κ → Prop := Acc fun a b => next b = some a

omit [DecidableEq κ] in
theorem founded_of_next {k : κ} (onward : ∀ k', next k = some k' → Founded next k') : Founded next k :=
  ⟨k, onward⟩

def Climb.Rests (next : κ → Option κ) (origin : κ) (climb : Climb κ) : Prop :=
  (∀ last ∈ climb.current, Founded next last) → (∀ k ∈ climb.path, Founded next k) ∧ Founded next origin

theorem climbStep_rests {origin : κ} {climb climb' : Climb κ} (rests : climb.Rests next origin)
    (step : climbStep next known climb = some climb') : climb'.Rests next origin := by
  intro founded
  obtain ⟨path, current⟩ := climb
  cases current with
  | none => cases step
  | some k =>
    simp only [climbStep] at step
    split_ifs at step
    cases step
    have here : Founded next k := founded_of_next founded
    obtain ⟨behind, start⟩ := rests fun last same => Option.some.inj same ▸ here
    exact ⟨List.forall_mem_cons.mpr ⟨here, behind⟩, start⟩

theorem climb_rests (fuel : ℕ) (k : κ) : (climb next known fuel k).Rests next k :=
  drain_invariant (fun _ _ => climbStep_rests) fuel fun founded => ⟨List.forall_mem_nil _, founded k rfl⟩

def Climb.Leads (next : κ → Option κ) (climb : Climb κ) : Prop :=
  ∀ k ∈ climb.path, ∀ last ∈ climb.current, Relation.TransGen (fun a b => next b = some a) last k

theorem climbStep_leads {climb climb' : Climb κ} (leads : climb.Leads next)
    (step : climbStep next known climb = some climb') : climb'.Leads next := by
  obtain ⟨path, current⟩ := climb
  cases current with
  | none => cases step
  | some k =>
    simp only [climbStep] at step
    split_ifs at step
    cases step
    intro k' member last onward
    have here : Relation.TransGen (fun a b => next b = some a) last k := .single onward
    rcases List.mem_cons.mp member with same | behind
    · exact same ▸ here
    · exact here.trans (leads k' behind k rfl)

theorem climbStep_founded {climb climb' : Climb κ} (founded : ∀ last ∈ climb.current, Founded next last)
    (step : climbStep next known climb = some climb') : ∀ last ∈ climb'.current, Founded next last := by
  obtain ⟨path, current⟩ := climb
  cases current with
  | none => cases step
  | some k =>
    simp only [climbStep] at step
    split_ifs at step
    cases step
    intro last onward
    exact (founded k rfl).inv onward

theorem climb_fresh {k : κ} (founded : Founded next k) (fuel : ℕ) :
    ∀ last ∈ (climb next known fuel k).current, last ∉ (climb next known fuel k).path := by
  intro last current member
  have leads : (climb next known fuel k).Leads next :=
    drain_invariant (fun _ _ => climbStep_leads) fuel (List.forall_mem_nil _)
  have rests : ∀ last ∈ (climb next known fuel k).current, Founded next last :=
    drain_invariant (fun _ _ => climbStep_founded) fuel fun _ same => Option.some.inj same ▸ founded
  exact acc_not_transGen (rests last current) (leads last member last current)

def Climb.All (p : κ → Prop) (climb : Climb κ) : Prop :=
  (∀ k ∈ climb.path, p k) ∧ ∀ last ∈ climb.current, p last

theorem climbStep_all {p : κ → Prop} (passes : ∀ k k', p k → next k = some k' → p k') {climb climb' : Climb κ}
    (all : climb.All p) (step : climbStep next known climb = some climb') : climb'.All p := by
  obtain ⟨path, current⟩ := climb
  cases current with
  | none => cases step
  | some k =>
    simp only [climbStep] at step
    split_ifs at step
    cases step
    have here : p k := all.2 k rfl
    exact ⟨List.forall_mem_cons.mpr ⟨here, all.1⟩, fun last onward => passes k last here onward⟩

theorem climb_all {p : κ → Prop} (passes : ∀ k k', p k → next k = some k' → p k') (fuel : ℕ) {k : κ}
    (origin : p k) : (climb next known fuel k).All p :=
  drain_invariant (fun _ _ => climbStep_all passes) fuel
    ⟨List.forall_mem_nil _, fun _ same => Option.some.inj same ▸ origin⟩

theorem drain_climb {σ : Type*} {step : σ → Option σ} {place : Climb κ → σ}
    (same : ∀ c, step (place c) = (climbStep next known c).map place) (fuel : ℕ) (c : Climb κ) :
    drain step fuel (place c) = place (drain (climbStep next known) fuel c) := by
  induction fuel generalizing c with
  | zero => rfl
  | succ fuel ih =>
    rw [drain, drain, same]
    cases climbStep next known c with
    | none => rfl
    | some climb' => exact ih climb'

end Climbs

section Picking

variable {α κ : Type*} [DecidableEq κ] (key : α → κ) (needs : α → List κ)

/-- Everything comes behind what it needs; `done` was there before. -/
def ReadyOrder : List κ → List α → Prop
  | _, [] => True
  | done, a :: rest => (∀ k ∈ needs a, k ∈ done) ∧ ReadyOrder (key a :: done) rest

def isReady (done : List κ) (a : α) : Bool := (needs a).all (· ∈ done)

/-- Again and again the first of the pending that is ready; `none` when none is. -/
def pickReady : ℕ → List κ → List α → Option (List α)
  | _, _, [] => some []
  | 0, _, _ :: _ => none
  | n + 1, done, first :: rest =>
    ((first :: rest).find? (isReady needs done)).bind fun a =>
      (pickReady n (key a :: done) ((first :: rest).eraseP (isReady needs done))).map (a :: ·)

def Needs (items : List α) (k k' : κ) : Prop := ∃ a ∈ items, key a = k' ∧ k ∈ needs a

variable {key needs}

omit [DecidableEq κ] in
theorem readyOrder_behind {done : List κ} {order : List α} (ready : ReadyOrder key needs done order)
    {before after : List α} {a : α} (split : order = before ++ a :: after) :
    ∀ k ∈ needs a, k ∈ done ∨ k ∈ before.map key := by
  induction before generalizing done order with
  | nil =>
    subst split
    exact fun k needed => .inl (ready.1 k needed)
  | cons b before ih =>
    subst split
    intro k needed
    rcases ih ready.2 rfl k needed with early | later
    · rcases List.mem_cons.mp early with rfl | done
      · exact .inr List.mem_cons_self
      · exact .inl done
    · exact .inr (List.mem_cons_of_mem _ later)

theorem isReady_iff {done : List κ} {a : α} : isReady needs done a = true ↔ ∀ k ∈ needs a, k ∈ done := by
  simp [isReady]

theorem pickReady_spec {n : ℕ} {done : List κ} {pending order : List α}
    (picked : pickReady key needs n done pending = some order) :
    order.Perm pending ∧ ReadyOrder key needs done order := by
  induction n generalizing done pending order with
  | zero =>
    cases pending with
    | nil =>
      cases picked
      exact ⟨.refl _, trivial⟩
    | cons a rest => cases picked
  | succ n ih =>
    cases pending with
    | nil =>
      cases picked
      exact ⟨.refl _, trivial⟩
    | cons first rest =>
      rw [pickReady, Option.bind_eq_some_iff] at picked
      obtain ⟨a, found, picked⟩ := picked
      obtain ⟨tail, later, rfl⟩ := Option.map_eq_some_iff.mp picked
      obtain ⟨perm, ready⟩ := ih later
      obtain ⟨fits, before, after, split, others⟩ := List.find?_eq_some_iff_append.mp found
      have erased : (first :: rest).eraseP (isReady needs done) = before ++ after := by
        rw [split, List.eraseP_append_right _ (fun b member => by simpa using others b member),
          List.eraseP_cons_of_pos fits]
      refine ⟨?_, isReady_iff.mp fits, ready⟩
      rw [split]
      rw [erased] at perm
      exact (perm.cons a).trans List.perm_middle.symm

theorem exists_ready {done : List κ} {pending : List α}
    (known : ∀ a ∈ pending, ∀ k ∈ needs a, k ∈ done ∨ k ∈ pending.map key) {k : κ}
    (founded : Acc (Needs key needs pending) k) :
    ∀ a ∈ pending, key a = k → ∃ b ∈ pending, isReady needs done b = true := by
  induction founded with
  | intro k _ ih =>
    intro a member here
    by_cases ready : ∀ k ∈ needs a, k ∈ done
    · exact ⟨a, member, isReady_iff.mpr ready⟩
    · push Not at ready
      obtain ⟨missing, needed, absent⟩ := ready
      obtain ⟨b, inside, named⟩ := List.mem_map.mp ((known a member missing needed).resolve_left absent)
      exact ih missing ⟨a, member, here, needed⟩ b inside named

theorem pickReady_succeeds {n : ℕ} {done : List κ} {pending : List α} (enough : pending.length ≤ n)
    (known : ∀ a ∈ pending, ∀ k ∈ needs a, k ∈ done ∨ k ∈ pending.map key)
    (founded : ∀ a ∈ pending, Acc (Needs key needs pending) (key a)) :
    ∃ order, pickReady key needs n done pending = some order := by
  induction n generalizing done pending with
  | zero =>
    rw [List.length_eq_zero_iff.mp (Nat.le_zero.mp enough)]
    exact ⟨[], rfl⟩
  | succ n ih =>
    cases pending with
    | nil => exact ⟨[], rfl⟩
    | cons first rest =>
      obtain ⟨b, inside, ready⟩ :=
        exists_ready known (founded first List.mem_cons_self) first List.mem_cons_self rfl
      rw [pickReady]
      cases found : (first :: rest).find? (isReady needs done) with
      | none => exact absurd ready (List.find?_eq_none.mp found b inside)
      | some a =>
        obtain ⟨fits, before, after, split, others⟩ := List.find?_eq_some_iff_append.mp found
        have erased : (first :: rest).eraseP (isReady needs done) = before ++ after := by
          rw [split, List.eraseP_append_right _ (fun b member => by simpa using others b member),
            List.eraseP_cons_of_pos fits]
        have smaller (c : α) (member : c ∈ before ++ after) : c ∈ first :: rest := by
          rw [split]
          exact List.perm_middle.symm.subset (List.mem_cons_of_mem _ member)
        rw [Option.bind_some, erased]
        have shorter : (before ++ after).length ≤ n := by
          have size := congrArg List.length split
          simp only [List.length_append, List.length_cons] at size enough ⊢
          omega
        have known' : ∀ c ∈ before ++ after, ∀ k ∈ needs c,
            k ∈ key a :: done ∨ k ∈ (before ++ after).map key := by
          intro c member k needed
          rcases known c (smaller c member) k needed with early | listed
          · exact .inl (List.mem_cons_of_mem _ early)
          · rw [split] at listed
            simp only [List.map_append, List.map_cons, List.mem_append, List.mem_cons] at listed ⊢
            tauto
        have founded' : ∀ c ∈ before ++ after, Acc (Needs key needs (before ++ after)) (key c) := by
          intro c member
          refine Subrelation.accessible ?_ (founded c (smaller c member))
          rintro k k' ⟨d, listed, named, needed⟩
          exact ⟨d, smaller d listed, named, needed⟩
        obtain ⟨order, picked⟩ := ih shorter known' founded'
        exact ⟨a :: order, by rw [picked, Option.map_some]⟩

end Picking

section Counting

variable {α κ : Type*} [LinearOrder κ] (key : α → κ) (needs : α → List κ)

/-- How many needs of each key are left, the keys that have none, and those that have been taken. -/
structure Countdown (κ : Type*) [LinearOrder κ] where
  remaining : Std.TreeMap κ ℕ
  ready : List κ
  consumed : List κ

/-- The keys without needs form the first stack, the greatest on top. -/
def Countdown.start (items : List α) : Countdown κ :=
  let remaining := items.foldl (fun m a => m.insert (key a) (needs a).length) ∅
  ⟨remaining, ((remaining.toList.filter (·.2 = 0)).map Prod.fst).reverse, []⟩

/-- One need of an element is met. -/
def Countdown.release (s : Countdown κ) (a : α) : Countdown κ :=
  let count := s.remaining.getD (key a) 0 - 1
  { s with
    remaining := s.remaining.insert (key a) count
    ready := if count = 0 then key a :: s.ready else s.ready }

def Countdown.step (items : List α) (s : Countdown κ) : Option (Countdown κ) :=
  match s.ready with
  | [] => none
  | k :: rest => some ((items.filter (k ∈ needs ·)).foldl (Countdown.release key)
      { s with ready := rest, consumed := k :: s.consumed })

def countdown (items : List α) : Countdown κ :=
  drain (Countdown.step key needs items) items.length (Countdown.start key needs items)

variable {key needs} {items : List α}

def leftOver (needs : α → List κ) (consumed : List κ) (a : α) : ℕ :=
  ((needs a).filter (· ∉ consumed)).length

structure Countdown.Sound (key : α → κ) (needs : α → List κ) (items : List α) (s : Countdown κ) : Prop where
  counts : ∀ a ∈ items, s.remaining[key a]? = some (leftOver needs s.consumed a)
  distinct : (s.consumed ++ s.ready).Nodup
  listed : ∀ k ∈ s.consumed ++ s.ready, k ∈ items.map key
  settled : ∀ a ∈ items, key a ∈ s.consumed ++ s.ready → ∀ k ∈ needs a, k ∈ s.consumed
  founded : ∀ k ∈ s.consumed, Acc (Needs key needs items) k

theorem releases_spec {released : List α} (distinct : (released.map key).Nodup) (s : Countdown κ) :
    (released.foldl (Countdown.release key) s).consumed = s.consumed ∧
    (∀ k, (released.foldl (Countdown.release key) s).remaining[k]? =
      if k ∈ released.map key then some (s.remaining.getD k 0 - 1) else s.remaining[k]?) ∧
    (released.foldl (Countdown.release key) s).ready =
      ((released.filter fun a => s.remaining.getD (key a) 0 - 1 = 0).map key).reverse ++ s.ready := by
  induction released generalizing s with
  | nil => exact ⟨rfl, fun k => by simp, rfl⟩
  | cons a rest ih =>
    rw [List.map_cons, List.nodup_cons] at distinct
    obtain ⟨consumed, remaining, ready⟩ := ih distinct.2 (s.release key a)
    have apart (b : α) (member : b ∈ rest) :
        (s.release key a).remaining.getD (key b) 0 = s.remaining.getD (key b) 0 := by
      have other : key a ≠ key b := fun same => distinct.1 (same ▸ List.mem_map_of_mem member)
      rw [Std.TreeMap.getD_eq_getD_getElem?, Std.TreeMap.getD_eq_getD_getElem?, Countdown.release,
        Lookup.getElem?_insert_ne _ _ other]
    refine ⟨consumed, fun k => ?_, ?_⟩
    · rw [List.foldl_cons, remaining]
      by_cases own : k = key a
      · subst own
        rw [if_neg distinct.1, List.map_cons, if_pos List.mem_cons_self, Countdown.release,
          Lookup.getElem?_insert_self]
      · have other : key a ≠ k := Ne.symm own
        have same : (s.release key a).remaining[k]? = s.remaining[k]? := by
          rw [Countdown.release, Lookup.getElem?_insert_ne _ _ other]
        rw [same, Std.TreeMap.getD_eq_getD_getElem?, same, ← Std.TreeMap.getD_eq_getD_getElem?]
        simp only [List.map_cons, List.mem_cons, own, false_or]
    · rw [List.foldl_cons, ready, List.filter_congr (fun b member => by rw [apart b member])]
      by_cases last : s.remaining.getD (key a) 0 - 1 = 0
      · rw [List.filter_cons_of_pos (by simpa using last), List.map_cons, List.reverse_cons]
        simp only [Countdown.release, if_pos last, List.append_assoc, List.singleton_append]
      · rw [List.filter_cons_of_neg (by simpa using last)]
        simp only [Countdown.release, if_neg last]

theorem counted_spec (distinct : (items.map key).Nodup) (m : Std.TreeMap κ ℕ) :
    (∀ a ∈ items, (items.foldl (fun m a => m.insert (key a) (needs a).length) m)[key a]? =
      some (needs a).length) ∧
    ∀ k ∉ items.map key, (items.foldl (fun m a => m.insert (key a) (needs a).length) m)[k]? = m[k]? := by
  induction items generalizing m with
  | nil => exact ⟨List.forall_mem_nil _, fun _ _ => rfl⟩
  | cons a rest ih =>
    rw [List.map_cons, List.nodup_cons] at distinct
    obtain ⟨found, others⟩ := ih distinct.2 (m.insert (key a) (needs a).length)
    refine ⟨List.forall_mem_cons.mpr ⟨?_, found⟩, fun k absent => ?_⟩
    · rw [List.foldl_cons, others _ distinct.1, Lookup.getElem?_insert_self]
    · rw [List.map_cons, List.mem_cons, not_or] at absent
      rw [List.foldl_cons, others k absent.2, Lookup.getElem?_insert_ne _ _ (Ne.symm absent.1)]

theorem leftOver_nil (a : α) : leftOver needs [] a = (needs a).length := by
  simp [leftOver]

theorem leftOver_eq_zero {consumed : List κ} {a : α} :
    leftOver needs consumed a = 0 ↔ ∀ k ∈ needs a, k ∈ consumed := by
  simp [leftOver, List.filter_eq_nil_iff]

theorem leftOver_cons {consumed : List κ} {k : κ} (fresh : k ∉ consumed) {a : α} (single : (needs a).Nodup) :
    leftOver needs (k :: consumed) a =
      if k ∈ needs a then leftOver needs consumed a - 1 else leftOver needs consumed a := by
  have narrowed : (needs a).filter (· ∉ k :: consumed) = ((needs a).filter (· ∉ consumed)).erase k := by
    rw [(single.filter _).erase_eq_filter, List.filter_filter]
    refine List.filter_congr fun other _ => ?_
    simp only [List.mem_cons, not_or, Bool.decide_and, decide_not]
    rfl
  rw [leftOver, narrowed]
  split_ifs with needed
  · exact List.length_erase_of_mem (List.mem_filter.mpr ⟨needed, decide_eq_true fresh⟩)
  · rw [List.erase_of_not_mem fun member => needed (List.mem_of_mem_filter member)]
    rfl

theorem start_ready {k : κ} (member : k ∈ (Countdown.start key needs items).ready) :
    (Countdown.start key needs items).remaining[k]? = some 0 := by
  simp only [Countdown.start, List.mem_reverse, List.mem_map, List.mem_filter, decide_eq_true_eq] at member
  obtain ⟨⟨k, n⟩, ⟨listed, rfl⟩, rfl⟩ := member
  exact Std.TreeMap.mem_toList_iff_getElem?_eq_some.mp listed

theorem Countdown.Sound.start (distinct : (items.map key).Nodup) :
    (Countdown.start key needs items).Sound key needs items := by
  obtain ⟨found, others⟩ := @counted_spec _ _ _ key needs items distinct ∅
  constructor
  · intro a member
    rw [show (Countdown.start key needs items).consumed = [] from rfl, leftOver_nil]
    exact found a member
  · have keys := (Countdown.start key needs items).remaining.nodup_keys
    rw [← Std.TreeMap.map_fst_toList_eq_keys] at keys
    exact List.nodup_reverse.mpr (keys.sublist (List.filter_sublist.map Prod.fst))
  · intro k member
    by_contra absent
    have none_ := (others k absent).symm.trans (start_ready member)
    simp at none_
  · intro a member settled k needed
    have zero := (found a member).symm.trans (start_ready settled)
    rw [Option.some.injEq, List.length_eq_zero_iff] at zero
    rw [zero] at needed
    exact absurd needed List.not_mem_nil
  · exact List.forall_mem_nil _

theorem Countdown.Sound.step_cases {s s' : Countdown κ} (sound : s.Sound key needs items)
    (distinct : (items.map key).Nodup) (single : ∀ a ∈ items, (needs a).Nodup)
    (step : s.step key needs items = some s') :
    ∃ k rest opened, s.ready = k :: rest ∧ s'.consumed = k :: s.consumed ∧ s'.ready = opened ++ rest ∧
      opened.Nodup ∧
      (∀ j ∈ opened, ∃ a ∈ items, key a = j ∧ k ∈ needs a ∧ leftOver needs (k :: s.consumed) a = 0) ∧
      ∀ a ∈ items, s'.remaining[key a]? = some (leftOver needs (k :: s.consumed) a) := by
  obtain ⟨remaining, ready, consumed⟩ := s
  cases ready with
  | nil => cases step
  | cons k rest =>
    obtain rfl := Option.some.inj step
    have apart : ((items.filter (k ∈ needs ·)).map key).Nodup :=
      distinct.sublist (List.filter_sublist.map key)
    obtain ⟨taken, counts, opened⟩ := releases_spec apart ⟨remaining, rest, k :: consumed⟩
    have fresh : k ∉ consumed := fun member =>
      List.disjoint_of_nodup_append sound.distinct member List.mem_cons_self
    have released (a : α) (member : a ∈ items) :
        key a ∈ (items.filter (k ∈ needs ·)).map key ↔ k ∈ needs a := by
      rw [List.mem_map]
      constructor
      · rintro ⟨b, inside, same⟩
        rw [List.mem_filter, decide_eq_true_eq] at inside
        exact List.inj_on_of_nodup_map distinct inside.1 member same ▸ inside.2
      · exact fun needed => ⟨a, List.mem_filter.mpr ⟨member, decide_eq_true needed⟩, rfl⟩
    refine ⟨k, rest, _, rfl, taken, opened, ?_, ?_, ?_⟩
    · exact List.nodup_reverse.mpr (apart.sublist (List.filter_sublist.map key))
    · intro j opening
      rw [List.mem_reverse, List.mem_map] at opening
      obtain ⟨a, inside, rfl⟩ := opening
      simp only [List.mem_filter, decide_eq_true_eq] at inside
      obtain ⟨⟨listed, needed⟩, last⟩ := inside
      refine ⟨a, listed, rfl, needed, ?_⟩
      rw [leftOver_cons fresh (single a listed), if_pos needed, ← last,
        Std.TreeMap.getD_eq_getD_getElem?, sound.counts a listed, Option.getD_some]
    · intro a member
      rw [counts, leftOver_cons fresh (single a member), Std.TreeMap.getD_eq_getD_getElem?,
        sound.counts a member]
      simp only [released a member, Option.getD_some]
      split_ifs <;> rfl

theorem Countdown.Sound.step {s s' : Countdown κ} (sound : s.Sound key needs items)
    (distinct : (items.map key).Nodup) (single : ∀ a ∈ items, (needs a).Nodup)
    (step : s.step key needs items = some s') :
    s'.Sound key needs items ∧ ∃ k, s'.consumed = k :: s.consumed := by
  obtain ⟨k, rest, opened, stacked, taken, behind, apart, ready, counts⟩ :=
    sound.step_cases distinct single step
  have old := sound.distinct
  have settled := sound.settled
  have listed := sound.listed
  rw [stacked] at old settled listed
  have fresh : k ∉ s.consumed := fun member =>
    List.disjoint_of_nodup_append old member List.mem_cons_self
  have reordered : (k :: s.consumed ++ (opened ++ rest)).Perm (opened ++ (s.consumed ++ k :: rest)) :=
    (List.perm_append_comm_assoc _ _ _).trans (List.perm_middle.symm.append_left _)
  refine ⟨⟨?_, ?_, ?_, ?_, ?_⟩, k, taken⟩
  · rw [taken]
    exact counts
  · rw [taken, behind]
    refine reordered.nodup_iff.mpr (List.nodup_append'.mpr ⟨apart, old, fun j opening known => ?_⟩)
    obtain ⟨a, inside, rfl, needed, -⟩ := ready j opening
    exact fresh (settled a inside known k needed)
  · rw [taken, behind]
    intro j member
    rcases List.mem_append.mp (reordered.subset member) with opening | known
    · obtain ⟨a, inside, rfl, -, -⟩ := ready j opening
      exact List.mem_map_of_mem inside
    · exact listed j known
  · rw [taken, behind]
    intro a inside member j needed
    rcases List.mem_append.mp (reordered.subset member) with opening | known
    · obtain ⟨b, inside', same, -, met⟩ := ready _ opening
      rw [List.inj_on_of_nodup_map distinct inside' inside same] at met
      exact leftOver_eq_zero.mp met j needed
    · exact List.mem_cons_of_mem _ (settled a inside known j needed)
  · rw [taken]
    refine List.forall_mem_cons.mpr ⟨⟨k, ?_⟩, sound.founded⟩
    rintro j ⟨a, inside, rfl, needed⟩
    exact sound.founded j (settled a inside (List.mem_append_right _ List.mem_cons_self) j needed)

theorem countdown_sound (distinct : (items.map key).Nodup) (single : ∀ a ∈ items, (needs a).Nodup) :
    (countdown key needs items).Sound key needs items :=
  drain_invariant (fun _ _ sound step => (sound.step distinct single step).1) _ (.start distinct)

theorem countdown_founded (distinct : (items.map key).Nodup) (single : ∀ a ∈ items, (needs a).Nodup)
    (all : (countdown key needs items).consumed.length = items.length) :
    ∀ a ∈ items, Acc (Needs key needs items) (key a) := by
  have sound := countdown_sound distinct single
  intro a member
  have within : (countdown key needs items).consumed ⊆ items.map key :=
    fun k taken => sound.listed k (List.mem_append_left _ taken)
  have subperm := List.subperm_of_subset (List.nodup_append.mp sound.distinct).1 within
  have perm := subperm.perm_of_length_le (by rw [List.length_map, all])
  exact sound.founded _ (perm.symm.subset (List.mem_map_of_mem member))

end Counting

end Orders
