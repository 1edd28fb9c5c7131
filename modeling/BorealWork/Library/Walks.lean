/- Walks, cycles and distances over a family of arcs with given endpoints.
Nothing here fixes a representation: arcs are any type, selected by a predicate. -/
import Mathlib

namespace Walks
open Relation

variable {V E I : Type*} (src dst : E → V)

def Step (p : E → Prop) (a b : V) : Prop := ∃ e, p e ∧ src e = a ∧ dst e = b

def Acyclic (p : E → Prop) : Prop := ∀ a, ¬ TransGen (Step src dst p) a a

variable {src dst}

theorem Step.mono {p q : E → Prop} (h : ∀ e, p e → q e) {a b : V} (s : Step src dst p a b) :
    Step src dst q a b := by
  obtain ⟨e, he, ha, hb⟩ := s
  exact ⟨e, h e he, ha, hb⟩

theorem Acyclic.mono {p q : E → Prop} (h : ∀ e, p e → q e) (hq : Acyclic src dst q) :
    Acyclic src dst p := fun a cycle => hq a (TransGen.mono (fun _ _ => Step.mono h) a a cycle)

theorem acyclic_congr {F : Type*} {src' dst' : F → V} {p : E → Prop} {q : F → Prop}
    (h : ∀ a b, Step src dst p a b ↔ Step src' dst' q a b) : Acyclic src dst p ↔ Acyclic src' dst' q := by
  have same : Step src dst p = Step src' dst' q := by
    funext a b
    exact propext (h a b)
  simp only [Acyclic, same]

theorem mem_of_reflTransGen {r : V → V → Prop} {S : Set V}
    (closed : ∀ a ∈ S, ∀ b, r a b → b ∈ S) {a b : V} (ha : a ∈ S) (h : ReflTransGen r a b) : b ∈ S := by
  induction h with
  | refl => exact ha
  | tail _ step ih => exact closed _ ih _ step

theorem not_on_cycle {r : V → V → Prop} {S : Set V} (closed : ∀ a ∈ S, ∀ b, r a b → b ∈ S)
    {c : V} (outside : c ∉ S) (successors : ∀ b, r c b → b ∈ S) : ¬ TransGen r c c := by
  intro cycle
  obtain ⟨b, step, back⟩ := TransGen.head'_iff.mp cycle
  exact outside (mem_of_reflTransGen closed (successors b step) back)

theorem acyclic_iff_arc {p : E → Prop} :
    Acyclic src dst p ↔ ∀ e, p e → ¬ ReflTransGen (Step src dst p) (dst e) (src e) := by
  constructor
  · intro h e he back
    exact h (src e) (TransGen.head' ⟨e, he, rfl, rfl⟩ back)
  · intro h a cycle
    obtain ⟨b, ⟨e, he, rfl, rfl⟩, back⟩ := TransGen.head'_iff.mp cycle
    exact h e he back

theorem walk_split {p : E → Prop} {e : E} {a b : V}
    (h : ReflTransGen (Step src dst fun f => p f ∨ f = e) a b) :
    ReflTransGen (Step src dst p) a b ∨
      (ReflTransGen (Step src dst fun f => p f ∨ f = e) a (src e) ∧
        ReflTransGen (Step src dst fun f => p f ∨ f = e) (dst e) b) := by
  induction h with
  | refl => exact .inl .refl
  | tail walk step ih =>
    obtain ⟨f, hf, rfl, rfl⟩ := step
    rcases hf with old | rfl
    · rcases ih with avoids | ⟨first, second⟩
      · exact .inl (avoids.tail ⟨f, old, rfl, rfl⟩)
      · exact .inr ⟨first, second.tail ⟨f, .inl old, rfl, rfl⟩⟩
    · exact .inr ⟨walk, .refl⟩

theorem acyclic_insert {p : E → Prop} {e : E} :
    Acyclic src dst (fun f => p f ∨ f = e) ↔
      Acyclic src dst p ∧
        ¬ ReflTransGen (Step src dst fun f => p f ∨ f = e) (dst e) (src e) := by
  constructor
  · intro h
    exact ⟨h.mono fun _ => .inl, acyclic_iff_arc.mp h e (.inr rfl)⟩
  · rintro ⟨old, fresh⟩ a cycle
    obtain ⟨b, ⟨f, hf, rfl, rfl⟩, back⟩ := TransGen.head'_iff.mp cycle
    rcases hf with hf | rfl
    · rcases walk_split back with avoids | ⟨first, second⟩
      · exact acyclic_iff_arc.mp old f hf avoids
      · exact fresh (second.trans (ReflTransGen.head ⟨f, .inl hf, rfl, rfl⟩ first))
    · exact fresh back

structure Trail (src dst : E → V) (p : E → Prop) (tag : E → I) (nodes : List V)
    (tags : List I) : Prop where
  length : nodes.length = tags.length + 1
  arc : ∀ k i, tags[k]? = some i →
    ∃ e, p e ∧ tag e = i ∧ nodes[k]? = some (src e) ∧ nodes[k + 1]? = some (dst e)

theorem Trail.single (p : E → Prop) (tag : E → I) (v : V) : Trail src dst p tag [v] [] :=
  ⟨rfl, fun k i h => by simp at h⟩

theorem Trail.push {p : E → Prop} {tag : E → I} {nodes : List V} {tags : List I}
    (h : Trail src dst p tag nodes tags) {e : E} (he : p e) (last : nodes.getLast? = some (src e)) :
    Trail src dst p tag (nodes ++ [dst e]) (tags ++ [tag e]) := by
  refine ⟨by simp [h.length], ?_⟩
  intro k i hk
  rcases Nat.lt_trichotomy k tags.length with old | rfl | past
  · rw [List.getElem?_append_left old] at hk
    obtain ⟨f, hf, tagged, source, target⟩ := h.arc k i hk
    have bound := h.length
    refine ⟨f, hf, tagged, ?_, ?_⟩
    · rwa [List.getElem?_append_left (by omega)]
    · rwa [List.getElem?_append_left (by omega)]
  · have named : tag e = i := by simpa using hk
    refine ⟨e, he, named, ?_, ?_⟩
    · rw [List.getElem?_append_left (by have := h.length; omega)]
      rw [List.getLast?_eq_getElem?, h.length] at last
      simpa using last
    · rw [← h.length]
      simp
  · rw [List.getElem?_eq_none (by simp; omega)] at hk
    cases hk

theorem Trail.drop {p : E → Prop} {tag : E → I} {nodes : List V} {tags : List I}
    (h : Trail src dst p tag nodes tags) {k : ℕ} (hk : k < nodes.length) :
    Trail src dst p tag (nodes.drop k) (tags.drop k) := by
  refine ⟨?_, ?_⟩
  · have := h.length
    simp only [List.length_drop]
    omega
  · intro j i hj
    rw [List.getElem?_drop] at hj
    obtain ⟨e, he, tagged, source, target⟩ := h.arc (k + j) i hj
    exact ⟨e, he, tagged, by rwa [List.getElem?_drop],
      by rwa [List.getElem?_drop, ← Nat.add_assoc]⟩

theorem Trail.transGen {p : E → Prop} {tag : E → I} {nodes : List V} {tags : List I}
    (h : Trail src dst p tag nodes tags) {a b : V} (first : nodes[0]? = some a) {k : ℕ}
    (later : nodes[k + 1]? = some b) : TransGen (Step src dst p) a b := by
  have bound : k < tags.length := by
    have inside := (List.getElem?_eq_some_iff.mp later).1
    have := h.length
    omega
  obtain ⟨e, he, _, source, target⟩ := h.arc k _ (List.getElem?_eq_getElem bound)
  have hb : dst e = b := Option.some.inj (target.symm.trans later)
  have last : Step src dst p (src e) b := ⟨e, he, rfl, hb⟩
  cases k with
  | zero =>
    have ha : src e = a := Option.some.inj (source.symm.trans first)
    exact .single (ha ▸ last)
  | succ k => exact (h.transGen first source).tail last
  termination_by k

/-- `Reach seed r n v`: some seed reaches `v` in exactly `n` steps of `r`. -/
inductive Reach (seed : V → Prop) (r : V → V → Prop) : ℕ → V → Prop
  | seed {v} : seed v → Reach seed r 0 v
  | step {n a b} : Reach seed r n a → r a b → Reach seed r (n + 1) b

theorem Reach.mono {seed seed' : V → Prop} {r r' : V → V → Prop} (hs : ∀ v, seed v → seed' v)
    (hr : ∀ a b, r a b → r' a b) {n : ℕ} {v : V} (h : Reach seed r n v) : Reach seed' r' n v := by
  induction h with
  | seed start => exact .seed (hs _ start)
  | step _ move ih => exact .step ih (hr _ _ move)

theorem Reach.length_le {seed : V → Prop} {p : E → Prop} {arcs : List E} (all : ∀ e, p e → e ∈ arcs)
    (acyclic : Acyclic src dst p) {n : ℕ} {v : V} (walk : Reach seed (Step src dst p) n v) :
    n ≤ arcs.length := by
  classical
  let behind (v : V) : Finset E :=
    arcs.toFinset.filter fun e => p e ∧ ReflTransGen (Step src dst p) (dst e) v
  have counted : n ≤ (behind v).card := by
    induction walk with
    | seed => exact Nat.zero_le _
    | @step n a b _ move ih =>
      obtain ⟨e, he, rfl, rfl⟩ := move
      have passed : e ∈ behind (dst e) :=
        Finset.mem_filter.mpr ⟨List.mem_toFinset.mpr (all e he), he, .refl⟩
      have ahead : e ∉ behind (src e) := fun member =>
        acyclic_iff_arc.mp acyclic e he (Finset.mem_filter.mp member).2.2
      have kept : behind (src e) ⊆ behind (dst e) := by
        intro f member
        obtain ⟨known, hf, back⟩ := Finset.mem_filter.mp member
        exact Finset.mem_filter.mpr ⟨known, hf, back.tail ⟨e, he, rfl, rfl⟩⟩
      have grows : (behind (src e)).card < (behind (dst e)).card :=
        Finset.card_lt_card ⟨kept, fun all => ahead (all passed)⟩
      omega
  calc n ≤ (behind v).card := counted
    _ ≤ arcs.toFinset.card := Finset.card_filter_le _ _
    _ ≤ arcs.length := List.toFinset_card_le arcs

theorem label_isLeast {seed : V → Prop} {r : V → V → Prop} {label : V → Option ℕ} {base : ℕ}
    (realised : ∀ v d, label v = some d → ∃ n, d = base + n ∧ Reach seed r n v)
    (seeded : ∀ v, seed v → ∃ d ≤ base, label v = some d)
    (relaxed : ∀ a b d, label a = some d → r a b → ∃ d' ≤ d + 1, label b = some d')
    {v : V} {d : ℕ} (h : label v = some d) : IsLeast {m | ∃ n, m = base + n ∧ Reach seed r n v} d := by
  refine ⟨realised v d h, ?_⟩
  rintro m ⟨n, rfl, walk⟩
  have covered : ∃ d' ≤ base + n, label v = some d' := by
    clear h
    induction walk with
    | seed start => exact seeded _ start
    | step _ move ih =>
      obtain ⟨d₁, low, labelled⟩ := ih
      obtain ⟨d₂, next, found⟩ := relaxed _ _ _ labelled move
      exact ⟨d₂, by omega, found⟩
  obtain ⟨d', low, same⟩ := covered
  have : d = d' := Option.some.inj (h.symm.trans same)
  omega

theorem label_covers {seed : V → Prop} {r : V → V → Prop} {label : V → Option ℕ}
    (seeded : ∀ v, seed v → (label v).isSome) (relaxed : ∀ a b, (label a).isSome → r a b → (label b).isSome)
    {n : ℕ} {v : V} (walk : Reach seed r n v) : (label v).isSome := by
  induction walk with
  | seed start => exact seeded _ start
  | step _ move ih => exact relaxed _ _ ih move

end Walks
