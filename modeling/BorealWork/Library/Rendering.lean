/- Derived debug text as a uniquely readable code.
Every renderer below is prefix free, so a text determines the value it was made from. -/
import Mathlib

namespace Rendering

variable {α β : Type*}

def PrefixFree (f : α → List Char) : Prop := ∀ ⦃a b s t⦄, f a ++ s = f b ++ t → a = b ∧ s = t

variable {f : α → List Char}

theorem PrefixFree.injective (hf : PrefixFree f) : Function.Injective f := by
  intro a b h
  exact (hf (s := []) (t := []) (congrArg (· ++ []) h)).1

theorem PrefixFree.comp {f : β → List Char} (hf : PrefixFree f) {g : α → β}
    (hg : Function.Injective g) : PrefixFree fun a => f (g a) := by
  intro a b s t h
  obtain ⟨same, rest⟩ := hf h
  exact ⟨hg same, rest⟩

theorem delimited {P : Char → Prop} {c : Char} (hc : ¬ P c) {l l' s t : List Char}
    (hl : ∀ x ∈ l, P x) (hl' : ∀ x ∈ l', P x) (h : l ++ c :: s = l' ++ c :: t) : l = l' ∧ s = t := by
  induction l generalizing l' with
  | nil =>
    cases l' with
    | nil => exact ⟨rfl, (List.cons.inj h).2⟩
    | cons x l' => exact absurd ((List.cons.inj h).1 ▸ hl' x List.mem_cons_self) hc
  | cons x l ih =>
    cases l' with
    | nil => exact absurd ((List.cons.inj h).1 ▸ hl x List.mem_cons_self) hc
    | cons y l' =>
      obtain ⟨rfl, tail⟩ := List.cons.inj h
      obtain ⟨rfl, rest⟩ := ih (fun z hz => hl z (List.mem_cons_of_mem _ hz))
        (fun z hz => hl' z (List.mem_cons_of_mem _ hz)) tail
      exact ⟨rfl, rest⟩

theorem PrefixFree.repeated (hf : PrefixFree f) {c : Char}
    (fresh : ∀ a s t, f a ++ s ≠ c :: t) {l l' : List α} {s t : List Char}
    (h : l.flatMap f ++ c :: s = l'.flatMap f ++ c :: t) : l = l' ∧ s = t := by
  induction l generalizing l' with
  | nil =>
    cases l' with
    | nil => exact ⟨rfl, (List.cons.inj h).2⟩
    | cons b l' =>
      rw [List.flatMap_cons, List.append_assoc] at h
      exact absurd h.symm (fresh b _ _)
  | cons a l ih =>
    cases l' with
    | nil =>
      rw [List.flatMap_cons, List.append_assoc] at h
      exact absurd h (fresh a _ _)
    | cons b l' =>
      rw [List.flatMap_cons, List.flatMap_cons, List.append_assoc, List.append_assoc] at h
      obtain ⟨rfl, tail⟩ := hf h
      obtain ⟨rfl, rest⟩ := ih tail
      exact ⟨rfl, rest⟩

theorem PrefixFree.flatMap (hf : PrefixFree f) {l l' : List α}
    (size : l.length = l'.length) (h : l.flatMap f = l'.flatMap f) : l = l' := by
  induction l generalizing l' with
  | nil => exact (List.length_eq_zero_iff.mp size.symm).symm
  | cons a l ih =>
    cases l' with
    | nil => exact absurd size (Nat.succ_ne_zero _)
    | cons b l' =>
      rw [List.flatMap_cons, List.flatMap_cons] at h
      obtain ⟨rfl, tail⟩ := hf h
      rw [ih (Nat.succ.inj size) tail]

theorem digitChar_injOn : Set.InjOn Nat.digitChar {d | d < 16} := by
  intro a ha b hb h
  simp only [Set.mem_ofPred_eq] at ha hb
  interval_cases a <;> interval_cases b <;> first | rfl | exact absurd h (by decide)

theorem toDigits_injective {b : ℕ} (low : 1 < b) (high : b ≤ 16) : Function.Injective (Nat.toDigits b) := by
  intro n
  induction n using Nat.strong_induction_on with
  | _ n ih =>
    intro m h
    have digit {k : ℕ} : k % b < 16 := lt_of_lt_of_le (Nat.mod_lt k (by omega)) high
    rcases lt_or_ge n b with hn | hn <;> rcases lt_or_ge m b with hm | hm
    · rw [Nat.toDigits_of_lt_base hn, Nat.toDigits_of_lt_base hm] at h
      have same : n.digitChar = m.digitChar := by simpa using h
      exact digitChar_injOn (by simp; omega) (by simp; omega) same
    · rw [Nat.toDigits_of_lt_base hn, Nat.toDigits_of_base_le low hm] at h
      have sizes := congrArg List.length h
      have positive := Nat.length_toDigits_pos (b := b) (n := m / b)
      simp only [List.length_append, List.length_singleton] at sizes
      omega
    · rw [Nat.toDigits_of_base_le low hn, Nat.toDigits_of_lt_base hm] at h
      have sizes := congrArg List.length h
      have positive := Nat.length_toDigits_pos (b := b) (n := n / b)
      simp only [List.length_append, List.length_singleton] at sizes
      omega
    · rw [Nat.toDigits_of_base_le low hn, Nat.toDigits_of_base_le low hm] at h
      obtain ⟨front, last⟩ := List.append_inj' h rfl
      have quotient := ih (n / b) (Nat.div_lt_self (by omega) low) front
      have residue : n % b = m % b := digitChar_injOn digit digit (by simpa using last)
      rw [← Nat.div_add_mod n b, ← Nat.div_add_mod m b, quotient, residue]

theorem toDigits_alphanum {b : ℕ} (low : 1 < b) (high : b ≤ 16) (n : ℕ) :
    ∀ c ∈ Nat.toDigits b n, c.isAlphanum = true := by
  have digit {d : ℕ} (hd : d < 16) : d.digitChar.isAlphanum = true := by
    interval_cases d <;> decide
  induction n using Nat.strong_induction_on with
  | _ n ih =>
    intro c hc
    rcases lt_or_ge n b with hn | hn
    · rw [Nat.toDigits_of_lt_base hn, List.mem_singleton] at hc
      exact hc ▸ digit (by omega)
    · rw [Nat.toDigits_of_base_le low hn, List.mem_append, List.mem_singleton] at hc
      rcases hc with front | rfl
      · exact ih (n / b) (Nat.div_lt_self (by omega) low) c front
      · exact digit (lt_of_lt_of_le (Nat.mod_lt n (by omega)) high)

theorem toDigits_delimited {b : ℕ} (low : 1 < b) (high : b ≤ 16) {c : Char}
    (hc : ¬ c.isAlphanum = true) {n m : ℕ} {s t : List Char}
    (h : Nat.toDigits b n ++ c :: s = Nat.toDigits b m ++ c :: t) : n = m ∧ s = t := by
  obtain ⟨same, rest⟩ := delimited (P := fun x => x.isAlphanum = true) hc
    (toDigits_alphanum low high n) (toDigits_alphanum low high m) h
  exact ⟨toDigits_injective low high same, rest⟩

/-- The letter of a two-character escape. A single quote is left alone inside a string. -/
def shortEscape (c : Char) : Option Char :=
  if c = '\x00' then some '0'
  else if c = '\t' then some 't'
  else if c = '\r' then some 'r'
  else if c = '\n' then some 'n'
  else if c = '\\' then some '\\'
  else if c = '\x22' then some '\x22'
  else none

/-- One character of a quoted debug string. `unprintable` stands for the Unicode tables that
select the characters written as code points. -/
def escapeChar (unprintable : Char → Bool) (c : Char) : List Char :=
  match shortEscape c with
  | some letter => ['\\', letter]
  | none =>
    if unprintable c then '\\' :: 'u' :: '\x7b' :: (Nat.toDigits 16 c.toNat ++ ['\x7d'])
    else [c]

def shortMeaning (letter : Char) : Char :=
  if letter = '0' then '\x00'
  else if letter = 't' then '\t'
  else if letter = 'r' then '\r'
  else if letter = 'n' then '\n'
  else letter

theorem shortEscape_some {c letter : Char} (h : shortEscape c = some letter) :
    letter ≠ 'u' ∧ shortMeaning letter = c := by
  unfold shortEscape at h
  split_ifs at h with h0 h1 h2 h3 h4 h5 <;> cases h <;> subst_vars <;> decide

theorem shortEscape_injective {a b letter : Char} (ha : shortEscape a = some letter)
    (hb : shortEscape b = some letter) : a = b :=
  (shortEscape_some ha).2.symm.trans (shortEscape_some hb).2

theorem shortEscape_none {c : Char} (h : shortEscape c = none) : c ≠ '\\' ∧ c ≠ '\x22' := by
  constructor <;> (rintro rfl; revert h; decide)

theorem escapeChar_prefixFree (unprintable : Char → Bool) : PrefixFree (escapeChar unprintable) := by
  intro a b s t h
  unfold escapeChar at h
  cases ha : shortEscape a with
  | some x =>
    cases hb : shortEscape b with
    | some y =>
      simp only [ha, hb, List.cons_append, List.nil_append, List.cons.injEq, true_and] at h
      obtain ⟨rfl, rest⟩ := h
      exact ⟨shortEscape_injective ha hb, rest⟩
    | none =>
      have letter := (shortEscape_some ha).1
      have plain := (shortEscape_none hb).1
      simp only [ha, hb] at h
      split_ifs at h
      · simp only [List.cons_append, List.cons.injEq, true_and] at h
        exact absurd h.1 letter
      · exact absurd (List.cons.inj h).1.symm plain
  | none =>
    have plain := (shortEscape_none ha).1
    cases hb : shortEscape b with
    | some y =>
      have letter := (shortEscape_some hb).1
      simp only [ha, hb] at h
      split_ifs at h
      · simp only [List.cons_append, List.cons.injEq, true_and] at h
        exact absurd h.1.symm letter
      · exact absurd (List.cons.inj h).1 plain
    | none =>
      have plain' := (shortEscape_none hb).1
      simp only [ha, hb] at h
      split_ifs at h
      · simp only [List.cons_append, List.append_assoc, List.nil_append, List.cons.injEq, true_and] at h
        obtain ⟨code, rest⟩ := toDigits_delimited (by decide) (by decide) (by decide) h
        exact ⟨Char.toNat_inj.mp code, rest⟩
      · exact absurd (List.cons.inj h).1.symm plain'
      · exact absurd (List.cons.inj h).1 plain
      · exact List.cons.inj h

theorem escapeChar_ne_quote (unprintable : Char → Bool) (c : Char) (s t : List Char) :
    escapeChar unprintable c ++ s ≠ '\x22' :: t := by
  intro h
  unfold escapeChar at h
  cases hc : shortEscape c with
  | some x =>
    simp only [hc] at h
    exact absurd (List.cons.inj h).1 (by decide)
  | none =>
    have plain := (shortEscape_none hc).2
    simp only [hc] at h
    split_ifs at h
    · exact absurd (List.cons.inj h).1 (by decide)
    · exact plain (List.cons.inj h).1

def debugString (unprintable : Char → Bool) (s : String) : List Char :=
  '\x22' :: s.toList.flatMap (escapeChar unprintable) ++ ['\x22']

theorem debugString_prefixFree (unprintable : Char → Bool) : PrefixFree (debugString unprintable) := by
  intro a b s t h
  simp only [debugString, List.cons_append, List.append_assoc, List.nil_append,
    List.cons.injEq, true_and] at h
  obtain ⟨same, rest⟩ := (escapeChar_prefixFree unprintable).repeated
    (escapeChar_ne_quote unprintable) h
  exact ⟨String.toList_injective same, rest⟩

/-- `Name(inner)`, the derived text of a one-field tuple. -/
def debugTuple (name : String) (inner : List Char) : List Char :=
  name.toList ++ '(' :: inner ++ [')']

def debugNumber (name : String) (n : ℕ) : List Char := debugTuple name (Nat.toDigits 10 n)

theorem debugTuple_prefixFree (name : String) (hf : PrefixFree f) :
    PrefixFree fun a => debugTuple name (f a) := by
  intro a b s t h
  simp only [debugTuple, List.cons_append, List.append_assoc, List.nil_append,
    List.append_cancel_left_eq, List.cons.injEq, true_and] at h
  obtain ⟨rfl, rest⟩ := hf h
  exact ⟨rfl, (List.cons.inj rest).2⟩

theorem debugNumber_prefixFree (name : String) : PrefixFree (debugNumber name) := by
  intro a b s t h
  simp only [debugNumber, debugTuple, List.cons_append, List.append_assoc, List.nil_append,
    List.append_cancel_left_eq, List.cons.injEq, true_and] at h
  exact toDigits_delimited (by decide) (by decide) (by decide) h

def debugFields : List (String × List Char) → List Char
  | [] => []
  | [(field, value)] => field.toList ++ [':', ' '] ++ value
  | (field, value) :: rest => field.toList ++ [':', ' '] ++ value ++ [',', ' '] ++ debugFields rest

/-- `Name { field: value, .. }`, the derived text of a record. -/
def debugStruct (name : String) (fields : List (String × List Char)) : List Char :=
  name.toList ++ [' ', '\x7b', ' '] ++ debugFields fields ++ [' ', '\x7d']

def debugOption (inner : α → List Char) : Option α → List Char
  | none => "None".toList
  | some a => debugTuple "Some" (inner a)

theorem debugOption_prefixFree (hf : PrefixFree f) : PrefixFree (debugOption f) := by
  intro a b s t h
  cases a with
  | none =>
    cases b with
    | none => exact ⟨rfl, List.append_cancel_left h⟩
    | some b => exact absurd (List.cons.inj h).1 (by decide)
  | some a =>
    cases b with
    | none => exact absurd (List.cons.inj h).1 (by decide)
    | some b =>
      obtain ⟨rfl, rest⟩ := debugTuple_prefixFree "Some" hf h
      exact ⟨rfl, rest⟩

end Rendering
