/- Readers that take bytes off the front of a text: what more bytes behind it, or fewer, change. -/
import BorealWork.Library.Drain

namespace Readers
open Drain

variable {ε α β : Type}

/-- How much has been read, and what is left. -/
structure Cursor where
  position : ℕ
  rest : List UInt8
  deriving DecidableEq

abbrev Reader (ε : Type) : Type → Type := StateT Cursor (Except ε)

def Cursor.start (bytes : List UInt8) : Cursor := ⟨0, bytes⟩

/-- Positions are kept in 64 bits. -/
def take (overflow truncated : ε) (count : ℕ) : Reader ε (List UInt8) := fun cursor =>
  if 2 ^ 64 ≤ cursor.position + count then .error overflow
  else if cursor.rest.length < count then .error truncated
  else .ok (cursor.rest.take count, ⟨cursor.position + count, cursor.rest.drop count⟩)

/-- A check or a conversion of what has been read. -/
def settle (x : Except ε α) : Reader ε α := fun cursor => x.map fun a => (a, cursor)

theorem bind_run {r : Reader ε α} {f : α → Reader ε β} {cursor : Cursor} {done : β × Cursor} :
    (r >>= f) cursor = .ok done ↔ ∃ a next, r cursor = .ok (a, next) ∧ f a next = .ok done := by
  change (r cursor >>= fun result => f result.1 result.2) = .ok done ↔ _
  rw [bind_eq_ok]
  constructor
  · rintro ⟨⟨a, next⟩, first, later⟩
    exact ⟨a, next, first, later⟩
  · rintro ⟨a, next, first, later⟩
    exact ⟨(a, next), first, later⟩

theorem pure_run {a : α} {cursor : Cursor} {done : α × Cursor} :
    (pure a : Reader ε α) cursor = .ok done ↔ (a, cursor) = done := by
  change Except.ok (a, cursor) = .ok done ↔ _
  exact ⟨Except.ok.inj, congrArg Except.ok⟩

theorem settle_run {x : Except ε α} {cursor next : Cursor} {a : α} :
    settle x cursor = .ok (a, next) ↔ x = .ok a ∧ cursor = next := by
  rw [settle, map_eq_ok]
  constructor
  · rintro ⟨b, settled, same⟩
    obtain ⟨rfl, rfl⟩ := Prod.mk.inj same
    exact ⟨settled, rfl⟩
  · rintro ⟨settled, rfl⟩
    exact ⟨a, settled, rfl⟩

theorem take_append {overflow truncated : ε} {count position : ℕ} {bytes rest : List UInt8}
    (length : bytes.length = count) (fits : position + count < 2 ^ 64) :
    take overflow truncated count ⟨position, bytes ++ rest⟩ =
      .ok (bytes, ⟨position + count, rest⟩) := by
  subst length
  rw [take, if_neg (not_le.mpr fits), if_neg, List.take_left, List.drop_left]
  rw [List.length_append]
  omega

/-- A reader that succeeds does the same when more bytes stand behind. -/
def Steady (r : Reader ε α) : Prop :=
  ∀ cursor a next, r cursor = .ok (a, next) →
    ∀ more, r ⟨cursor.position, cursor.rest ++ more⟩ = .ok (a, ⟨next.position, next.rest ++ more⟩)

theorem steady_pure (a : α) : Steady (pure a : Reader ε α) := by
  intro cursor b next read more
  obtain ⟨rfl, rfl⟩ := Prod.mk.inj (pure_run.mp read)
  rfl

theorem steady_settle (x : Except ε α) : Steady (settle x) := by
  intro cursor a next read more
  obtain ⟨settled, rfl⟩ := settle_run.mp read
  exact settle_run.mpr ⟨settled, rfl⟩

theorem Steady.bind {r : Reader ε α} {f : α → Reader ε β} (first : Steady r)
    (later : ∀ a, Steady (f a)) : Steady (r >>= f) := by
  intro cursor b last read more
  obtain ⟨a, next, taken, done⟩ := bind_run.mp read
  exact bind_run.mpr ⟨a, _, first _ _ _ taken more, later a _ _ _ done more⟩

theorem steady_take (overflow truncated : ε) (count : ℕ) : Steady (take overflow truncated count) := by
  intro cursor bytes next read more
  rw [take] at read
  split_ifs at read with wide short
  obtain ⟨rfl, rfl⟩ := Prod.mk.inj (Except.ok.inj read)
  have enough : count ≤ cursor.rest.length := not_lt.mp short
  have still : ¬ (cursor.rest ++ more).length < count := by
    rw [List.length_append]
    omega
  rw [take, if_neg wide, if_neg still, List.take_append_of_le_length enough,
    List.drop_append_of_le_length enough]

theorem Steady.shorter {r : Reader ε α} (steady : Steady r) {bytes missing : List UInt8} {a : α}
    {next : Cursor} (whole : r (.start (bytes ++ missing)) = .ok (a, next)) (used : next.rest = [])
    (some_ : missing ≠ []) : ∃ error, r (.start bytes) = .error error := by
  cases read : r (.start bytes) with
  | error error => exact ⟨error, rfl⟩
  | ok result =>
    have longer := steady _ _ _ read missing
    have same := Prod.mk.inj (Except.ok.inj (longer.symm.trans whole))
    rw [← same.2] at used
    exact absurd (List.append_eq_nil_iff.mp used).2 some_

theorem Steady.longer {r : Reader ε α} (steady : Steady r) {bytes : List UInt8} {a : α}
    {next : Cursor} (whole : r (.start bytes) = .ok (a, next)) (used : next.rest = [])
    (more : List UInt8) : r (.start (bytes ++ more)) = .ok (a, ⟨next.position, more⟩) := by
  have longer := steady _ _ _ whole more
  rw [used] at longer
  exact longer

end Readers
