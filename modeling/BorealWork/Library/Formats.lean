/- Serialisation formats: every value has a text that is read back as the same value. -/
import BorealWork.Library.Tables

namespace Formats
open Encodable

/-- A format keeps its round trip as a field; nothing else is known about its texts. -/
structure Format (α : Type) where
  toVec : α → List UInt8
  fromSlice : List UInt8 → Except String α
  fromSlice_toVec : ∀ a, fromSlice (toVec a) = .ok a

instance encodableChar : Encodable Char := Encodable.ofLeftInjection Char.toNat (fun n => some (Char.ofNat n))
  fun c => congrArg some c.ofNat_toNat

instance encodableString : Encodable String := Encodable.ofLeftInjection String.toList
  (fun l => some (String.ofList l)) fun _ => congrArg some String.ofList_toList

instance encodableUInt64 : Encodable UInt64 := Encodable.ofLeftInjection UInt64.toNat
  (fun n => some (UInt64.ofNat n)) fun _ => congrArg some UInt64.ofNat_toNat

theorem transCmp_key {κ : Type} [LinearOrder κ] : Std.TransCmp (compare : κ → κ → Ordering) :=
  inferInstance

attribute [local instance] transCmp_key

/-- The rows of a table, in the order of their keys, stand for the table. -/
instance encodableTable {κ ν : Type} [LinearOrder κ] [Encodable κ] [Encodable ν] :
    Encodable (Std.ExtTreeMap κ ν) :=
  Encodable.ofLeftInjection Std.ExtTreeMap.toList
    (fun l => (Tables.load Prod.fst Prod.snd (fun _ => .ok ()) () l ∅).toOption) fun m => by
      have loaded : Tables.load Prod.fst Prod.snd (fun _ => .ok ()) () m.toList ∅ = .ok m :=
        Tables.load_rows (fun _ _ => rfl) (by rw [List.map_id'])
      rw [loaded]
      rfl

section Favouring

variable {α : Type} [Encodable α]

/-- Every countable type has a format, and one in which a given value has the empty text. -/
def Format.favouring (favourite : α) : Format α where
  toVec a := List.replicate (Equiv.swap 0 (encode favourite) (encode a)) 0
  fromSlice bytes := match decode (Equiv.swap 0 (encode favourite) bytes.length) with
    | some a => .ok a
    | none => .error "unknown text"
  fromSlice_toVec a := by
    rw [List.length_replicate, Equiv.swap_apply_self, encodek]

theorem Format.favouring_toVec (favourite : α) : (Format.favouring favourite).toVec favourite = [] := by
  simp [Format.favouring]

end Favouring

end Formats
