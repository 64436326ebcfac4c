import Mathlib.Data.List.Flatten
import Mathlib.Order.Basic
import Mathlib.Data.Nat.Find

/-!
# A value handed out in pieces

Every piece of a value has a room; a piece takes what its room holds of the rest.
A room that is negative holds nothing.
-/

namespace RedshiftOdbc.Pieces

variable {α : Type*} (room : Nat → Int)

def start : Nat → Nat
  | 0 => 0
  | index + 1 => start index + (room index).toNat

def piece (value : List α) (index : Nat) : List α :=
  (value.drop (start room index)).take (room index).toNat

/-- Some piece reaches the end of a value of this length. -/
def Reaches (length : Nat) : Prop := ∃ index, (length : Int) ≤ start room index + room index

/-- The first pieces are the front of the value. -/
theorem pieces_eq_take (value : List α) (count : Nat) :
    (List.range count).flatMap (piece room value) = value.take (start room count) := by
  induction count with
  | zero => rfl
  | succ count ih =>
      rw [List.range_succ, List.flatMap_append, ih, List.flatMap_singleton, piece, start,
        List.take_add]

/-- There is a first piece that reaches the end. -/
theorem Reaches.first {length : Nat} (reaches : Reaches room length) :
    ∃ index, (length : Int) ≤ start room index + room index ∧
      ∀ earlier < index, start room earlier + room earlier < length := by
  classical
  refine ⟨Nat.find reaches, Nat.find_spec reaches, ?_⟩
  intro earlier before
  exact Int.not_le.mp (Nat.find_min reaches before)

/-- Rooms that are never empty reach every end. -/
theorem reaches_of_pos (positive : ∀ index, 1 ≤ room index) (length : Nat) :
    Reaches room length := by
  have enough : ∀ index, index ≤ start room index := by
    intro index
    induction index with
    | zero => exact Nat.zero_le _
    | succ index ih =>
        have here := positive index
        rw [start]
        omega
  have here := enough length
  have more := positive length
  exact ⟨length, by omega⟩

end RedshiftOdbc.Pieces
