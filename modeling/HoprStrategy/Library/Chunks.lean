import Mathlib.Data.List.Basic

/-!
# Chunks of a list

Consecutive pieces of a given size, the last of which may be shorter.
-/

namespace HoprStrategy.Library

variable {α : Type}

/-- The items in pieces of `size`, which is positive. -/
def chunks (size : ℕ) (items : List α) : List (List α) :=
  (List.toChunksAux (size - 1) items 0).2

theorem toChunksAux_flatten (size : ℕ) (items : List α) (room : ℕ) :
    (List.toChunksAux size items room).1 ++
      (List.toChunksAux size items room).2.flatten = items := by
  induction items generalizing room with
  | nil => rfl
  | cons item rest ih =>
      cases room with
      | zero => exact congrArg (item :: ·) (ih size)
      | succ room => exact congrArg (item :: ·) (ih room)

theorem toChunksAux_fst_zero (size : ℕ) (items : List α) :
    (List.toChunksAux size items 0).1 = [] := by
  cases items <;> rfl

/-- Nothing is lost, repeated or moved. -/
@[simp] theorem chunks_flatten (size : ℕ) (items : List α) :
    (chunks size items).flatten = items := by
  have h := toChunksAux_flatten (size - 1) items 0
  rwa [toChunksAux_fst_zero, List.nil_append] at h

end HoprStrategy.Library
