/-! # Separated lists

Cutting a list at a separator: everywhere, or at its first occurrence only.
-/

namespace Roster.Text

variable {α : Type} [BEq α]

/-- The stretches between the separators, in order; there is always one more than there are separators. -/
def separate (sep : α) : List α → List (List α)
  | [] => [[]]
  | x :: xs =>
    if x == sep then [] :: separate sep xs
    else match separate sep xs with
      | [] => [[x]]
      | piece :: pieces => (x :: piece) :: pieces

/-- What stands before the first separator and what follows it; without a separator nothing follows. -/
def cutAt (sep : α) (xs : List α) : List α × List α :=
  (xs.takeWhile (· != sep), (xs.dropWhile (· != sep)).drop 1)

end Roster.Text
