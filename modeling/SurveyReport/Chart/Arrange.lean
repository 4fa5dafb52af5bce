/-!
# Arranging by an order

An order lists names. One item after the other is swapped with the item that stands where the order
lists its name, so that other items can be moved on the way.

Results:
* `arrange_perm`: arranging loses, adds and copies nothing.
* `arrange_nil`: without an order nothing moves.
-/

namespace SurveyReport

variable {α : Type}

/-- Moves the item at a position to the place that the order gives it, if there is that place. -/
def moveToPlace (order : List String) (key : α → String) (items : Array α) (i : Nat) : Array α :=
  match items[i]?.bind fun item => order.findIdx? (· == key item) with
  | some place => items.swapIfInBounds i place
  | none => items

/-- The items, arranged by the order as far as it names them. -/
def arrange (order : List String) (key : α → String) (items : List α) : List α :=
  ((List.range items.length).foldl (moveToPlace order key) items.toArray).toList

theorem swapIfInBounds_perm (items : Array α) (i j : Nat) :
    (items.swapIfInBounds i j).Perm items := by
  rw [Array.swapIfInBounds_def]
  split
  · split
    · exact Array.swap_perm _ _
    · exact Array.Perm.refl _
  · exact Array.Perm.refl _

theorem moveToPlace_perm (order : List String) (key : α → String) (items : Array α) (i : Nat) :
    (moveToPlace order key items i).Perm items := by
  unfold moveToPlace
  split
  · exact swapIfInBounds_perm _ _ _
  · exact Array.Perm.refl _

theorem foldl_moveToPlace_perm (order : List String) (key : α → String) (positions : List Nat)
    (items : Array α) : (positions.foldl (moveToPlace order key) items).Perm items := by
  induction positions generalizing items with
  | nil => exact Array.Perm.refl _
  | cons i positions ih => exact (ih _).trans (moveToPlace_perm order key items i)

theorem arrange_perm (order : List String) (key : α → String) (items : List α) :
    (arrange order key items).Perm items := by
  have h := foldl_moveToPlace_perm order key (List.range items.length) items.toArray
  exact Array.perm_iff_toList_perm.mp h

theorem arrange_nil (key : α → String) (items : List α) : arrange [] key items = items := by
  have h (positions : List Nat) (xs : Array α) :
      positions.foldl (moveToPlace [] key) xs = xs := by
    induction positions with
    | nil => rfl
    | cons i positions ih =>
      rw [List.foldl_cons, show moveToPlace [] key xs i = xs by cases hx : xs[i]? <;>
        simp [moveToPlace, hx], ih]
  simp [arrange, h]

end SurveyReport
