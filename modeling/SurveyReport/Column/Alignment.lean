import SurveyReport.Column

/-!
# Aligning columns

To be compared, columns are given the same answers in the same order: those of the column with the
most answers come first in each of them, with the number 0 where a column has none, and an answer
that only the column itself has comes behind them.

Results:
* `length_align`: aligning keeps the number of columns.
* `referenceIndex_lt`: the reference is one of the columns.
-/

namespace SurveyReport

/-- Columns with the same answers in front, and the index of the column whose answers these are. -/
structure Aligned where
  columns : List Column
  reference : Nat
  deriving DecidableEq, Repr

namespace Column

/-! ## The reference -/

/-- Keeps the greater of two numbers with their indices, the earlier one when they are equal. -/
def keepGreater (best : Nat × Nat) (next : Nat × Nat) : Nat × Nat :=
  if best.1 < next.1 then next else best

/-- The index of the first column with the most categories. -/
def referenceIndex (columns : List Column) : Nat :=
  ((columns.map (·.categories.length)).zipIdx.foldl keepGreater (0, 0)).2

theorem foldl_keepGreater_lt {bound : Nat} (best : Nat × Nat) (nexts : List (Nat × Nat))
    (hb : best.2 < bound) (hn : ∀ n ∈ nexts, n.2 < bound) :
    (nexts.foldl keepGreater best).2 < bound := by
  induction nexts generalizing best with
  | nil => exact hb
  | cons n nexts ih =>
    refine ih _ ?_ fun m hm => hn m (by simp [hm])
    unfold keepGreater
    split
    · exact hn n (by simp)
    · exact hb

theorem referenceIndex_lt {columns : List Column} (h : columns ≠ []) :
    referenceIndex columns < columns.length := by
  refine foldl_keepGreater_lt _ _ (List.length_pos_iff.mpr h) fun n hn => ?_
  have := List.snd_lt_of_mem_zipIdx hn
  simpa using this

/-! ## One column -/

/-- Enters a number in the last of the slots with the same name, if there is one. -/
def enter? (c : Category) : List Category → Option (List Category)
  | [] => none
  | slot :: rest =>
    match enter? c rest with
    | some rest => some (slot :: rest)
    | none => if slot.name = c.name then some ({ slot with count := c.count } :: rest) else none

/-- Slots for the answers of the reference, and the answers that have no slot. -/
structure Slots where
  filled : List Category
  extra : List Category

/-- Puts an answer into its slot, or behind the ones without a slot. -/
def Slots.add (s : Slots) (c : Category) : Slots :=
  match enter? c s.filled with
  | some filled => { s with filled }
  | none => { s with extra := s.extra ++ [c] }

/-- The answers of a column in the order of the given names. -/
def alignCategories (names : List String) (own : List Category) : List Category :=
  let slots := own.foldl Slots.add ⟨names.map (⟨·, 0⟩), []⟩
  slots.filled ++ slots.extra

/-! ## All columns -/

/-- The columns with their answers aligned to those of the reference. One column alone stays as it
    is. -/
def align (columns : List Column) : Aligned :=
  let reference := referenceIndex columns
  let names := ((columns[reference]?.map (·.categories)).getD []).map (·.name)
  { reference
    columns := if columns.length ≤ 1 then columns else
      columns.mapIdx fun i c =>
        if i = reference then c else { c with categories := alignCategories names c.categories } }

theorem length_align (columns : List Column) : (align columns).columns.length = columns.length := by
  unfold align
  dsimp only
  split <;> simp

end Column

end SurveyReport
