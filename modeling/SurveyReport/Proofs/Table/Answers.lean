import SurveyReport.Proofs.Table.Frequencies
import SurveyReport.Summary

/-!
# The answers of a table

What counts as an answer can be read off the rows: it stands in one of them, is not empty and does not
repeat the name of the column. The categories of a column are these answers in the order of their bytes.

Results:
* `isAnswer_iff`: the categories of a column are its answers.
* `firstValue_columns`: the value of a column is the least of its answers.
-/

namespace SurveyReport.Table

variable {t : Table} {position : Nat} {c : Column} {value : String}

/-- Some row gives the value at a position, and it is neither empty nor the name of the column. -/
structure IsAnswer (t : Table) (position : Nat) (value : String) : Prop where
  ne_empty : value ≠ ""
  ne_header : t.headers[position]? ≠ some value
  given : ∃ row ∈ t.rows, row[position]? = some value

instance (t : Table) (position : Nat) (value : String) : Decidable (t.IsAnswer position value) :=
  decidable_of_iff (value ≠ "" ∧ t.headers[position]? ≠ some value ∧
      ∃ row ∈ t.rows, row[position]? = some value)
    ⟨fun ⟨hempty, hheader, hgiven⟩ => ⟨hempty, hheader, hgiven⟩,
      fun ⟨hempty, hheader, hgiven⟩ => ⟨hempty, hheader, hgiven⟩⟩

/-- No other answer has lesser bytes. -/
structure IsLeastAnswer (t : Table) (position : Nat) (value : String) : Prop where
  isAnswer : t.IsAnswer position value
  le : ∀ other, t.IsAnswer position other → Text.bytes value ≤ Text.bytes other

/-- The categories of a column are its answers. -/
theorem isAnswer_iff (hc : t.columns[position]? = some c) :
    t.IsAnswer position value ↔ ∃ a ∈ c.categories, a.name = value := by
  obtain ⟨header, hheader, rfl⟩ := Column.exists_eq_ofCells hc
  have hcells := mem_cells (List.getElem?_eq_some_iff.mp hheader).1 value
  constructor
  · rintro ⟨hempty, hne, hgiven⟩
    rw [hheader, Ne, Option.some.injEq] at hne
    exact ⟨⟨value, (t.cells position).count value⟩,
      Column.mem_ofCells.mpr ⟨hempty, Ne.symm hne, hcells.mpr hgiven, rfl⟩, rfl⟩
  · rintro ⟨a, ha, rfl⟩
    obtain ⟨hempty, hne, hcell, -⟩ := Column.mem_ofCells.mp ha
    refine ⟨hempty, ?_, hcells.mp hcell⟩
    rw [hheader, Ne, Option.some.injEq]
    exact Ne.symm hne

/-- The first category of a column is the least of its answers. -/
theorem isLeastAnswer_of_categories (hc : t.columns[position]? = some c) {a : Category}
    {rest : List Category} (ha : c.categories = a :: rest) : t.IsLeastAnswer position a.name where
  isAnswer := (isAnswer_iff hc).mpr ⟨a, by simp [ha], rfl⟩
  le := by
    intro other hother
    obtain ⟨b, hb, rfl⟩ := (isAnswer_iff hc).mp hother
    obtain ⟨header, -, hcolumn⟩ := Column.exists_eq_ofCells hc
    have hsorted : Column.Sorted (a :: rest) := by
      rw [← ha, hcolumn]
      exact Column.sorted_ofCells position header _
    rw [ha] at hb
    rcases List.mem_cons.mp hb with rfl | hb
    · exact List.le_refl _
    · have hlt := (List.pairwise_cons.mp hsorted).1 b hb
      exact List.le_of_lt (Text.precedes_iff_bytes_lt.mp hlt)

/-- The value of a column is the least of its answers, if it has one. -/
theorem firstValue_columns (hc : t.columns[position]? = some c) (source : String) :
    (∃ value, t.IsLeastAnswer position value ∧ Summary.firstValue [c] source = .ok value) ∨
      (∀ value, ¬ t.IsAnswer position value) ∧
        Summary.firstValue [c] source = .error (.noValues c.name) := by
  cases hcategories : c.categories with
  | nil =>
    refine .inr ⟨fun value hvalue => ?_, by simp [Summary.firstValue, hcategories]⟩
    obtain ⟨a, ha, -⟩ := (isAnswer_iff hc).mp hvalue
    rw [hcategories] at ha
    simp at ha
  | cons a rest =>
    exact .inl ⟨a.name, isLeastAnswer_of_categories hc hcategories,
      by simp [Summary.firstValue, hcategories]⟩

end SurveyReport.Table
