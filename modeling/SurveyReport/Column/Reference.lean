import SurveyReport.Column
import SurveyReport.Failure
import SurveyReport.Text.LowerCase

/-!
# References to columns

A reference is a column's name, or its name in other cases, or its label; the first of these that fits
any column decides, and of several columns the first one.

Results:
* `find?_mem`: what a reference finds is one of the columns.
* `resolve_eq_error_iff`: resolving fails exactly when no reference finds a column.
* `resolve_ne_nil`: what is resolved is not empty.
* `mem_of_resolve`: what is resolved are columns of the table.
-/

namespace SurveyReport.Column

/-- The column that a reference names. -/
def find? (columns : List Column) (reference : String) : Option Column :=
  (columns.find? fun c => c.name == reference).or <|
    (columns.find? fun c => Text.lower c.name == Text.lower reference).or <|
      columns.find? fun c => Text.lowerAscii c.label == Text.lowerAscii reference

/-- The columns that references name, in their order. A reference to no column is passed over, but
    one column must be found. -/
def resolve (columns : List Column) (references : List String) (source : String) :
    Except Failure (List Column) :=
  match references.filterMap (find? columns) with
  | [] => .error (.noColumns source)
  | used => .ok used

theorem find?_mem {columns : List Column} {reference : String} {c : Column}
    (h : find? columns reference = some c) : c ∈ columns := by
  simp only [find?, Option.or_eq_some_iff] at h
  rcases h with h | ⟨-, h | ⟨-, h⟩⟩ <;> exact List.mem_of_find?_eq_some h

theorem resolve_eq_error_iff (columns : List Column) (references : List String) (source : String) :
    resolve columns references source = .error (.noColumns source) ↔
      ∀ reference ∈ references, find? columns reference = none := by
  unfold resolve
  split
  · next h => simpa [List.filterMap_eq_nil_iff] using h
  · next h =>
    simp only [reduceCtorEq, false_iff]
    exact fun hall => h (List.filterMap_eq_nil_iff.mpr hall)

theorem resolve_ne_nil {columns : List Column} {references : List String} {source : String}
    {used : List Column} (h : resolve columns references source = .ok used) : used ≠ [] := by
  unfold resolve at h
  split at h
  · simp at h
  · next hne => cases h; exact hne

theorem mem_of_resolve {columns : List Column} {references : List String} {source : String}
    {used : List Column} (h : resolve columns references source = .ok used) :
    ∀ c ∈ used, c ∈ columns := by
  intro c hc
  unfold resolve at h
  split at h
  · simp at h
  · cases h
    obtain ⟨reference, -, hfound⟩ := List.mem_filterMap.mp hc
    exact find?_mem hfound

end SurveyReport.Column
