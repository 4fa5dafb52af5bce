import Mathlib.Data.List.Basic
import SurveyReport.Proofs.Pass.Substitution

/-!
# Only referenced columns count

What a directive comes to depends on the names and the labels of all columns, which say where its
references lead, and on the columns at these places. Whatever the other columns hold makes no
difference.

Results:
* `find?_eq_bind_position?`: what a reference finds is the column at its position.
* `find?_congr`, `resolve_congr`: equal names, labels and referenced columns are found alike.
* `outcomeOf_congr`: directives cannot tell such columns apart.
* `resultsOf_congr`: nor can sequences of directives.
-/

namespace SurveyReport

namespace Column

/-! ## Where references lead -/

/-- The position of the column that a reference names. -/
def position? (columns : List Column) (reference : String) : Option Nat :=
  (columns.findIdx? fun c => c.name == reference).or <|
    (columns.findIdx? fun c => Text.lower c.name == Text.lower reference).or <|
      columns.findIdx? fun c => Text.lowerAscii c.label == Text.lowerAscii reference

/-- What a reference finds is the column at its position. -/
theorem find?_eq_bind_position? (columns : List Column) (reference : String) :
    find? columns reference = (position? columns reference).bind (columns[·]?) := by
  have hor : ∀ p q : Option Nat,
      (p.bind (columns[·]?)).or (q.bind (columns[·]?)) = (p.or q).bind (columns[·]?) ∨
        ∃ i, p = some i ∧ columns[i]? = none := by
    rintro (_ | i) q
    · simp
    · cases h : columns[i]? with
      | none => exact .inr ⟨i, rfl, h⟩
      | some c => simp [h]
  have hfound : ∀ p : Column → Bool,
      ¬∃ i, columns.findIdx? p = some i ∧ columns[i]? = none := by
    rintro p ⟨i, hi, hnone⟩
    have hlt := (List.findIdx?_eq_some_iff_getElem.mp hi).1
    simp [hlt] at hnone
  simp only [find?, position?, List.find?_eq_bind_findIdx?_getElem?]
  rw [(hor _ _).resolve_right (hfound _), (hor _ _).resolve_right (hfound _)]

/-- Two lists of columns with the same names and labels, and with the same columns where the
    references lead. -/
structure Alike (references : List String) (columns others : List Column) : Prop where
  names : columns.map (·.name) = others.map (·.name)
  labels : columns.map (·.label) = others.map (·.label)
  referenced : ∀ reference ∈ references, ∀ i, position? columns reference = some i →
    columns[i]? = others[i]?

variable {columns others : List Column} {references : List String}

/-- Names and labels say where a reference leads. -/
theorem position?_congr (hnames : columns.map (·.name) = others.map (·.name))
    (hlabels : columns.map (·.label) = others.map (·.label)) (reference : String) :
    position? columns reference = position? others reference := by
  have hname : ∀ p : String → Bool,
      columns.findIdx? (fun c => p c.name) = others.findIdx? fun c => p c.name := by
    intro p
    have h := congrArg (List.findIdx? p) hnames
    rwa [List.findIdx?_map, List.findIdx?_map] at h
  have hlabel : ∀ p : String → Bool,
      columns.findIdx? (fun c => p c.label) = others.findIdx? fun c => p c.label := by
    intro p
    have h := congrArg (List.findIdx? p) hlabels
    rwa [List.findIdx?_map, List.findIdx?_map] at h
  rw [position?, position?, hname (· == reference),
    hname fun name => Text.lower name == Text.lower reference,
    hlabel fun label => Text.lowerAscii label == Text.lowerAscii reference]

theorem find?_congr (h : Alike references columns others) {reference : String}
    (hreference : reference ∈ references) : find? columns reference = find? others reference := by
  rw [find?_eq_bind_position?, find?_eq_bind_position?,
    ← position?_congr h.names h.labels reference]
  cases hposition : position? columns reference with
  | none => rfl
  | some i => exact h.referenced reference hreference i hposition

theorem resolve_congr (h : Alike references columns others) (source : String) :
    resolve columns references source = resolve others references source := by
  have hfound : references.filterMap (find? columns) = references.filterMap (find? others) :=
    List.filterMap_congr fun reference hreference => find?_congr h hreference
  rw [resolve, resolve, hfound]

end Column

/-! ## Directives -/

namespace Directive

/-- The references of a directive. -/
def references : Directive → List String
  | .text r => r.references
  | .chart r => r.references
  | _ => []

theorem columnsOf_congr {columns others : List Column} {references : List String}
    (h : Column.Alike references columns others) (source : String) :
    columnsOf columns references source = columnsOf others references source := by
  rw [columnsOf, columnsOf, Column.resolve_congr h]

theorem outcome_congr {columns others : List Column} {d : Directive}
    (h : Column.Alike d.references columns others) (s : Setting) :
    d.outcome columns s = d.outcome others s := by
  cases d with
  | invalid cause source => rfl
  | palette colours => rfl
  | order names => rfl
  | text r =>
    have hcolumns := columnsOf_congr h r.source
    simp only [references] at hcolumns
    simp only [outcome, hcolumns]
  | chart r =>
    have hcolumns := columnsOf_congr h r.source
    simp only [references] at hcolumns
    simp only [outcome, hcolumns]

end Directive

variable {columns others : List Column}

/-- **Other columns do not count.** Over two lists of columns with the same names and labels, and with
    the same columns where its references lead, a written directive comes to the same and leaves the
    same setting. -/
theorem outcomeOf_congr {raw : String}
    (h : Column.Alike (Directive.ofMarked raw).references columns others) (s : Setting) :
    outcomeOf columns s raw = outcomeOf others s raw :=
  Directive.outcome_congr h s

/-- The answers about coffee differ, and are not referenced: the references are a name in small
    letters, a label, and one that leads nowhere. -/
theorem outcomeOf_congr_coffee :
    outcomeOf
        [⟨"Tea", "A", [⟨"no", 1⟩, ⟨"yes", 2⟩], 4, 1⟩, ⟨"Coffee", "B", [⟨"late", 4⟩], 4, 0⟩,
          ⟨"Cups", "C", [⟨"one", 4⟩], 4, 0⟩]
        .initial "\x7b\x7b\x7bbar;count;tea;c;Milk;Drinks\x7d\x7d\x7d" =
      outcomeOf
        [⟨"Tea", "A", [⟨"no", 1⟩, ⟨"yes", 2⟩], 4, 1⟩, ⟨"Coffee", "B", [], 4, 4⟩,
          ⟨"Cups", "C", [⟨"one", 4⟩], 4, 0⟩]
        .initial "\x7b\x7b\x7bbar;count;tea;c;Milk;Drinks\x7d\x7d\x7d" := by
  have hreferences : (Directive.ofMarked
      "\x7b\x7b\x7bbar;count;tea;c;Milk;Drinks\x7d\x7d\x7d").references = ["tea", "c", "Milk"] := by
    decide
  refine outcomeOf_congr ⟨rfl, rfl, ?_⟩ .initial
  rw [hreferences]
  decide

theorem resultsOf_congr {raws : List String}
    (h : ∀ raw ∈ raws, Column.Alike (Directive.ofMarked raw).references columns others)
    (s : Setting) : resultsOf columns s raws = resultsOf others s raws := by
  induction raws generalizing s with
  | nil => simp [resultsOf]
  | cons raw raws ih =>
    obtain ⟨hhead, htail⟩ := List.forall_mem_cons.mp h
    have hraw : outcomeOf columns s raw = outcomeOf others s raw := Directive.outcome_congr hhead s
    have hrest := ih htail
    rw [resultsOf_cons, resultsOf_cons, hraw, hrest]

end SurveyReport
