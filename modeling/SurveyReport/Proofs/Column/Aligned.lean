import SurveyReport.Proofs.Column.Alignment

/-!
# Aligned columns

Alignment gives each column the answers of the reference, in their order, and leaves the numbers of
all answers as they were. Columns that are aligned once stay as they are when they are aligned again
just when the reference has all answers of all columns: an answer that it lacks makes another column
longer, and the longest column is the reference then.

Results:
* `align_lossless`: what alignment does to each column.
* `align_align_iff`: when a second alignment changes nothing.
-/

namespace SurveyReport.Column

/-! ## The reference -/

/-- The column at an index is the first of those with the most categories. -/
structure IsReferenceAt (columns : List Column) (index : Nat) (reference : Column) : Prop where
  at_index : columns[index]? = some reference
  before : ∀ i < index, ∀ c, columns[i]? = some c →
    c.categories.length < reference.categories.length
  most : ∀ c ∈ columns, c.categories.length ≤ reference.categories.length

theorem isReferenceAt_reference {columns : List Column} (h : columns ≠ []) :
    ∃ reference, IsReferenceAt columns (align columns).reference reference := by
  obtain ⟨before, reference, behind, hcolumns, hbest, hbefore, hbehind⟩ := foldl_keepGreater h
  have hindex : (align columns).reference = before.length := congrArg Prod.snd hbest
  refine ⟨reference, ?_, fun i hi c hc => hbefore c ?_, fun c hc => ?_⟩
  · rw [hindex, hcolumns]
    simp
  · rw [hindex] at hi
    rw [hcolumns, List.getElem?_append_left hi] at hc
    exact List.mem_of_getElem? hc
  · rw [hcolumns, List.mem_append, List.mem_cons] at hc
    rcases hc with hc | rfl | hc
    · exact Nat.le_of_lt (hbefore c hc)
    · exact Nat.le_refl _
    · exact hbehind c hc

section Reference

variable {columns : List Column} {index : Nat} {reference : Column}
  (h : IsReferenceAt columns index reference)
include h

theorem IsReferenceAt.mem : reference ∈ columns := List.mem_of_getElem? h.at_index

theorem IsReferenceAt.eq_of_getElem? {c : Column} (hc : columns[index]? = some c) : c = reference :=
  Option.some.inj (hc.symm.trans h.at_index)

end Reference

/-! ## One column -/

theorem filter_not_mem_self (own : List Category) :
    own.filter (fun c => c.name ∉ own.map (·.name)) = [] := by
  rw [List.filter_eq_nil_iff]
  intro c hc
  simpa using ⟨c, hc, rfl⟩

/-- Answers that are aligned stay as they are. -/
theorem alignCategories_self {own : List Category} (hown : (own.map (·.name)).Nodup) :
    alignCategories (own.map (·.name)) own = own := by
  have hslots : own.map (fun a => (⟨a.name, countIn own a.name⟩ : Category)) = own.map id :=
    List.map_congr_left fun a ha => by rw [countIn_of_mem hown ha]; rfl
  rw [alignCategories_eq hown hown, List.map_map, filter_not_mem_self, List.append_nil]
  exact hslots.trans (List.map_id own)

/-! ## All columns -/

theorem columns_align_ne_nil {columns : List Column} (h : columns ≠ []) :
    (align columns).columns ≠ [] := by
  rw [← List.length_pos_iff, length_align]
  exact List.length_pos_iff.mpr h

theorem exists_of_mem_align {columns : List Column} {d : Column}
    (hd : d ∈ (align columns).columns) :
    ∃ (i : Nat) (c : Column), columns[i]? = some c ∧ (align columns).columns[i]? = some d := by
  obtain ⟨i, hi⟩ := List.getElem?_of_mem hd
  obtain ⟨hlt, -⟩ := List.getElem?_eq_some_iff.mp hi
  rw [length_align] at hlt
  exact ⟨i, columns[i], List.getElem?_eq_getElem hlt, hi⟩

section All

variable {columns : List Column} (hnodup : ∀ c ∈ columns, (c.categories.map (·.name)).Nodup)
  {reference : Column} (href : IsReferenceAt columns (align columns).reference reference)
include href

/-- The reference stays, and every other column is aligned to it. -/
theorem getElem?_align {i : Nat} {c : Column} (hc : columns[i]? = some c) :
    (align columns).columns[i]? = some
      (if i = (align columns).reference then c
      else { c with
        categories := alignCategories (reference.categories.map (·.name)) c.categories }) := by
  have hindex : columns[referenceIndex columns]? = some reference := href.at_index
  obtain ⟨hi, -⟩ := List.getElem?_eq_some_iff.mp hc
  obtain ⟨hr, -⟩ := List.getElem?_eq_some_iff.mp hindex
  simp only [align, hindex, Option.map_some, Option.getD_some]
  split
  · rw [if_pos (by omega), hc]
  · rw [List.getElem?_mapIdx, hc, Option.map_some]

theorem getElem?_align_reference :
    (align columns).columns[(align columns).reference]? = some reference := by
  rw [getElem?_align href href.at_index, if_pos rfl]

include hnodup

/-- Every column has the answers of the reference and behind them its own others. -/
theorem map_name_align {i : Nat} {c d : Column} (hc : columns[i]? = some c)
    (hd : (align columns).columns[i]? = some d) :
    d.categories.map (·.name) = reference.categories.map (·.name) ++
      (c.categories.filter fun a => a.name ∉ reference.categories.map (·.name)).map (·.name) := by
  rw [getElem?_align href hc] at hd
  split_ifs at hd with hi <;> cases hd
  · obtain rfl : c = reference := href.eq_of_getElem? (hi ▸ hc)
    rw [filter_not_mem_self, List.map_nil, List.append_nil]
  · exact map_name_alignCategories (hnodup reference href.mem) (hnodup c (List.mem_of_getElem? hc))

theorem nodup_align : ∀ d ∈ (align columns).columns, (d.categories.map (·.name)).Nodup := by
  intro d hd
  obtain ⟨i, c, hc, hi⟩ := exists_of_mem_align hd
  rw [map_name_align hnodup href hc hi]
  exact nodup_append_filter (hnodup reference href.mem) (hnodup c (List.mem_of_getElem? hc))

/-- Every column begins with the answers of the reference. -/
theorem prefix_align : ∀ d ∈ (align columns).columns,
    reference.categories.map (·.name) <+: d.categories.map (·.name) := by
  intro d hd
  obtain ⟨i, c, hc, hi⟩ := exists_of_mem_align hd
  exact ⟨_, (map_name_align hnodup href hc hi).symm⟩

end All

/-- A column with the numbers of another one, of which each answer has one category. -/
structure SameNumbers (c d : Column) : Prop where
  name : d.name = c.name
  label : d.label = c.label
  total : d.total = c.total
  unknown : d.unknown = c.unknown
  countOf : ∀ answer, d.countOf answer = c.countOf answer
  answered : d.answered = c.answered
  nodup : (d.categories.map (·.name)).Nodup
  balanced : c.unknown + c.answered = c.total → d.unknown + d.answered = d.total

theorem SameNumbers.refl {c : Column} (h : (c.categories.map (·.name)).Nodup) : SameNumbers c c :=
  ⟨rfl, rfl, rfl, rfl, fun _ => rfl, rfl, h, id⟩

theorem sameNumbers_alignCategories {names : List String} (h : names.Nodup) {c : Column}
    (hc : (c.categories.map (·.name)).Nodup) :
    SameNumbers c { c with categories := alignCategories names c.categories } where
  name := rfl
  label := rfl
  total := rfl
  unknown := rfl
  countOf := countIn_alignCategories h hc
  answered := countAll_alignCategories h hc
  nodup := map_name_alignCategories h hc ▸ nodup_append_filter h hc
  balanced hbalanced := by
    have hanswered : countAll (alignCategories names c.categories) = c.answered :=
      countAll_alignCategories h hc
    rw [answered, hanswered, hbalanced]

/-- **Alignment loses nothing.** The reference is the first column with the most categories, and stays
    as it is. Every other column gets the answers of the reference in their order, each with its own
    number or 0, and behind them keeps its other answers as they stood. There are as many columns as
    before in the same order, and nothing that is counted in them changes. -/
theorem align_lossless {columns : List Column} (h : columns ≠ [])
    (hnodup : ∀ c ∈ columns, (c.categories.map (·.name)).Nodup) :
    ∃ reference, IsReferenceAt columns (align columns).reference reference ∧
      (align columns).columns.length = columns.length ∧
      ∀ i c, columns[i]? = some c → ∃ d, (align columns).columns[i]? = some d ∧ SameNumbers c d ∧
        (i = (align columns).reference → d = c) ∧
        (i ≠ (align columns).reference → d.categories =
          (reference.categories.map fun a => ⟨a.name, c.countOf a.name⟩) ++
            c.categories.filter fun a => a.name ∉ reference.categories.map (·.name)) := by
  obtain ⟨reference, href⟩ := isReferenceAt_reference h
  refine ⟨reference, href, length_align columns, fun i c hc => ⟨_, getElem?_align href hc, ?_⟩⟩
  have hnames := hnodup reference href.mem
  have hown := hnodup c (List.mem_of_getElem? hc)
  split_ifs with hi
  · exact ⟨.refl hown, fun _ => rfl, fun hne => absurd hi hne⟩
  · refine ⟨sameNumbers_alignCategories hnames hown, fun heq => absurd heq hi, fun _ => ?_⟩
    rw [alignCategories_eq hnames hown, List.map_map]
    rfl

theorem align_lossless_drinks :
    let tea : Column := ⟨"Tea", "A", [⟨"yes", 3⟩], 3, 0⟩
    let coffee : Column := ⟨"Coffee", "B", [⟨"no", 1⟩, ⟨"yes", 2⟩], 4, 1⟩
    let milk : Column := ⟨"Milk", "C", [⟨"late", 5⟩, ⟨"yes", 1⟩], 6, 0⟩
    IsReferenceAt [tea, coffee, milk] 1 coffee ∧
      ∃ d, (align [tea, coffee, milk]).columns[2]? = some d ∧ SameNumbers milk d ∧
        d.categories = [⟨"no", 0⟩, ⟨"yes", 1⟩, ⟨"late", 5⟩] := by
  intro tea coffee milk
  have hne : [tea, coffee, milk] ≠ [] := by simp
  obtain ⟨reference, href, -, hall⟩ := align_lossless hne (by decide)
  have hindex : (align [tea, coffee, milk]).reference = 1 := by decide
  rw [hindex] at href hall
  obtain rfl : coffee = reference := href.eq_of_getElem? rfl
  obtain ⟨d, hd, hsame, -, hcategories⟩ := hall 2 milk rfl
  exact ⟨href, d, hd, hsame, hcategories (by decide)⟩

/-! ## Aligning again -/

/-- The reference has all answers of all columns. -/
def ReferenceHasAll (columns : List Column) : Prop :=
  ∃ reference, columns[(align columns).reference]? = some reference ∧
    ∀ c ∈ columns, ∀ a ∈ c.categories, a.name ∈ reference.categories.map (·.name)

/-- Columns with the same answers in the same order. -/
def SameAnswers (columns : List Column) : Prop :=
  ∀ c ∈ columns, ∀ d ∈ columns, c.categories.map (·.name) = d.categories.map (·.name)

section Again

variable {columns : List Column} (h : columns ≠ [])
  (hnodup : ∀ c ∈ columns, (c.categories.map (·.name)).Nodup)
include h hnodup

/-- Columns with the same answers in the same order are aligned already, and the first one is the
    reference. -/
theorem align_of_sameAnswers (hsame : SameAnswers columns) : align columns = ⟨columns, 0⟩ := by
  obtain ⟨reference, href⟩ := isReferenceAt_reference h
  have hcolumns : (align columns).columns = columns := by
    refine List.ext_getElem? fun i => ?_
    by_cases hi : i < columns.length
    · have hc := List.getElem?_eq_getElem hi
      have hmem := List.getElem_mem hi
      rw [getElem?_align href hc, hc, hsame reference href.mem _ hmem,
        alignCategories_self (hnodup _ hmem), ite_self]
    · rw [List.getElem?_eq_none (by rw [length_align]; omega), List.getElem?_eq_none (by omega)]
  have hfirst : (align columns).reference = 0 := by
    by_contra hne
    have hpos : 0 < columns.length := List.length_pos_iff.mpr h
    have hc := List.getElem?_eq_getElem hpos
    have hlt := href.before 0 (by omega) _ hc
    have hlength := congrArg List.length (hsame _ (List.mem_of_getElem? hc) _ href.mem)
    simp only [List.length_map] at hlength
    omega
  calc align columns = ⟨(align columns).columns, (align columns).reference⟩ := rfl
    _ = ⟨columns, 0⟩ := by rw [hcolumns, hfirst]

/-- After alignment the columns have the same answers just when the reference has all of them. -/
theorem sameAnswers_align_iff :
    SameAnswers (align columns).columns ↔ ReferenceHasAll columns := by
  obtain ⟨reference, href⟩ := isReferenceAt_reference h
  constructor
  · intro hsame
    refine ⟨reference, href.at_index, fun c hc a ha => ?_⟩
    obtain ⟨i, hi⟩ := List.getElem?_of_mem hc
    have hd := getElem?_align href hi
    have hreference := List.mem_of_getElem? (getElem?_align_reference href)
    have hnone :
        (c.categories.filter fun a => a.name ∉ reference.categories.map (·.name)) = [] := by
      have hnames := map_name_align hnodup href hi hd
      rw [← hsame _ hreference _ (List.mem_of_getElem? hd), List.self_eq_append_right] at hnames
      exact List.map_eq_nil_iff.mp hnames
    simpa using List.filter_eq_nil_iff.mp hnone a ha
  · rintro ⟨same, hindex, hall⟩
    obtain rfl := href.eq_of_getElem? hindex
    have hnames : ∀ d ∈ (align columns).columns,
        d.categories.map (·.name) = same.categories.map (·.name) := by
      intro d hd
      obtain ⟨i, c, hc, hi⟩ := exists_of_mem_align hd
      have hnone : (c.categories.filter fun a => a.name ∉ same.categories.map (·.name)) = [] := by
        rw [List.filter_eq_nil_iff]
        intro a ha
        simpa using hall c (List.mem_of_getElem? hc) a ha
      rw [map_name_align hnodup href hc hi, hnone, List.map_nil, List.append_nil]
    intro c hc d hd
    rw [hnames c hc, hnames d hd]

/-- Columns that a second alignment does not change have the same answers: they all begin with those
    of the first reference, and end with them because it begins with those of the second one, which
    is the longest of them. -/
theorem sameAnswers_of_align_align
    (hsame : (align (align columns).columns).columns = (align columns).columns) :
    SameAnswers (align columns).columns := by
  obtain ⟨first, hfirst⟩ := isReferenceAt_reference h
  obtain ⟨second, hsecond⟩ := isReferenceAt_reference (columns_align_ne_nil h)
  have hmem : first ∈ (align columns).columns :=
    List.mem_of_getElem? (getElem?_align_reference hfirst)
  have hshort : second.categories.length ≤ first.categories.length := by
    have hprefix := prefix_align (nodup_align hnodup hfirst) hsecond first (hsame.symm ▸ hmem)
    simpa using hprefix.length_le
  have hnames : ∀ d ∈ (align columns).columns,
      first.categories.map (·.name) = d.categories.map (·.name) := by
    intro d hd
    refine (prefix_align hnodup hfirst d hd).eq_of_length_le ?_
    simpa using (hsecond.most d hd).trans hshort
  intro c hc d hd
  rw [← hnames c hc, ← hnames d hd]

end Again

/-- **When a second alignment changes nothing.** Aligning the aligned columns again gives the same
    columns just when the reference has all answers of all columns, and the same reference too just
    when it is in addition the first column. The aligned columns have the same answers in the same
    order just when the reference has all of them. -/
theorem align_align_iff {columns : List Column} (h : columns ≠ [])
    (hnodup : ∀ c ∈ columns, (c.categories.map (·.name)).Nodup) :
    let once := align columns
    let twice := align once.columns
    (twice.columns = once.columns ↔ ReferenceHasAll columns) ∧
      (twice = once ↔ ReferenceHasAll columns ∧ once.reference = 0) ∧
      (SameAnswers once.columns ↔ ReferenceHasAll columns) := by
  intro once twice
  obtain ⟨reference, href⟩ := isReferenceAt_reference h
  have hanswers := sameAnswers_align_iff h hnodup
  have htwice : ReferenceHasAll columns → twice = ⟨once.columns, 0⟩ := fun hall =>
    align_of_sameAnswers (columns_align_ne_nil h) (nodup_align hnodup href) (hanswers.mpr hall)
  have hcolumns : twice.columns = once.columns ↔ ReferenceHasAll columns :=
    ⟨fun hsame => hanswers.mp (sameAnswers_of_align_align h hnodup hsame),
      fun hall => by rw [htwice hall]⟩
  refine ⟨hcolumns, ⟨fun hsame => ?_, fun ⟨hall, hzero⟩ => ?_⟩, hanswers⟩
  · have hall := hcolumns.mp (congrArg Aligned.columns hsame)
    exact ⟨hall, congrArg Aligned.reference (hsame.symm.trans (htwice hall))⟩
  · rw [htwice hall, ← hzero]

theorem align_align_drinks :
    let tea : Column := ⟨"Tea", "A", [⟨"yes", 3⟩], 3, 0⟩
    let coffee : Column := ⟨"Coffee", "B", [⟨"no", 1⟩, ⟨"yes", 2⟩], 4, 1⟩
    let once := align [tea, coffee]
    (align once.columns).columns = once.columns ∧ SameAnswers once.columns ∧
      once.reference = 1 ∧ align once.columns ≠ once := by
  intro tea coffee once
  have hne : [tea, coffee] ≠ [] := by simp
  obtain ⟨hcolumns, hall, hanswers⟩ := align_align_iff hne (by decide)
  have hreference : ReferenceHasAll [tea, coffee] := ⟨coffee, rfl, by decide⟩
  have hindex : once.reference = 1 := by decide
  refine ⟨hcolumns.mpr hreference, hanswers.mpr hreference, hindex, fun hsame => ?_⟩
  have hzero := (hall.mp hsame).2
  exact absurd (hindex.symm.trans hzero) (by decide)

end SurveyReport.Column
