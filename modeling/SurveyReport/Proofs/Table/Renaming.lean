import Mathlib.Logic.Function.Iterate
import SurveyReport.Proofs.Table.Addressing

/-!
# Which names are kept

A name is changed if it is in use already, and names that were given suffixes are in use as well. So a
name can be taken by an earlier one with suffixes, also if it stands only once among the names that
the header rows give. Whether it is taken depends on numbers alone: names move up from suffix to suffix
until they find a free one, and a name is reached as soon as more of them come to it, or to a name on
the way to it, than there are names on this way.

Results:
* `asked_add`: the names that come to a name, split at a name on the way.
* `mem_distinct_iff`: which names are in use.
* `getElem?_distinct_eq_iff`: which names are kept.
* `find?_kept_iff`: which columns are found by the name that the header rows give.
-/

namespace SurveyReport.Table

/-! ## Suffixes -/

/-- A name with a number of suffixes. -/
def withCopies (n : Nat) (name : String) : String := (· ++ copySuffix)^[n] name

theorem withCopies_succ (n : Nat) (name : String) :
    withCopies (n + 1) name = withCopies n (name ++ copySuffix) := rfl

theorem withCopies_add (m n : Nat) (name : String) :
    withCopies (m + n) name = withCopies m (withCopies n name) :=
  Function.iterate_add_apply _ m n name

theorem length_withCopies (n : Nat) (name : String) :
    (withCopies n name).toList.length = name.toList.length + 4 * n := by
  induction n generalizing name with
  | zero => rfl
  | succ n ih =>
    have hsuffix : copySuffix.toList.length = 4 := by decide
    rw [withCopies_succ, ih, String.toList_append, List.length_append, hsuffix]
    omega

theorem withCopies_left_inj {m n : Nat} {name : String} :
    withCopies m name = withCopies n name ↔ m = n := by
  refine ⟨fun h => ?_, fun h => by rw [h]⟩
  have hlength := congrArg (fun s : String => s.toList.length) h
  simp only [length_withCopies] at hlength
  omega

theorem withCopies_injective (n : Nat) : Function.Injective (withCopies n) := by
  refine Function.Injective.iterate (fun s t h => ?_) n
  have hlists := congrArg String.toList h
  simp only [String.toList_append] at hlists
  exact String.toList_inj.mp (List.append_cancel_right hlists)

theorem freshName_eq_withCopies (used : List String) (fuel : Nat) (name : String) :
    ∃ k, freshName used fuel name = withCopies k name ∧ ∀ j < k, withCopies j name ∈ used := by
  induction fuel generalizing name with
  | zero => exact ⟨0, rfl, by simp⟩
  | succ fuel ih =>
    rw [freshName]
    split_ifs with hused
    · obtain ⟨k, hk, hall⟩ := ih (name ++ copySuffix)
      refine ⟨k + 1, hk, fun j hj => ?_⟩
      cases j with
      | zero => exact hused
      | succ j => exact hall j (by omega)
    · exact ⟨0, rfl, by simp⟩

/-! ## Names that come to a name -/

/-- How many of the names come to a name with a number of suffixes at most. -/
def asked (names : List String) (n : Nat) (name : String) : Nat :=
  names.countP fun g => ∃ m ≤ n, withCopies m g = name

/-- For some number, more of the names come to a name with so many suffixes at most than there are
    names with fewer suffixes on the way to it. -/
def Crowded (names : List String) (name : String) : Prop := ∃ n, n < asked names n name

theorem asked_concat (names : List String) (g : String) (n : Nat) (name : String) :
    asked (names ++ [g]) n name =
      asked names n name + if ∃ m ≤ n, withCopies m g = name then 1 else 0 := by
  simp [asked, List.countP_append, List.countP_singleton]

theorem asked_le_concat (names : List String) (g : String) (n : Nat) (name : String) :
    asked names n name ≤ asked (names ++ [g]) n name := by
  rw [asked_concat]
  exact Nat.le_add_right _ _

/-- What comes to a name has passed through a name on the way, or began behind it. -/
theorem comes_add_iff (g : String) (a b : Nat) (name : String) :
    (∃ m ≤ a + 1 + b, withCopies m g = withCopies (a + 1) name) ↔
      (∃ m ≤ a, withCopies m g = withCopies (a + 1) name) ∨ ∃ m ≤ b, withCopies m g = name := by
  constructor
  · rintro ⟨m, hm, h⟩
    by_cases hma : m ≤ a
    · exact .inl ⟨m, hma, h⟩
    · obtain ⟨d, rfl⟩ : ∃ d, m = a + 1 + d := ⟨m - (a + 1), by omega⟩
      rw [withCopies_add] at h
      exact .inr ⟨d, by omega, withCopies_injective _ h⟩
  · rintro (⟨m, hm, h⟩ | ⟨m, hm, h⟩)
    · exact ⟨m, by omega, h⟩
    · exact ⟨a + 1 + m, by omega, by rw [withCopies_add, h]⟩

theorem not_comes_both (g : String) (a b : Nat) (name : String)
    (hfront : ∃ m ≤ a, withCopies m g = withCopies (a + 1) name) :
    ¬ ∃ m ≤ b, withCopies m g = name := by
  obtain ⟨m, hm, h⟩ := hfront
  rintro ⟨d, -, rfl⟩
  rw [← withCopies_add, withCopies_left_inj] at h
  omega

theorem asked_add (names : List String) (a b : Nat) (name : String) :
    asked names (a + 1 + b) (withCopies (a + 1) name) =
      asked names a (withCopies (a + 1) name) + asked names b name := by
  induction names with
  | nil => rfl
  | cons g names ih =>
    have hiff := comes_add_iff g a b name
    have hnot := not_comes_both g a b name
    simp only [asked, List.countP_cons, decide_eq_true_eq] at ih ⊢
    rw [ih]
    split_ifs <;> simp_all <;> omega

/-- If a name and all names on the way to it are crowded, so they are taken together: more names come
    to it than there are on the way. -/
theorem lt_asked_of_crowded {names : List String} {g : String} {k : Nat}
    (h : ∀ j ≤ k, Crowded names (withCopies j g)) :
    ∃ n, k ≤ n ∧ n < asked names n (withCopies k g) := by
  induction k using Nat.strongRecOn with
  | ind k ih =>
    obtain ⟨a, ha⟩ := h k (Nat.le_refl k)
    by_cases hka : k ≤ a
    · exact ⟨a, hka, ha⟩
    · -- the names before those that `a` reaches are crowded too
      obtain ⟨j, rfl⟩ : ∃ j, k = a + 1 + j := ⟨k - (a + 1), by omega⟩
      obtain ⟨b, hjb, hb⟩ := ih j (by omega) fun i hi => h i (by omega)
      refine ⟨a + 1 + b, by omega, ?_⟩
      rw [withCopies_add] at ha ⊢
      rw [asked_add]
      omega

/-! ## Names in use -/

section Step

variable {names : List String} {g : String} {k : Nat}
  (hpassed : ∀ j < k, Crowded names (withCopies j g)) (hfree : ¬ Crowded names (withCopies k g))

include hpassed in
/-- The free name that is found is crowded with the name that found it. -/
theorem crowded_concat_found : Crowded (names ++ [g]) (withCopies k g) := by
  cases k with
  | zero =>
    refine ⟨0, ?_⟩
    rw [asked_concat, if_pos ⟨0, Nat.le_refl 0, rfl⟩]
    omega
  | succ k =>
    have hall : ∀ j ≤ k, Crowded names (withCopies j g) := fun j hj => hpassed j (by omega)
    obtain ⟨n, hkn, hn⟩ := lt_asked_of_crowded hall
    refine ⟨n + 1, ?_⟩
    have hstep : asked names n (withCopies k g) ≤ asked names (n + 1) (withCopies (k + 1) g) := by
      have hsplit := asked_add names 0 n (withCopies k g)
      rw [← withCopies_add, Nat.zero_add, Nat.add_comm 1 k, Nat.add_comm 1 n] at hsplit
      omega
    rw [asked_concat, if_pos ⟨k + 1, by omega, rfl⟩]
    omega

include hfree in
/-- No name behind the free one becomes crowded. -/
theorem crowded_of_concat {name : String} (h : Crowded (names ++ [g]) name)
    (hne : name ≠ withCopies k g) (hpast : ∀ j < k, name ≠ withCopies j g) : Crowded names name := by
  obtain ⟨n, hn⟩ := h
  rw [asked_concat] at hn
  split_ifs at hn with hcomes
  · obtain ⟨m, hmn, rfl⟩ := hcomes
    have hkm : k < m := by
      rcases Nat.lt_trichotomy m k with hlt | rfl | hlt
      · exact absurd rfl (hpast m hlt)
      · exact absurd rfl hne
      · exact hlt
    -- too few names come to the free one, so that enough begin behind it
    obtain ⟨a, rfl⟩ : ∃ a, m = a + 1 + k := ⟨m - (k + 1), by omega⟩
    obtain ⟨b, rfl⟩ : ∃ b, n = a + 1 + b := ⟨n - (a + 1), by omega⟩
    have hfew : asked names b (withCopies k g) ≤ b := Nat.le_of_not_lt fun hlt => hfree ⟨b, hlt⟩
    rw [withCopies_add] at hn ⊢
    rw [asked_add] at hn
    exact ⟨a, by omega⟩
  · exact ⟨n, hn⟩

include hpassed hfree in
theorem crowded_concat_iff (name : String) :
    Crowded (names ++ [g]) name ↔ Crowded names name ∨ name = withCopies k g := by
  constructor
  · intro h
    by_cases hne : name = withCopies k g
    · exact .inr hne
    · by_cases hpast : ∀ j < k, name ≠ withCopies j g
      · exact .inl (crowded_of_concat hfree h hne hpast)
      · push Not at hpast
        obtain ⟨j, hj, rfl⟩ := hpast
        exact .inl (hpassed j hj)
  · rintro (⟨n, hn⟩ | rfl)
    · exact ⟨n, hn.trans_le (asked_le_concat names g n name)⟩
    · exact crowded_concat_found hpassed

end Step

theorem distinct_concat (names : List String) (name : String) :
    distinct (names ++ [name]) =
      distinct names ++ [freshName (distinct names) (distinct names).length name] := by
  simp [distinct, addName]

/-- Names that are distinct are kept. -/
theorem distinct_eq_self {names : List String} (h : names.Nodup) : distinct names = names := by
  induction names using List.reverseRecOn with
  | nil => rfl
  | append_singleton names name ih =>
    obtain ⟨hnames, -, hlast⟩ := List.nodup_append.mp h
    have hfree : name ∉ names := fun hmem => hlast name hmem name (by simp) rfl
    rw [distinct_concat, ih hnames, freshName_of_not_mem hfree]

/-- **Names in use.** A name is in use, as it is or as an earlier one with suffixes, just when it is
    crowded. -/
theorem mem_distinct_iff (names : List String) (name : String) :
    name ∈ distinct names ↔ Crowded names name := by
  induction names using List.reverseRecOn generalizing name with
  | nil => simp [distinct, Crowded, asked]
  | append_singleton names g ih =>
    obtain ⟨k, hk, hpassed⟩ := freshName_eq_withCopies (distinct names) (distinct names).length g
    have hfree := freshName_not_mem (distinct names) g
    rw [hk, ih] at hfree
    rw [distinct_concat, hk, List.mem_append, List.mem_singleton, ih]
    exact (crowded_concat_iff (fun j hj => (ih _).mp (hpassed j hj)) hfree name).symm

/-- A given name is always in use. -/
theorem mem_distinct_of_mem {names : List String} {name : String} (h : name ∈ names) :
    name ∈ distinct names := by
  rw [mem_distinct_iff]
  exact ⟨0, List.countP_pos_iff.mpr ⟨name, h, by simp [withCopies]⟩⟩

/-- A name without the suffix is in use only if it is given. -/
theorem mem_distinct_iff_mem {names : List String} {name : String}
    (h : ∀ front, front ++ copySuffix ≠ name) : name ∈ distinct names ↔ name ∈ names := by
  refine ⟨fun hmem => ?_, mem_distinct_of_mem⟩
  have hgiven : name ∈ names ∨ ∃ front, front ++ copySuffix = name :=
    distinct_of_append (p := fun s => s ∈ names ∨ ∃ front, front ++ copySuffix = s)
      (fun s _ => .inr ⟨s, rfl⟩) (fun s hs => .inl hs) name hmem
  exact hgiven.resolve_right fun ⟨front, hfront⟩ => h front hfront

/-! ## Names that are kept -/

/-- Later names change nothing about earlier ones. -/
theorem exists_foldl_addName_eq (used names : List String) :
    ∃ added, names.foldl addName used = used ++ added := by
  induction names generalizing used with
  | nil => exact ⟨[], by simp⟩
  | cons name names ih =>
    obtain ⟨added, hadded⟩ := ih (addName used name)
    exact ⟨_, by rw [List.foldl_cons, hadded, addName, List.append_assoc]⟩

theorem take_distinct (names : List String) (i : Nat) :
    (distinct names).take i = distinct (names.take i) := by
  rcases Nat.le_total i names.length with hle | hle
  · obtain ⟨added, hadded⟩ := exists_foldl_addName_eq (distinct (names.take i)) (names.drop i)
    have hall : distinct names = distinct (names.take i) ++ added := by
      conv_lhs => rw [← List.take_append_drop i names]
      rw [← hadded, distinct, distinct, List.foldl_append]
    have hlength : (distinct (names.take i)).length = i := by
      rw [distinct_length, List.length_take, Nat.min_eq_left hle]
    rw [hall, List.take_left' hlength]
  · rw [List.take_of_length_le hle, List.take_of_length_le (by rwa [distinct_length])]

theorem getElem?_distinct {names : List String} {i : Nat} {name : String} (h : names[i]? = some name) :
    (distinct names)[i]? =
      some (freshName (distinct (names.take i)) (distinct (names.take i)).length name) := by
  obtain ⟨hlt, rfl⟩ := List.getElem?_eq_some_iff.mp h
  have hlength : (distinct (names.take i)).length = i := by
    rw [distinct_length, List.length_take]
    omega
  have hfront := take_distinct names (i + 1)
  rw [List.take_succ_eq_append_getElem hlt, distinct_concat] at hfront
  rw [← List.getElem?_take_of_lt (Nat.lt_succ_self i), hfront,
    List.getElem?_append_right (Nat.le_of_eq hlength)]
  simp [hlength]

/-- **Names that are kept.** A name is kept just when those before it do not crowd it. -/
theorem getElem?_distinct_eq_iff {names : List String} {i : Nat} {name : String}
    (h : names[i]? = some name) :
    (distinct names)[i]? = some name ↔ ¬ Crowded (names.take i) name := by
  rw [getElem?_distinct h, Option.some.injEq, ← mem_distinct_iff]
  constructor
  · intro hkept
    have hfresh := freshName_not_mem (distinct (names.take i)) name
    rwa [hkept] at hfresh
  · exact fun hfree => freshName_of_not_mem hfree _

/-- A crowded name is that of an earlier column. -/
theorem exists_earlier_of_crowded {names : List String} {i : Nat} {name : String}
    (h : Crowded (names.take i) name) : ∃ j < i, (distinct names)[j]? = some name := by
  rw [← mem_distinct_iff, ← take_distinct] at h
  obtain ⟨j, hj, hname⟩ := List.mem_take_iff_getElem.mp h
  exact ⟨j, by omega, List.getElem?_eq_some_iff.mpr ⟨by omega, hname⟩⟩

/-! ## Columns that are found -/

/-- The columns have the names of the header. -/
theorem exists_column_of_header {t : Table} {i : Nat} {name : String}
    (h : t.headers[i]? = some name) : ∃ c, t.columns[i]? = some c ∧ c.name = name := by
  rw [← map_name_columns, List.getElem?_map] at h
  exact Option.map_eq_some_iff.mp h

/-- **Which columns are found by their first name.** The header rows give names to the columns, and
    each is changed until no two are equal. The first column that is given a name keeps it, and is
    found by it, just when the names before do not crowd it. If they do, an earlier column, to which
    another name was given, is found instead. -/
theorem find?_kept_iff {t : Table} {names : List String} (ht : t.headers = distinct names) :
    t.headers.length = names.length ∧ t.headers.Nodup ∧
      ∀ i name, names[i]? = some name → name ∉ names.take i →
        (t.headers[i]? = some name ↔ ¬ Crowded (names.take i) name) ∧
        (¬ Crowded (names.take i) name →
          ∃ c, t.columns[i]? = some c ∧ Column.find? t.columns name = some c) ∧
        (Crowded (names.take i) name →
          ∃ j < i, ∃ other c, names[j]? = some other ∧ other ≠ name ∧
            t.columns[j]? = some c ∧ Column.find? t.columns name = some c) := by
  have hnodup : t.headers.Nodup := ht ▸ nodup_distinct names
  have hfound : ∀ (j : Nat) (name : String), t.headers[j]? = some name →
      ∃ c, t.columns[j]? = some c ∧ Column.find? t.columns name = some c := by
    intro j name hj
    obtain ⟨c, hc, rfl⟩ := exists_column_of_header hj
    exact ⟨c, hc, find?_columns_name hnodup (List.mem_of_getElem? hc)⟩
  refine ⟨ht ▸ distinct_length names, hnodup, fun i name hname hfirst => ?_⟩
  have hkept := getElem?_distinct_eq_iff hname
  rw [← ht] at hkept
  refine ⟨hkept, fun hfree => hfound i name (hkept.mpr hfree), fun hcrowded => ?_⟩
  obtain ⟨j, hji, hj⟩ := exists_earlier_of_crowded hcrowded
  obtain ⟨hi, -⟩ := List.getElem?_eq_some_iff.mp hname
  have hother : names[j]? = some names[j] := List.getElem?_eq_getElem (by omega)
  have hne : names[j] ≠ name := by
    rintro rfl
    exact hfirst (List.mem_take_iff_getElem.mpr ⟨j, by omega, rfl⟩)
  obtain ⟨c, hc, hfind⟩ := hfound j name (ht ▸ hj)
  exact ⟨j, hji, names[j], c, hother, hne, hc, hfind⟩

/-- Two columns of one name and a third with the name that the second of them gets. -/
theorem find?_kept_tea :
    let names := ["Tea", "Tea", "Cups", "Teacopy"]
    ∃ t : Table, t.headers = distinct names ∧
      "Cups" ∉ names.take 2 ∧ "Teacopy" ∉ names.take 3 ∧
      (∃ c, t.columns[2]? = some c ∧ Column.find? t.columns "Cups" = some c) ∧
      ∃ j < 3, ∃ other c, names[j]? = some other ∧ other ≠ "Teacopy" ∧
        t.columns[j]? = some c ∧ Column.find? t.columns "Teacopy" = some c := by
  intro names
  let t := ofRows (distinct names) [["yes", "no", "2", "late"]]
  have hcups : "Cups" ∉ names.take 2 := by decide
  have hcopy : "Teacopy" ∉ names.take 3 := by decide
  have hcrowded : Crowded (names.take 3) "Teacopy" := ⟨1, by decide⟩
  have hkept : t.headers[2]? = some "Cups" := by decide
  obtain ⟨-, -, hall⟩ := @find?_kept_iff t names rfl
  obtain ⟨hiff, hfree, -⟩ := hall 2 "Cups" rfl hcups
  obtain ⟨-, -, htaken⟩ := hall 3 "Teacopy" rfl hcopy
  exact ⟨t, rfl, hcups, hcopy, hfree (hiff.mp hkept), htaken hcrowded⟩

/-- A name that stands only once in the header rows is given to another column with a suffix, and
    that column is found by it. -/
theorem find?_taken_teacopy :
    ["Tea", "Tea", "Teacopy"].count "Teacopy" = 1 ∧
      distinct ["Tea", "Tea", "Teacopy"] = ["Tea", "Teacopy", "Teacopycopy"] ∧
      ∃ t, ofCsv "Tea,Tea,Teacopy\n,,\nyes,no,late\n" = .ok t ∧
        t.headers = distinct ["Tea", "Tea", "Teacopy"] ∧
        ∃ second third, t.columns[1]? = some second ∧ t.columns[2]? = some third ∧
          second.categories = [⟨"no", 1⟩] ∧ third.categories = [⟨"late", 1⟩] ∧
          Column.find? t.columns "Teacopy" = some second := by
  refine ⟨by decide, by decide, ?_⟩
  have hok : (ofCsv "Tea,Tea,Teacopy\n,,\nyes,no,late\n").toOption.map
      (fun t => (t.headers, t.rows)) =
      some (["Tea", "Teacopy", "Teacopycopy"], [["yes", "no", "late"]]) := by decide
  cases h : ofCsv "Tea,Tea,Teacopy\n,,\nyes,no,late\n" with
  | error row =>
    rw [h] at hok
    cases hok
  | ok t =>
    rw [h] at hok
    obtain ⟨headers, rows, width⟩ := t
    obtain ⟨rfl, rfl⟩ : headers = ["Tea", "Teacopy", "Teacopycopy"] ∧
        rows = [["yes", "no", "late"]] := by
      simpa [Except.toOption] using hok
    have hcolumns : (Table.mk ["Tea", "Teacopy", "Teacopycopy"] [["yes", "no", "late"]]
        width).columns = [.ofCells 0 "Tea" ["yes"], .ofCells 1 "Teacopy" ["no"],
          .ofCells 2 "Teacopycopy" ["late"]] := rfl
    have hheaders : ["Tea", "Teacopy", "Teacopycopy"] = distinct ["Tea", "Tea", "Teacopy"] := by
      decide
    refine ⟨_, rfl, hheaders, .ofCells 1 "Teacopy" ["no"], .ofCells 2 "Teacopycopy" ["late"], ?_⟩
    rw [hcolumns]
    exact ⟨rfl, rfl, by decide, by decide, rfl⟩

end SurveyReport.Table
