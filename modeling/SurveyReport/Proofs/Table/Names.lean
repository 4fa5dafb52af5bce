import SurveyReport.Proofs.Table.Export
import SurveyReport.Proofs.Text.Trim

/-!
# Distinct names

A name that is in use already gets suffixes until it is not. Every suffix makes it longer, so that all
names tried differ, and more of them than there are names in use are tried.

Results:
* `freshName_not_mem`: a fresh name is not in use.
* `nodup_distinct`: no two of the names are equal.
* `distinct_of_append`: the names have what the given names have and suffixes keep.
* `proper_of_mem_headers`: the columns of an export have names without blanks around them.
-/

namespace SurveyReport.Table

/-! ## Fresh names -/

/-- Names in use that are as long as a name at least. -/
def noShorter (used : List String) (name : String) : List String :=
  used.filter fun u => name.toList.length ≤ u.toList.length

theorem length_noShorter_append_lt {used : List String} {name : String} (h : name ∈ used) :
    (noShorter used (name ++ copySuffix)).length < (noShorter used name).length := by
  have hsub : noShorter used (name ++ copySuffix) =
      (noShorter used name).filter fun u =>
        (name ++ copySuffix).toList.length ≤ u.toList.length := by
    rw [noShorter, noShorter, List.filter_filter]
    refine List.filter_congr fun u _ => ?_
    simp only [String.toList_append, List.length_append]
    grind
  rw [hsub]
  refine List.length_filter_lt_length_iff_exists.mpr ⟨name, ?_, ?_⟩
  · simp [noShorter, h]
  · simp [copySuffix]

/-- A name that is still in use after some suffixes has as many predecessors in use. -/
theorem lt_length_of_freshName_mem {used : List String} {fuel : Nat} {name : String}
    (h : freshName used fuel name ∈ used) : fuel < (noShorter used name).length := by
  induction fuel generalizing name with
  | zero =>
    have hmem : name ∈ noShorter used name := by simpa [noShorter, freshName] using h
    exact List.length_pos_of_mem hmem
  | succ fuel ih =>
    rw [freshName] at h
    split at h
    · rename_i hname
      have hlt := length_noShorter_append_lt hname
      have := ih h
      omega
    · contradiction

theorem freshName_not_mem (used : List String) (name : String) :
    freshName used used.length name ∉ used := by
  intro h
  have hlt := lt_length_of_freshName_mem h
  have hle : (noShorter used name).length ≤ used.length := List.length_filter_le _ _
  omega

/-- A fresh name has what the name has and suffixes keep. -/
theorem freshName_of_append {p : String → Prop} (happend : ∀ name, p name → p (name ++ copySuffix))
    (used : List String) (fuel : Nat) {name : String} (h : p name) :
    p (freshName used fuel name) := by
  induction fuel generalizing name with
  | zero => exact h
  | succ fuel ih =>
    unfold freshName
    split
    · exact ih (happend name h)
    · exact h

/-! ## All names -/

theorem nodup_foldl_addName {used : List String} (h : used.Nodup) (names : List String) :
    (names.foldl addName used).Nodup := by
  induction names generalizing used with
  | nil => exact h
  | cons name names ih =>
    refine ih (List.nodup_append.mpr ⟨h, by simp, ?_⟩)
    intro u hu v hv
    rw [List.mem_singleton.mp hv]
    rintro rfl
    exact freshName_not_mem used name hu

theorem nodup_distinct (names : List String) : (distinct names).Nodup :=
  nodup_foldl_addName List.nodup_nil names

theorem foldl_addName_of_append {p : String → Prop}
    (happend : ∀ name, p name → p (name ++ copySuffix)) {used names : List String}
    (hused : ∀ name ∈ used, p name) (h : ∀ name ∈ names, p name) :
    ∀ name ∈ names.foldl addName used, p name := by
  induction names generalizing used with
  | nil => exact hused
  | cons name names ih =>
    refine ih ?_ fun n hn => h n (by simp [hn])
    intro n hn
    rcases List.mem_append.mp hn with hn | hn
    · exact hused n hn
    · rw [List.mem_singleton.mp hn]
      exact freshName_of_append happend used used.length (h name (by simp))

theorem distinct_of_append {p : String → Prop} (happend : ∀ name, p name → p (name ++ copySuffix))
    {names : List String} (h : ∀ name ∈ names, p name) : ∀ name ∈ distinct names, p name :=
  foldl_addName_of_append happend (by simp) h

/-! ## Names without blanks around them -/

/-- A column name that is not empty and has no blanks around it. -/
def Proper (name : String) : Prop := name ≠ "" ∧ Text.Trimmed Text.isBlank name.toList

theorem Proper.append {name : String} (h : Proper name) : Proper (name ++ copySuffix) := by
  obtain ⟨hne, hhead, -⟩ := h
  have hnil : name.toList ≠ [] := fun hnil => hne (String.toList_eq_nil_iff.mp hnil)
  obtain ⟨c, rest, hname⟩ := List.exists_cons_of_ne_nil hnil
  have hsuffix : copySuffix.toList = ['c', 'o', 'p', 'y'] := by decide
  refine ⟨by simp [copySuffix], ?_, ?_⟩
  · rw [String.toList_append, hname]
    intro d hd
    refine hhead d ?_
    simpa [hname] using hd
  · rw [String.toList_append, hsuffix]
    intro d hd
    obtain rfl : 'y' = d := by simpa using hd
    decide

theorem Proper.strip_eq {name : String} (h : Proper name) : Text.strip name = name := by
  rw [Text.strip, Text.trim_eq_self h.2, String.ofList_toList]

theorem proper_strip {s : String} (h : Text.strip s ≠ "") : Proper (Text.strip s) :=
  ⟨h, by rw [Text.strip, String.toList_ofList]; exact Text.trimmed_trim _ _⟩

theorem proper_of_heading {first second : Option String} {name : String}
    (h : heading first second = some name) : Proper name := by
  unfold heading at h
  dsimp only at h
  split_ifs at h with hsecond hfirst
  · obtain rfl := Option.some.inj h
    exact proper_strip hsecond.1
  · obtain rfl := Option.some.inj h
    exact proper_strip hfirst

theorem proper_of_mem_headers {first second : List String} {records : List (List Char)} :
    ∀ name ∈ (build first second records).headers, Proper name := by
  refine distinct_of_append (fun _ => Proper.append) ?_
  intro name hname
  obtain ⟨⟨position, name⟩, hcolumn, rfl⟩ := List.mem_map.mp hname
  exact proper_of_heading ((mem_headings first second position name).mp hcolumn).2

end SurveyReport.Table
