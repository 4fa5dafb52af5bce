import Mathlib.Tactic.SplitIfs
import SurveyReport.Disk

/-!
# Disks only grow

Where a path leads depends on the path and the working directory alone; the disk only says whether the
way is there. Making directories and writing files take no directory away, so that a path that can be
followed once can be followed ever after, to the same place.

Results:
* `trail_eq_target`: a path leads where its names say.
* `makeDirectory_grows`, `write_grows`: no directory is lost.
* `makeDirectory_of_grows`: what is made once need not be made again.
* `Writable.of_grows`: what could be written can still be written when only files have come.
* `readText_of_write`: a text that was written is read back.
-/

namespace SurveyReport.Disk

/-! ## Where paths lead -/

/-- The trail that names lead to from a directory. Two dots go up. -/
def targetFrom (here : Trail) : List String → Trail
  | [] => here
  | ".." :: rest => targetFrom here.dropLast rest
  | name :: rest => targetFrom (here ++ [name]) rest

/-- The trail that a path leads to, whether it can be followed or not. -/
def target (d : Disk) (path : String) : Trail := targetFrom (d.start path) (Path.names path)

/-- The names lead from a directory along directories to a trail. -/
inductive Leads (d : Disk) : Trail → List String → Trail → Prop
  | here (here : Trail) : Leads d here [] here
  | up {here t : Trail} {rest : List String} (h : Leads d here.dropLast rest t) :
      Leads d here (".." :: rest) t
  | last (here : Trail) {name : String} (hname : name ≠ "..") : Leads d here [name] (here ++ [name])
  | down {here t : Trail} {name : String} {rest : List String} (hname : name ≠ "..")
      (hrest : rest ≠ []) (hshort : Path.isTooLong name = false)
      (hdirectory : d.isDirectory (here ++ [name])) (h : Leads d (here ++ [name]) rest t) :
      Leads d here (name :: rest) t

theorem follow_eq_ok_iff {d : Disk} {here t : Trail} {names : List String} :
    d.follow here names = .ok t ↔ Leads d here names t := by
  constructor
  · intro h
    fun_induction follow d here names with
    | case1 here => cases h; exact .here _
    | case2 here rest ih => exact .up (ih h)
    | case3 here name hname => cases h; exact .last _ hname
    | case5 here name rest hname hrest next hshort hdirectory ih =>
      exact .down hname hrest (by simpa using hshort) hdirectory (ih h)
    | case4 | case6 | case7 => contradiction
  · intro h
    induction h with
    | here here => rw [follow]
    | up h ih => rw [follow, ih]
    | last here hname => rw [follow.eq_3 _ _ _ hname]
    | down hname hrest hshort hdirectory h ih =>
      rw [follow.eq_4 _ _ _ _ hname hrest]
      simp [hshort, hdirectory, ih]

theorem Leads.eq_targetFrom {d : Disk} {here t : Trail} {names : List String}
    (h : Leads d here names t) : t = targetFrom here names := by
  induction h with
  | here here => rfl
  | up h ih => rw [ih, targetFrom]
  | last here hname => rw [targetFrom.eq_3 _ _ _ hname, targetFrom]
  | down hname hrest hshort hdirectory h ih => rw [ih, targetFrom.eq_3 _ _ _ hname]

theorem trail_eq_ok_iff {d : Disk} {path : String} {t : Trail} :
    d.trail path = .ok t ↔
      Path.fault? path = none ∧ path ≠ "" ∧ Leads d (d.start path) (Path.names path) t := by
  rw [trail, ← follow_eq_ok_iff]
  cases Path.fault? path with
  | some cause => simp
  | none => by_cases hpath : path = "" <;> simp [hpath]

theorem trail_eq_target {d : Disk} {path : String} {t : Trail} (h : d.trail path = .ok t) :
    t = d.target path :=
  (trail_eq_ok_iff.mp h).2.2.eq_targetFrom

/-! ## Growing -/

/-- The same working directory, and no directory lost. -/
structure Grows (d e : Disk) : Prop where
  working : e.working = d.working
  directories : ∀ t, d.isDirectory t → e.isDirectory t

namespace Grows

variable {d e : Disk}

theorem refl (d : Disk) : Grows d d := ⟨rfl, fun _ h => h⟩

theorem trans {f : Disk} (h : Grows d e) (h' : Grows e f) : Grows d f :=
  ⟨h'.working.trans h.working, fun t ht => h'.directories t (h.directories t ht)⟩

theorem start_eq (h : Grows d e) (path : String) : e.start path = d.start path := by
  rw [start, start, h.working]

theorem target_eq (h : Grows d e) (path : String) : e.target path = d.target path := by
  rw [target, target, h.start_eq]

theorem leads (h : Grows d e) {here t : Trail} {names : List String} (hl : Leads d here names t) :
    Leads e here names t := by
  induction hl with
  | here here => exact .here _
  | up _ ih => exact .up ih
  | last here hname => exact .last _ hname
  | down hname hrest hshort hdirectory _ ih =>
    exact .down hname hrest hshort (h.directories _ hdirectory) ih

theorem trail (h : Grows d e) {path : String} {t : Trail} (ht : d.trail path = .ok t) :
    e.trail path = .ok t := by
  obtain ⟨hfault, hpath, hl⟩ := trail_eq_ok_iff.mp ht
  exact trail_eq_ok_iff.mpr ⟨hfault, hpath, h.start_eq path ▸ h.leads hl⟩

end Grows

/-! ## Making directories -/

theorem isDirectory_cons (d : Disk) (t u : Trail) :
    isDirectory { d with directories := t :: d.directories } u = (u == t || d.isDirectory u) := by
  simp only [isDirectory, List.contains_cons]
  exact Bool.or_left_comm _ _ _

theorem grows_cons (d : Disk) (t : Trail) :
    Grows d { d with directories := t :: d.directories } :=
  ⟨rfl, fun u hu => by simp [isDirectory_cons, hu]⟩

theorem makeAll_grows {d e : Disk} {here : Trail} {names : List String}
    (h : d.makeAll here names = .ok e) : Grows d e ∧ e.files = d.files := by
  fun_induction makeAll d here names with
  | case1 d here => cases h; exact ⟨.refl _, rfl⟩
  | case2 d here rest ih => exact ih h
  | case4 d here name rest hname next hshort hdirectory ih => exact ih h
  | case6 d here name rest hname next hshort hdirectory hfile ih =>
    obtain ⟨hgrows, hfiles⟩ := ih h
    exact ⟨(grows_cons d next).trans hgrows, hfiles⟩
  | case3 | case5 => contradiction

theorem makeDirectory_grows {d e : Disk} {path : String} (h : d.makeDirectory path = .ok e) :
    Grows d e ∧ e.files = d.files := by
  unfold makeDirectory at h
  split at h
  · contradiction
  · exact makeAll_grows h

/-- Directories that are made are there on every disk that has grown since. -/
theorem makeAll_of_grows {d e f : Disk} {here : Trail} {names : List String}
    (h : d.makeAll here names = .ok e) (hgrows : Grows e f) : f.makeAll here names = .ok f := by
  fun_induction makeAll d here names with
  | case1 d here => rw [makeAll]
  | case2 d here rest ih => rw [makeAll]; exact ih h
  | case4 d here name rest hname next hshort hdirectory ih =>
    have hthere := hgrows.directories next ((makeAll_grows h).1.directories next hdirectory)
    rw [makeAll.eq_3 _ _ _ _ hname]
    simp [hshort, hthere, next, ih h]
  | case6 d here name rest hname next hshort hdirectory hfile ih =>
    have hmade := (makeAll_grows h).1.directories next (by simp [isDirectory_cons])
    have hthere := hgrows.directories next hmade
    rw [makeAll.eq_3 _ _ _ _ hname]
    simp [hshort, hthere, next, ih h]
  | case3 | case5 => contradiction

theorem makeDirectory_of_grows {d e f : Disk} {path : String} (h : d.makeDirectory path = .ok e)
    (hgrows : Grows e f) : f.makeDirectory path = .ok f := by
  have hstart : f.start path = d.start path := by
    rw [hgrows.start_eq, (makeDirectory_grows h).1.start_eq]
  unfold makeDirectory at h ⊢
  split at h
  · contradiction
  · rw [hstart]
    exact makeAll_of_grows h hgrows

/-! ## Writing files -/

theorem isDirectory_put (d : Disk) (t u : Trail) (c : Contents) :
    (d.put t c).isDirectory u = d.isDirectory u := rfl

theorem put_grows (d : Disk) (t : Trail) (c : Contents) : Grows d (d.put t c) :=
  ⟨rfl, fun _ h => h⟩

/-- A file can be written at the end of a path: the path can be followed, no directory is there, and
    the path may end in a file. -/
structure Writable (d : Disk) (path : String) : Prop where
  trail : d.trail path = .ok (d.target path)
  not_directory : d.isDirectory (d.target path) = false
  short : endsTooLong (d.target path) = false
  plain : Path.wantsDirectory path = false ∧ Path.endsWithDot path = false

theorem write_eq_ok_iff {d e : Disk} {path : String} {c : Contents} :
    d.write path c = .ok e ↔ Writable d path ∧ e = d.put (d.target path) c := by
  constructor
  · intro h
    obtain ⟨t, ht⟩ : ∃ t, d.trail path = .ok t := by
      cases ht : d.trail path with
      | error cause => simp [write, ht, bind, Except.bind] at h
      | ok t => exact ⟨t, rfl⟩
    obtain rfl := trail_eq_target ht
    simp only [write, ht, bind, Except.bind, throw, throwThe, MonadExceptOf.throw, pure,
      Except.pure] at h
    split_ifs at h with hdirectory hslash hlong hdot
    have hwants : Path.wantsDirectory path = false := by simpa [hdot] using hslash
    cases h
    exact ⟨⟨ht, by simpa using hdirectory, by simpa using hlong, hwants, by simpa using hdot⟩, rfl⟩
  · rintro ⟨⟨htrail, hdirectory, hshort, hwants, hdot⟩, rfl⟩
    simp [write, htrail, hdirectory, hshort, hwants, hdot, bind, Except.bind, pure, Except.pure]

theorem write_grows {d e : Disk} {path : String} {c : Contents} (h : d.write path c = .ok e) :
    Grows d e := by
  obtain ⟨-, rfl⟩ := write_eq_ok_iff.mp h
  exact put_grows _ _ _

/-- Writing changes one file. -/
theorem file?_write {d e : Disk} {path : String} {c : Contents} (h : d.write path c = .ok e)
    {t : Trail} (ht : t ≠ d.target path) : e.file? t = d.file? t := by
  obtain ⟨-, rfl⟩ := write_eq_ok_iff.mp h
  exact file?_put_of_ne d ht c

/-- As long as no directory comes, a file can be written where one could be written. -/
theorem Writable.of_grows {d e : Disk} {path : String} (h : Writable d path) (hgrows : Grows d e)
    (hsame : ∀ t, e.isDirectory t = d.isDirectory t) : Writable e path := by
  have htarget := hgrows.target_eq path
  refine ⟨?_, ?_, ?_, h.plain⟩
  · rw [htarget]; exact hgrows.trail h.trail
  · rw [htarget, hsame]; exact h.not_directory
  · rw [htarget]; exact h.short

theorem text?_ofText (s : String) : (Contents.ofText s).text? = some s := by
  have hvalid : s.toUTF8.IsValidUTF8 := s.isValidUTF8
  rw [Contents.ofText, Contents.text?, String.fromUTF8?, dif_pos hvalid]
  rfl

/-- A text that was written is read back. -/
theorem readText_of_write {d e : Disk} {path text : String}
    (h : d.write path (.ofText text) = .ok e) : e.readText path = .ok text := by
  obtain ⟨hwritable, rfl⟩ := write_eq_ok_iff.mp h
  obtain ⟨htrail, hdirectory, hshort, hwants, -⟩ := hwritable
  simp [readText, (put_grows d _ _).trail htrail, isDirectory_put, hdirectory, hshort,
    file?_put_self, hwants, text?_ofText, bind, Except.bind, pure, Except.pure]

end SurveyReport.Disk
