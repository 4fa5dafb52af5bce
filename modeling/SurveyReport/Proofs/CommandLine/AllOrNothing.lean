import SurveyReport.CommandLine
import SurveyReport.Proofs.Pass.Kept

/-!
# All of the document or nothing

The program reads everything before it writes the document, and it writes the document last. When it
stops before, the file that the document would go to is as it was and nothing is put out. When it ends
well, the document is that of a complete pass over what the files held at the start, even if it is
written over one of them.

Results:
* `jobOf_eq_ok_iff`: a job is read exactly when all the files can be.
* `completes_iff`, `file?_fill`: filling the template is a pass, and touches no file but the pictures.
* `report_of_ok`, `file?_report_of_error`: what is left when a report ends well, and when it stops.
* `run_allOrNothing`: both ways a report can end.
-/

namespace SurveyReport

theorem Palette.eq_of_colours {p q : Palette} (h : p.colours = q.colours) : p = q := by
  cases p; cases q; cases h; rfl

namespace CommandLine

/-! ## What the files hold -/

/-- The options that the arguments name: those of a file, or the ones that nothing sets. -/
def OptionsAre (a : Arguments) (d : Disk) (o : Options) : Prop :=
  match a.options with
  | none => o = .initial
  | some path => ∃ text, d.readText path = .ok text ∧ Options.parse? text = some o

/-- What the files that the arguments name hold: options, the table of an export, a template. -/
structure Sources (a : Arguments) (d : Disk) (o : Options) (t : Table) (template : String) :
    Prop where
  options : OptionsAre a d o
  survey : ∃ text, d.readText a.survey = .ok text ∧ Table.ofCsv text = .ok t
  template : d.readText a.template = .ok template

/-- Where the pictures go. The arguments come before the options. -/
def directoryOf (a : Arguments) (o : Options) : String := a.imageDirectory.getD o.imageDirectory

/-- The job that sources make up. -/
def job (a : Arguments) (o : Options) (t : Table) (template : String) : Job where
  columns := t.columns
  template := .ofText template
  options := { o with imageDirectory := directoryOf a o, strict := a.strict || o.strict }

@[simp] theorem initialPalette_job (a : Arguments) (o : Options) (t : Table) (template : String) :
    (job a o t template).options.initialPalette = o.initialPalette := rfl

@[simp] theorem pictureSize?_job (a : Arguments) (o : Options) (t : Table) (template : String) :
    (job a o t template).options.pictureSize? = o.pictureSize? := rfl

theorem optionsOf_eq_ok_iff {a : Arguments} {d : Disk} {o : Options} :
    optionsOf d a.options = .ok o ↔ OptionsAre a d o := by
  unfold optionsOf OptionsAre
  cases a.options with
  | none => simp [eq_comm]
  | some path =>
    cases hread : d.readText path with
    | error cause => simp [hread]
    | ok text => cases hparse : Options.parse? text <;> simp [hread, hparse]

theorem tableOf_eq_ok_iff {d : Disk} {path : String} {t : Table} :
    tableOf d path = .ok t ↔ ∃ text, d.readText path = .ok text ∧ Table.ofCsv text = .ok t := by
  unfold tableOf
  cases d.readText path with
  | error cause => simp
  | ok text => cases h : Table.ofCsv text <;> simp [h]

theorem templateOf_eq_ok_iff {d : Disk} {path : String} {t : Template} :
    templateOf d path = .ok t ↔ ∃ text, d.readText path = .ok text ∧ t = .ofText text := by
  unfold templateOf
  cases d.readText path <;> simp [eq_comm]

theorem jobOf_eq_ok_iff {a : Arguments} {d : Disk} {j : Job} :
    jobOf a d = .ok j ↔ ∃ o t template, Sources a d o t template ∧ j = job a o t template := by
  constructor
  · intro h
    unfold jobOf at h
    cases ho : optionsOf d a.options with
    | error stop => simp [ho, bind, Except.bind] at h
    | ok o =>
      cases ht : tableOf d a.survey with
      | error stop => simp [ho, ht, bind, Except.bind] at h
      | ok t =>
        cases htemplate : templateOf d a.template with
        | error stop => simp [ho, ht, htemplate, bind, Except.bind] at h
        | ok template =>
          obtain ⟨text, hread, rfl⟩ := templateOf_eq_ok_iff.mp htemplate
          refine ⟨o, t, text, ⟨optionsOf_eq_ok_iff.mp ho, tableOf_eq_ok_iff.mp ht, hread⟩, ?_⟩
          simpa [ho, ht, htemplate, bind, Except.bind, pure, Except.pure, eq_comm, job,
            directoryOf] using h
  · rintro ⟨o, t, template, ⟨ho, ht, htemplate⟩, rfl⟩
    simp [jobOf, optionsOf_eq_ok_iff.mpr ho, tableOf_eq_ok_iff.mpr ht,
      templateOf_eq_ok_iff.mpr ⟨template, htemplate, rfl⟩, job, directoryOf, bind, Except.bind, pure,
      Except.pure]

/-! ## Complete passes -/

/-- The colours that a report starts with: those of the options, or the usual ones where these name
    none. -/
def startColours (o : Options) : List Colour :=
  match o.palette with
  | none | some [] => Palette.initial.colours
  | some colours => colours

theorem colours_initialPalette (o : Options) : o.initialPalette.colours = startColours o := by
  unfold Options.initialPalette startColours
  match o.palette with
  | none => rfl
  | some [] => rfl
  | some (_ :: _) => rfl

/-- A pass over the sources comes to its end and leaves a document and a disk. It starts with the
    colours of the options, and it is strict when the arguments or the options say so. -/
def Completes (a : Arguments) (d : Disk) (o : Options) (t : Table) (template document : String)
    (e : Disk) : Prop :=
  ∃ (palette : Palette) (report : Report) (u : Template),
    palette.colours = startColours o ∧ u.text = document ∧
      if a.listing then
        ∃ l, Pass.run (Template.host Listed.renderer) t.columns palette (a.strict || o.strict)
          (.ofText template, .empty) = (.ok report, u, l) ∧ e = d
      else
        ∃ count, Pass.run (Template.host (Gallery.renderer ⟨directoryOf a o, o.pictureSize?⟩))
          t.columns palette (a.strict || o.strict) (.ofText template, ⟨d, 0⟩) =
            (.ok report, u, ⟨e, count⟩)

theorem completes_iff {a : Arguments} {d : Disk} {o : Options} {t : Table}
    {template document : String} {e : Disk} :
    Completes a d o t template document e ↔
      ∃ report, (fill (job a o t template) a.listing d).report = .ok report ∧
        (fill (job a o t template) a.listing d).document = document ∧
        (fill (job a o t template) a.listing d).disk = e := by
  have hpalette : ∀ p : Palette, p.colours = startColours o ↔ p = o.initialPalette := fun p =>
    ⟨fun h => Palette.eq_of_colours (h.trans (colours_initialPalette o).symm),
      fun h => h ▸ colours_initialPalette o⟩
  unfold Completes fill
  simp only [hpalette, initialPalette_job, pictureSize?_job]
  cases a.listing with
  | true =>
    constructor
    · rintro ⟨palette, report, u, rfl, rfl, l, hrun, rfl⟩
      exact ⟨report, by simp [job, hrun]⟩
    · rintro ⟨report, hreport, hdocument, hdisk⟩
      rcases hrun : Pass.run (Template.host Listed.renderer) t.columns o.initialPalette
        (a.strict || o.strict) (.ofText template, .empty) with ⟨result, u, l⟩
      simp only [job, hrun, if_true] at hreport hdocument hdisk
      subst hreport
      exact ⟨_, report, u, rfl, hdocument, l, hrun, hdisk.symm⟩
  | false =>
    constructor
    · rintro ⟨palette, report, u, rfl, rfl, count, hrun⟩
      exact ⟨report, by simp [job, hrun]⟩
    · rintro ⟨report, hreport, hdocument, hdisk⟩
      rcases hrun : Pass.run (Template.host (Gallery.renderer ⟨directoryOf a o, o.pictureSize?⟩))
        t.columns o.initialPalette (a.strict || o.strict) (.ofText template, ⟨d, 0⟩) with
        ⟨result, u, disk, count⟩
      simp only [job, hrun, if_false, Bool.false_eq_true] at hreport hdocument hdisk
      subst hreport hdisk
      exact ⟨_, report, u, rfl, hdocument, count, hrun⟩

/-! ## Files apart from the pictures -/

/-- A path leads to the same file as the path of a picture. -/
def IsPicture (a : Arguments) (d : Disk) (path : String) : Prop :=
  ∃ o number, OptionsAre a d o ∧ 0 < number ∧
    d.target (Path.join (directoryOf a o) (Gallery.name number)) = d.target path

/-- Whatever every action of a pass keeps, filling a template keeps of the disk. -/
theorem fill_keeps {a : Arguments} {d : Disk} {o : Options} {t : Table} {template : String}
    {P : Disk → Prop} (hd : P d)
    (hkeeps : a.listing = false →
      (Template.host (Gallery.renderer ⟨directoryOf a o, o.pictureSize?⟩)).Keeps fun s => P s.2.disk) :
    P (fill (job a o t template) a.listing d).disk := by
  unfold fill
  simp only [initialPalette_job, pictureSize?_job]
  cases hlisting : a.listing with
  | true => exact hd
  | false =>
    have hkept := Pass.run_keeps (hkeeps hlisting) t.columns o.initialPalette (a.strict || o.strict)
      (s := (.ofText template, ⟨d, 0⟩)) hd
    rcases hrun : Pass.run (Template.host (Gallery.renderer ⟨directoryOf a o, o.pictureSize?⟩))
      t.columns o.initialPalette (a.strict || o.strict) (.ofText template, ⟨d, 0⟩) with
      ⟨result, u, gallery⟩
    rw [hrun] at hkept
    simpa only [job, hrun, if_false, Bool.false_eq_true] using hkept

theorem fill_grows (a : Arguments) (d : Disk) (o : Options) (t : Table) (template : String) :
    Disk.Grows d (fill (job a o t template) a.listing d).disk :=
  fill_keeps (.refl d) fun _ => Gallery.host_keeps_grows d _

/-- Filling a template leaves a file alone that no picture goes to. With listings it leaves all files
    alone. -/
theorem file?_fill {a : Arguments} {d : Disk} {o : Options} {t : Table} {template path : String}
    (ho : OptionsAre a d o) (hpath : a.listing = true ∨ ¬ IsPicture a d path) :
    (fill (job a o t template) a.listing d).disk.file? (d.target path) =
      d.file? (d.target path) := by
  refine (fill_keeps (P := fun e => Disk.Grows d e ∧ e.file? (d.target path) = d.file? (d.target path))
    ⟨.refl d, rfl⟩ fun hlisting => ?_).2
  have hother : ¬ IsPicture a d path := hpath.resolve_left (by simp [hlisting])
  exact Gallery.host_keeps_file fun number hnumber htarget =>
    hother ⟨o, number, ho, hnumber, htarget⟩

/-! ## The program -/

/-- The document is where the arguments want it: on the standard output, or in a file, and then
    nothing else has changed since the pass. -/
def Delivered (d : Disk) (output : Option String) (document : String) (disk : Disk) (out : String)
    (e : Disk) : Prop :=
  match output with
  | none => out = document ∧ e = disk
  | some path =>
    out = "" ∧ e.readText path = .ok document ∧ e = disk.put (d.target path) (.ofText document)

theorem delivered_of_deliver {d disk e : Disk} {output : Option String} {document out : String}
    (hgrows : Disk.Grows d disk) (h : deliver document disk output = (.ok out, e)) :
    Delivered d output document disk out e := by
  unfold deliver at h
  cases output with
  | none =>
    cases h
    exact ⟨rfl, rfl⟩
  | some path =>
    simp only at h
    cases hwrite : disk.write path (.ofText document) with
    | error cause => simp [hwrite] at h
    | ok written =>
      simp only [hwrite] at h
      cases h
      have hput := (Disk.write_eq_ok_iff.mp hwrite).2
      rw [hgrows.target_eq] at hput
      exact ⟨rfl, Disk.readText_of_write hwrite, hput⟩

theorem report_of_ok {a : Arguments} {d e : Disk} {out listings : String}
    (h : report a d = (.ok out, listings, e)) :
    ∃ o t template document disk, Sources a d o t template ∧
      Completes a d o t template document disk ∧ Delivered d a.output document disk out e := by
  unfold report at h
  cases hjob : jobOf a d with
  | error stop => simp [hjob] at h
  | ok j =>
    obtain ⟨o, t, template, hsources, rfl⟩ := jobOf_eq_ok_iff.mp hjob
    have hgrows := fill_grows a d o t template
    have hcompletes : ∀ r, (fill (job a o t template) a.listing d).report = .ok r →
        Completes a d o t template _ _ := fun r hr => completes_iff.mpr ⟨r, hr, rfl, rfl⟩
    simp only [hjob] at h
    generalize fill (job a o t template) a.listing d = filled at h hgrows hcompletes
    cases hreport : filled.report with
    | error failure => simp [hreport] at h
    | ok r =>
      simp only [hreport, Prod.mk.injEq] at h
      refine ⟨o, t, template, filled.document, filled.disk, hsources, hcompletes r hreport, ?_⟩
      exact delivered_of_deliver hgrows (Prod.ext h.1 h.2.2)

theorem file?_report_of_error {a : Arguments} {d e : Disk} {stop : Stop} {listings path : String}
    (h : report a d = (.error stop, listings, e))
    (hpath : a.listing = true ∨ ¬ IsPicture a d path) :
    e.file? (d.target path) = d.file? (d.target path) := by
  unfold report at h
  cases hjob : jobOf a d with
  | error stop =>
    simp only [hjob] at h
    cases h
    rfl
  | ok j =>
    obtain ⟨o, t, template, hsources, rfl⟩ := jobOf_eq_ok_iff.mp hjob
    have hfile : (fill (job a o t template) a.listing d).disk.file? (d.target path) =
        d.file? (d.target path) := file?_fill hsources.options hpath
    simp only [hjob] at h
    generalize fill (job a o t template) a.listing d = filled at h hfile
    cases hreport : filled.report with
    | error failure =>
      simp only [hreport, Prod.mk.injEq] at h
      obtain ⟨-, -, rfl⟩ := h
      exact hfile
    | ok r =>
      simp only [hreport, Prod.mk.injEq] at h
      obtain ⟨hstop, -, rfl⟩ := h
      rcases hdeliver : deliver filled.document filled.disk a.output with ⟨result, disk⟩
      rw [hdeliver] at hstop
      obtain rfl : result = .error stop := hstop
      rw [deliver_error hdeliver]
      exact hfile

/-- **All of the document or nothing.** When the program stops before its end, it puts nothing out, and
    the file for the document is neither made nor changed, unless a picture goes to the same file. When
    it ends well, the document of a complete pass over what the files held at the start is on the
    standard output, or in its file, which may be one of those that were read. -/
theorem run_allOrNothing {arguments : List String} {a : Arguments}
    (ha : Request.read arguments = .report a) (d : Disk) :
    let e := run arguments d
    (e.code ≠ 0 → e.out = "" ∧ ∀ path, a.output = some path →
      a.listing = true ∨ ¬ IsPicture a d path →
        e.disk.file? (d.target path) = d.file? (d.target path)) ∧
    (e.code = 0 → ∃ o t template document disk, Sources a d o t template ∧
      Completes a d o t template document disk ∧
      Delivered d a.output document disk e.out e.disk) := by
  rcases hreport : report a d with ⟨stop | out, listings, e⟩
  · rw [run_of_error ha hreport]
    exact ⟨fun _ => ⟨rfl, fun path _ hpath => file?_report_of_error hreport hpath⟩, by simp⟩
  · rw [run_of_ok ha hreport]
    exact ⟨by simp, fun _ => report_of_ok hreport⟩

/-- The document goes into the file of its template. -/
theorem run_allOrNothing_own_template :
    let a : Arguments := ⟨"survey.csv", "report.txt", some "report.txt", none, none, false, false⟩
    let d : Disk :=
      ⟨[], [(["survey.csv"], .ofText "Tea\nTea\nyes\n"),
        (["report.txt"], .ofText "\x7b\x7b\x7btext;count;Tea\x7d\x7d\x7d")], []⟩
    let e := run ["survey.csv", "report.txt", "-o", "report.txt"] d
    Request.read ["survey.csv", "report.txt", "-o", "report.txt"] = .report a ∧ e.code = 0 ∧
      ∃ o t template document disk, Sources a d o t template ∧
        Completes a d o t template document disk ∧
        Delivered d (some "report.txt") document disk e.out e.disk :=
  ⟨rfl, rfl, (run_allOrNothing rfl _).2 rfl⟩

end CommandLine

end SurveyReport
