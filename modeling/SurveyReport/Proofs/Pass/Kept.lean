import SurveyReport.Pass.Renderers
import SurveyReport.Proofs.Disk.Growth

/-!
# What a pass keeps

A property of the state that every action of a host keeps is kept by the whole pass, whether it ends
well or not. Saving pictures makes disks grow and changes no file but the pictures.

Results:
* `run_keeps`: what every action keeps, a pass keeps.
* `save_grows`, `file?_save`: a picture that is saved, or not saved, leaves all other files alone.
* `host_keeps_grows`, `host_keeps_file`: so does every action of a pass that draws.
-/

namespace SurveyReport

/-! ## Passes -/

/-- Every action of a host keeps a property of the state, also when it fails. -/
structure Host.Keeps {σ : Type} (host : Host σ) (P : σ → Prop) : Prop where
  next : ∀ s, P s → P (host.next s).2
  replace : ∀ text s, P s → P (host.replace text s).2
  replaceWithImage : ∀ path title s, P s → P (host.replaceWithImage path title s).2
  render : ∀ chart s, P s → P (host.render chart s).2

namespace Pass

variable {σ : Type} {host : Host σ} {P : σ → Prop}

theorem put_keeps (h : host.Keeps P) (o : Outcome) {s : σ} (hs : P s) : P (put host o s).2 := by
  cases o with
  | text t => exact h.replace t s hs
  | declaration => exact h.replace "" s hs
  | chart c =>
    have hkept := h.render c s hs
    rcases hrendered : host.render c s with ⟨fault | path, t⟩
    · rw [hrendered] at hkept
      rw [put_chart_of_error hrendered]
      exact hkept
    · rw [hrendered] at hkept
      rw [put_chart_of_ok hrendered]
      exact h.replaceWithImage path c.title t hkept

theorem go_keeps (h : host.Keeps P) (columns : List Column) (strict : Bool) (fuel : Nat)
    (setting : Setting) (report : Report) {s : σ} (hs : P s) :
    P (go host columns strict fuel setting report s).2 := by
  induction fuel generalizing setting report s with
  | zero => exact hs
  | succ fuel ih =>
    have hnext := h.next s hs
    rw [go]
    generalize host.next s = handed at hnext ⊢
    obtain ⟨fault | raw | raw, s'⟩ := handed
    · exact hnext
    · exact hnext
    · simp only at hnext ⊢
      generalize outcomeOf columns setting raw = result
      obtain ⟨failure | outcome, setting'⟩ := result
      · cases strict with
        | true => exact hnext
        | false => exact ih setting' (report.record raw failure) hnext
      · have hput := put_keeps h outcome hnext
        simp only
        generalize put host outcome s' = done at hput ⊢
        obtain ⟨fault | _, s''⟩ := done
        · exact hput
        · exact ih setting' (report.enter outcome) hput

theorem run_keeps (h : host.Keeps P) (columns : List Column) (palette : Palette) (strict : Bool)
    {s : σ} (hs : P s) : P (run host columns palette strict s).2 :=
  go_keeps h columns strict _ _ _ hs

end Pass

/-- The template is the host's own affair: what a renderer keeps, its host keeps. -/
theorem Template.host_keeps {ρ : Type} {renderer : Renderer ρ} {P : ρ → Prop}
    (h : ∀ c r, P r → P (renderer.render c r).2) :
    (Template.host renderer).Keeps fun s => P s.2 where
  next _ hs := hs
  replace text s hs := by
    simp only [host, attempt]
    split <;> exact hs
  replaceWithImage path title s hs := by
    simp only [host, attempt]
    split <;> exact hs
  render c s hs := h c s.2 hs

/-! ## Pictures -/

/-- The path of the picture with a number. -/
def Frame.path (f : Frame) (number : Nat) : String := Path.join f.directory (Gallery.name number)

namespace Gallery

variable {d : Disk} {t : Trail} {f : Frame}

theorem save_grows (f : Frame) (picture : Picture) (g : Gallery) :
    Disk.Grows g.disk (save f picture g).2.disk := by
  unfold save
  cases hmade : g.disk.makeDirectory f.directory with
  | error cause => exact .refl _
  | ok made =>
    have hgrows := (Disk.makeDirectory_grows hmade).1
    dsimp only
    cases hwritten : made.write (Path.join f.directory (name (g.count + 1))) (.drawing picture) with
    | error cause => exact hgrows
    | ok written => exact hgrows.trans (Disk.write_grows hwritten)

/-- Saving a picture changes no other file, whether it can be saved or not. -/
theorem file?_save {picture : Picture} {g : Gallery}
    (ht : g.disk.target (f.path (g.count + 1)) ≠ t) :
    (save f picture g).2.disk.file? t = g.disk.file? t := by
  unfold save
  cases hmade : g.disk.makeDirectory f.directory with
  | error cause => rfl
  | ok made =>
    obtain ⟨hgrows, hfiles⟩ := Disk.makeDirectory_grows hmade
    have hfile : made.file? t = g.disk.file? t := by rw [Disk.file?, hfiles, Disk.file?]
    dsimp only
    cases hwritten : made.write (Path.join f.directory (name (g.count + 1))) (.drawing picture) with
    | error cause => exact hfile
    | ok written =>
      have hother : t ≠ made.target (f.path (g.count + 1)) := by
        rw [hgrows.target_eq]
        exact ht.symm
      exact (Disk.file?_write hwritten hother).trans hfile

theorem host_keeps_grows (d : Disk) (f : Frame) :
    (Template.host (renderer f)).Keeps fun s => Disk.Grows d s.2.disk := by
  refine Template.host_keeps (P := fun g : Gallery => Disk.Grows d g.disk) fun c g hg => ?_
  simp only [renderer]
  split
  · exact hg
  · exact hg.trans (save_grows f _ g)

theorem host_keeps_file (ht : ∀ number, 0 < number → d.target (f.path number) ≠ t) :
    (Template.host (renderer f)).Keeps fun s =>
      Disk.Grows d s.2.disk ∧ s.2.disk.file? t = d.file? t := by
  refine Template.host_keeps
    (P := fun g : Gallery => Disk.Grows d g.disk ∧ g.disk.file? t = d.file? t) fun c g hg => ?_
  obtain ⟨hgrows, hfile⟩ := hg
  simp only [renderer]
  split
  · exact ⟨hgrows, hfile⟩
  · have hother : g.disk.target (f.path (g.count + 1)) ≠ t := by
      rw [hgrows.target_eq]
      exact ht _ (Nat.succ_pos _)
    exact ⟨hgrows.trans (save_grows f _ g), (file?_save hother).trans hfile⟩

end Gallery

end SurveyReport
