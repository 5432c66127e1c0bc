import MailMerge.CommandLine.Report
import MailMerge.Proofs.SetUp

/-! # How commands are carried out

A command is put together from setting the program up, reading files and dealing with templates.
How it ends follows from how these parts end.
-/

namespace MailMerge.CommandLine

open Disk Program

variable {α : Type} {home : Path} {d d' : Disk} {f : Failure}

namespace CommandM

variable {context : String} {m : App.SetupM α} {app : App DirectoryStore}

theorem attempt_setup (context : String) (m : App.SetupM α) (d : Disk) :
    attempt (setup context m) d =
      ((attempt m d).1.mapError (Failure.setup context), (attempt m d).2) :=
  attempt_mapError (Failure.setup context) m.run d

theorem attempt_readFile (path : Path) (d : Disk) :
    attempt (readFile path) d = ((d.readText path).mapError (Failure.unreadable path), d) := by
  have hread := attempt_mapError (Failure.unreadable path) (readText path) d
  rwa [run_readText] at hread

theorem attempt_deal (app : App DirectoryStore) (m : StoreM DirectoryStore α) (d : Disk) :
    attempt (deal app m) d =
      ((m.exec app.store d).1.mapError Failure.rejected, (m.exec app.store d).2.2) := by
  show (m.start app.store >>= _).run d = _
  rw [run_bind]
  simp only [StoreM.exec]
  rcases (m.start app.store).run d with ⟨⟨_ | _, _⟩, _⟩ <;> rfl

theorem attempt_setup_eq_error_iff :
    attempt (setup context m) d = (.error f, d') ↔
      ∃ e, attempt m d = (.error e, d') ∧ f = .setup context e := by
  rw [attempt_setup]
  rcases attempt m d with ⟨x | a, d₁⟩
  · constructor
    · intro h
      obtain ⟨hf, rfl⟩ := Prod.mk.inj h
      exact ⟨x, rfl, (Except.error.inj hf).symm⟩
    · rintro ⟨e, h, rfl⟩
      obtain ⟨hx, rfl⟩ := Prod.mk.inj h
      rw [Except.error.inj hx]
      rfl
  · simp

theorem attempt_setup_eq_ok_iff {a : α} :
    attempt (setup context m) d = (.ok a, d') ↔ attempt m d = (.ok a, d') := by
  rw [attempt_setup]
  rcases attempt m d with ⟨_ | _, d₁⟩ <;> simp

theorem attempt_dealt_eq_error_iff {m : StoreM DirectoryStore α} {g : α → String} :
    attempt (deal app m >>= fun a => pure (g a)) d = (.error f, d') ↔
      ∃ e s, m.exec app.store d = (.error e, s, d') ∧ f = .rejected e := by
  rw [attempt_bind, attempt_deal]
  rcases m.exec app.store d with ⟨x | a, s, d₁⟩
  · constructor
    · intro h
      obtain ⟨hf, rfl⟩ := Prod.mk.inj h
      exact ⟨x, s, rfl, (Except.error.inj hf).symm⟩
    · rintro ⟨e, s', h, rfl⟩
      obtain ⟨hx, -, rfl⟩ : x = e ∧ s = s' ∧ d₁ = d' := by simpa using h
      rw [hx]
      rfl
  · simp

end CommandM

/-- The template error that the failure is because of, if it is because of one. -/
def Failure.template? : Failure → Option TemplateError
  | .setup _ (.template e) | .rejected e => some e
  | _ => none

theorem template?_of_readFile {path : Path}
    (h : attempt (CommandM.readFile path) d = (.error f, d')) : f.template? = none := by
  rw [CommandM.attempt_readFile] at h
  cases htext : d.readText path with
  | error fault =>
    rw [htext] at h
    exact Except.error.inj (congrArg Prod.fst h) ▸ rfl
  | ok text =>
    rw [htext] at h
    exact absurd (congrArg Prod.fst h) nofun

theorem template?_of_source {source : Source} (h : attempt source.read d = (.error f, d')) :
    f.template? = none := by
  cases source with
  | inline html => exact absurd (congrArg Prod.fst h) nofun
  | file path => exact template?_of_readFile h

theorem template?_of_toRequest {options : RenderOptions}
    (h : attempt options.toRequest d = (.error f, d')) : f.template? = none := by
  rw [RenderOptions.toRequest] at h
  cases hpath : options.request with
  | none =>
    rw [hpath] at h
    exact absurd (congrArg Prod.fst h) nofun
  | some path =>
    rw [hpath] at h
    rcases attempt_bind_eq_error_iff.mp h with hread | ⟨text, d₁, -, h⟩
    · exact template?_of_readFile hread
    · cases hjson : EmailRequest.ofJson text with
      | error x =>
        rw [hjson] at h
        exact Except.error.inj (congrArg Prod.fst h) ▸ rfl
      | ok r =>
        rw [hjson] at h
        exact absurd (congrArg Prod.fst h) nofun

/-- A command to render ends alike on all options that come to one request, wherever the files of
the disk are kept. -/
theorem attempt_render_congr {o o' : RenderOptions} (hjson : o.json = o'.json)
    (h : ∀ d', Keeps (fun _ => False) d d' → attempt o.toRequest d' = attempt o'.toRequest d') :
    attempt ((Command.render o).perform home) d = attempt ((Command.render o').perform home) d := by
  simp only [Command.perform, attempt_bind]
  rcases hopen : attempt (openApp home) d with ⟨failure | app, d₁⟩
  · rfl
  · have hkeeps : Keeps (fun _ => False) d d₁ :=
      App.keeps_openAt _ (CommandM.attempt_setup_eq_ok_iff.mp hopen)
    simp only [h d₁ hkeeps, hjson]

end MailMerge.CommandLine
