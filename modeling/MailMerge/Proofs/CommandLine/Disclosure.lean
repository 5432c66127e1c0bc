import Mathlib.Data.List.Basic
import MailMerge.Proofs.CommandLine.Perform
import MailMerge.Proofs.Store.Errors

/-! # What a report discloses

A command that runs into a template error while it deals with the templates reports it as the
outside may know it: a storage error always in the same words, whatever its path and its cause. A
command whose program cannot be set up because of a storage error reports the causes as they are.
-/

namespace MailMerge

open Disk Program Utf8

namespace CommandLine

variable {α : Type} {home : Path} {d d' : Disk} {e : TemplateError} {f : Failure}

namespace Command

def setUp (home : Path) : Command → App.SetupM (App DirectoryStore)
  | init => App.initAt home
  | _ => App.openAt home

def context : Command → String
  | init => "failed to initialise mailplate"
  | _ => openContext

/-- Dealing with the templates of the program that was set up, the command ends with an error. -/
inductive RunsInto (app : App DirectoryStore) (d : Disk) (e : TemplateError) (d' : Disk) :
    Command → Prop
  | list {json : Bool} {s : DirectoryStore}
    (hfails : Catalog.list.exec app.store d = (.error e, s, d')) : RunsInto app d e d' (list json)
  | print {name : String} {s : DirectoryStore}
    (hfails : (Catalog.get name).exec app.store d = (.error e, s, d')) :
    RunsInto app d e d' (print name)
  | create {name html : String} {source : Source} {d₁ : Disk} {s : DirectoryStore}
    (hread : attempt source.read d = (.ok html, d₁))
    (hfails : (Catalog.create ⟨name, html⟩).exec app.store d₁ = (.error e, s, d')) :
    RunsInto app d e d' (create name source)
  | update {name html : String} {newName : Option String} {source : Source} {d₁ : Disk}
    {s : DirectoryStore} (hread : attempt source.read d = (.ok html, d₁))
    (hfails : (App.update app.settings name ⟨newName.getD name, html⟩).exec app.store d₁ =
      (.error e, s, d')) : RunsInto app d e d' (update name newName source)
  | delete {name : String} {s : DirectoryStore}
    (hfails : (Catalog.delete name).exec app.store d = (.error e, s, d')) :
    RunsInto app d e d' (delete name)
  | render {options : RenderOptions} {r : EmailRequest} {d₁ : Disk} {s : DirectoryStore}
    (hread : attempt options.toRequest d = (.ok r, d₁))
    (hfails : (App.compose app.settings r).exec app.store d₁ = (.error e, s, d')) :
    RunsInto app d e d' (render options)

inductive Phase
  | settingUp
  | dealing

/-- The command fails because of a template error, met in this phase of it. -/
inductive FailsIn (home : Path) (d : Disk) (c : Command) (e : TemplateError) (d' : Disk) :
    Phase → Prop
  | settingUp (hfails : attempt (c.setUp home) d = (.error (.template e), d')) :
    FailsIn home d c e d' .settingUp
  | dealing {app : App DirectoryStore} {d₁ : Disk}
    (hsetUp : attempt (c.setUp home) d = (.ok app, d₁)) (hfails : c.RunsInto app d₁ e d') :
    FailsIn home d c e d' .dealing

def failure (c : Command) (e : TemplateError) : Phase → Failure
  | .settingUp => .setup c.context (.template e)
  | .dealing => .rejected e

theorem attempt_perform_of_failsIn {c : Command} {phase : Phase}
    (h : c.FailsIn home d e d' phase) :
    attempt (c.perform home) d = (.error (c.failure e phase), d') := by
  cases h with
  | settingUp hfails =>
    have hsetup : attempt (CommandM.setup c.context (c.setUp home)) d =
        (.error (.setup c.context (.template e)), d') :=
      CommandM.attempt_setup_eq_error_iff.mpr ⟨_, hfails, rfl⟩
    cases c <;> exact attempt_bind_eq_error_iff.mpr (.inl hsetup)
  | @dealing app d₁ hsetUp hfails =>
    have hsetup : attempt (CommandM.setup c.context (c.setUp home)) d = (.ok app, d₁) :=
      CommandM.attempt_setup_eq_ok_iff.mpr hsetUp
    cases hfails with
    | @list json s hfails =>
      refine attempt_bind_eq_error_iff.mpr (.inr ⟨app, d₁, hsetup, ?_⟩)
      cases json <;> exact CommandM.attempt_dealt_eq_error_iff.mpr ⟨e, s, hfails, rfl⟩
    | print hfails | delete hfails =>
      refine attempt_bind_eq_error_iff.mpr (.inr ⟨app, d₁, hsetup, ?_⟩)
      exact CommandM.attempt_dealt_eq_error_iff.mpr ⟨e, _, hfails, rfl⟩
    | create hread hfails | update hread hfails | render hread hfails =>
      refine attempt_bind_eq_error_iff.mpr (.inr ⟨app, d₁, hsetup, ?_⟩)
      refine attempt_bind_eq_error_iff.mpr (.inr ⟨_, _, hread, ?_⟩)
      exact CommandM.attempt_dealt_eq_error_iff.mpr ⟨e, _, hfails, rfl⟩

/-- A command that goes on after setting up fails in what it reads or in dealing with templates. -/
theorem perform_eq_bind (home : Path) (c : Command) :
    ∃ onward, c.perform home = CommandM.setup c.context (c.setUp home) >>= onward ∧
      ∀ app d f d', attempt (onward app) d = (.error f, d') →
        f.template? = none ∨ ∃ e, c.RunsInto app d e d' ∧ f = .rejected e := by
  cases c with
  | init => exact ⟨_, rfl, fun app d f d' h => absurd (congrArg Prod.fst h) nofun⟩
  | list json =>
    refine ⟨_, rfl, fun app d f d' h => ?_⟩
    have hdealt : ∃ e s, Catalog.list.exec app.store d = (.error e, s, d') ∧ f = .rejected e := by
      cases json <;> exact CommandM.attempt_dealt_eq_error_iff.mp h
    obtain ⟨e, s, hfails, hf⟩ := hdealt
    exact .inr ⟨e, .list hfails, hf⟩
  | print name =>
    refine ⟨_, rfl, fun app d f d' h => ?_⟩
    obtain ⟨e, s, hfails, hf⟩ := CommandM.attempt_dealt_eq_error_iff.mp h
    exact .inr ⟨e, .print hfails, hf⟩
  | delete name =>
    refine ⟨_, rfl, fun app d f d' h => ?_⟩
    obtain ⟨e, s, hfails, hf⟩ := CommandM.attempt_dealt_eq_error_iff.mp h
    exact .inr ⟨e, .delete hfails, hf⟩
  | create name source =>
    refine ⟨_, rfl, fun app d f d' h => ?_⟩
    rcases attempt_bind_eq_error_iff.mp h with hread | ⟨html, d₁, hread, h⟩
    · exact .inl (template?_of_source hread)
    · obtain ⟨e, s, hfails, hf⟩ := CommandM.attempt_dealt_eq_error_iff.mp h
      exact .inr ⟨e, .create hread hfails, hf⟩
  | update name newName source =>
    refine ⟨_, rfl, fun app d f d' h => ?_⟩
    rcases attempt_bind_eq_error_iff.mp h with hread | ⟨html, d₁, hread, h⟩
    · exact .inl (template?_of_source hread)
    · obtain ⟨e, s, hfails, hf⟩ := CommandM.attempt_dealt_eq_error_iff.mp h
      exact .inr ⟨e, .update hread hfails, hf⟩
  | render options =>
    refine ⟨_, rfl, fun app d f d' h => ?_⟩
    rcases attempt_bind_eq_error_iff.mp h with hread | ⟨r, d₁, hread, h⟩
    · exact .inl (template?_of_toRequest hread)
    · obtain ⟨e, s, hfails, hf⟩ := CommandM.attempt_dealt_eq_error_iff.mp h
      exact .inr ⟨e, .render hread hfails, hf⟩

/-- A command that fails because of a template error meets it in one of its phases. -/
theorem cases_of_attempt_perform {c : Command} (h : attempt (c.perform home) d = (.error f, d')) :
    (∃ e phase, f = c.failure e phase ∧ c.FailsIn home d e d' phase) ∨ f.template? = none := by
  obtain ⟨onward, heq, honward⟩ := perform_eq_bind home c
  rw [heq] at h
  rcases attempt_bind_eq_error_iff.mp h with hsetup | ⟨app, d₁, hsetup, hrest⟩
  · obtain ⟨x, hx, rfl⟩ := CommandM.attempt_setup_eq_error_iff.mp hsetup
    cases x with
    | settings x => exact .inr rfl
    | template e => exact .inl ⟨e, .settingUp, rfl, .settingUp hx⟩
  · have hset := CommandM.attempt_setup_eq_ok_iff.mp hsetup
    rcases honward app d₁ f d' hrest with hreading | ⟨e, hfails, rfl⟩
    · exact .inr hreading
    · exact .inl ⟨e, .dealing, rfl, .dealing hset hfails⟩

theorem isStorage_of_openAt {dir : Path} {extension : String}
    (h : (DirectoryStore.openAt dir extension).run d = (.error e, d')) : e.isStorage = true := by
  rcases DirectoryStore.run_openAt dir extension d with hrun | hrun | ⟨fault, hrun⟩
  · exact absurd (hrun.symm.trans h) (by simp)
  · exact absurd (hrun.symm.trans h) (by simp)
  · obtain ⟨he, -⟩ := Prod.mk.inj (hrun.symm.trans h)
    exact Except.error.inj he ▸ rfl

theorem isStorage_of_app_openAt
    (h : attempt (App.openAt home) d = (.error (.template e), d')) : e.isStorage = true := by
  rw [App.attempt_openAt] at h
  rcases hload : (attempt (Settings.load home) d).1 with x | s
  · rw [hload] at h
    exact absurd (congrArg Prod.fst h) nofun
  rw [hload] at h
  rcases hopen : (DirectoryStore.openAt (s.templatesDirAt home) s.templateExtension).run d with
    ⟨e' | store, d₁⟩
  · simp only [hopen] at h
    obtain rfl : e' = e := by simpa using congrArg Prod.fst h
    exact isStorage_of_openAt hopen
  · simp only [hopen] at h
    exact absurd (congrArg Prod.fst h) nofun

theorem isStorage_of_initAt
    (h : attempt (App.initAt home) d = (.error (.template e), d')) : e.isStorage = true := by
  rw [App.attempt_initAt] at h
  rcases hinit : attempt (Settings.init home) d with ⟨x | s, d₁⟩
  · rw [hinit] at h
    exact absurd (congrArg Prod.fst h) nofun
  rw [hinit] at h
  rcases hopen : (DirectoryStore.openAt (s.templatesDirAt home) s.templateExtension).run d₁ with
    ⟨e' | store, d₂⟩
  · simp only [hopen] at h
    obtain rfl : e' = e := by simpa using congrArg Prod.fst h
    exact isStorage_of_openAt hopen
  simp only [hopen] at h
  rcases hseed : TemplateStore.seedDefault.exec store d₂ with ⟨e' | seeded, store', d₃⟩
  · simp only [hseed] at h
    obtain rfl : e' = e := by simpa using congrArg Prod.fst h
    exact DirectoryStore.failsOnDisk_seedDefault hseed
  · simp only [hseed] at h
    exact absurd (congrArg Prod.fst h) nofun

theorem isStorage_of_setUp {c : Command}
    (h : attempt (c.setUp home) d = (.error (.template e), d')) : e.isStorage = true := by
  cases c with
  | init => exact isStorage_of_initAt h
  | _ => exact isStorage_of_app_openAt h

end Command

/-- What is reported of every storage error that is met in dealing with the templates. -/
def storageReport : String := "Error: internal template storage error (status 500)\n"

def Says (text part : String) : Prop := part.toList <:+: text.toList

/-- The text tells of the error what the outside may know. -/
structure Masks (e : TemplateError) (text : String) : Prop where
  /-- All storage errors are told in the same words. -/
  storage : e.isStorage = true → text = storageReport
  others : e.isStorage = false →
    text = "Error: " ++ e.message ++ " (status " ++ toString e.status ++ ")\n"
  path {path : Path} {fault : Fault} : e = .storage path fault → '/' ∈ path.display.toList →
    ¬ Says text path.display
  cause {path : Path} {fault : Fault} : e = .storage path fault → (∀ t, fault ≠ .other t) →
    ¬ Says text fault.message

/-- The text tells a storage error as it is: line by line, so that it says the path and the cause
where these are in one line. -/
structure Discloses (e : TemplateError) (text : String) : Prop where
  ne : text ≠ storageReport
  lines : ∀ line ∈ fields '\n' e.message.toList, line <:+: text.toList
  detail : ∃ path fault, e = .storage path fault ∧
    ('\n' ∉ e.message.toList → Says text path.display ∧ Says text fault.message)

def Command.Phase.Reports : Phase → TemplateError → String → Prop
  | .settingUp => Discloses
  | .dealing => Masks

theorem text_rejected (e : TemplateError) :
    (Failure.rejected e).text =
      "Error: " ++ e.publicMessage ++ " (status " ++ toString e.status ++ ")\n" := by
  have hmessage : (Failure.rejected e).message =
      e.publicMessage ++ " (status " ++ toString e.status ++ ")" := rfl
  have hcauses : (Failure.rejected e).causes = [] := rfl
  rw [Failure.text, hmessage, hcauses]
  simp only [List.isEmpty_nil, if_true, String.append_empty, String.append_assoc]
  rfl

theorem text_rejected_storage (path : Path) (fault : Fault) :
    (Failure.rejected (.storage path fault)).text = storageReport := by
  have hstatus : toString (500 : Nat) = "500" := by decide
  rw [text_rejected]
  show "Error: " ++ TemplateError.storageNotice ++ " (status " ++ toString 500 ++ ")\n" = _
  rw [hstatus]
  rfl

/-- No storage report says anything with a slash in it, as the paths of documents have. -/
theorem not_says_of_slash {part : String} (h : '/' ∈ part.toList) : ¬ Says storageReport part := by
  intro hsays
  have hmem : '/' ∈ storageReport.toList := hsays.subset h
  exact absurd hmem (by decide)

theorem not_says_fault {fault : Fault} (h : ∀ t, fault ≠ .other t) :
    ¬ Says storageReport fault.message := by
  have hdecided (part : String) (hpart : occursIn part.toList storageReport.toList = false) :
      ¬ Says storageReport part := fun hsays => by simp [occursIn_iff.mpr hsays] at hpart
  cases fault with
  | other t => exact absurd rfl (h t)
  | _ => exact hdecided _ (by decide)

theorem masks_text_rejected (e : TemplateError) : Masks e (Failure.rejected e).text := by
  have hothers (hstorage : e.isStorage = false) : e.publicMessage = e.message := by
    rw [TemplateError.publicMessage, hstorage]
    rfl
  refine ⟨?storage, ?others, ?path, ?cause⟩
  case storage =>
    intro hstorage
    obtain ⟨path, fault, rfl⟩ := TemplateError.isStorage_iff.mp hstorage
    exact text_rejected_storage path fault
  case others =>
    intro hstorage
    rw [text_rejected, hothers hstorage]
  case path =>
    rintro path fault rfl hslash
    rw [text_rejected_storage]
    exact not_says_of_slash hslash
  case cause =>
    rintro path fault rfl hsystem
    rw [text_rejected_storage]
    exact not_says_fault hsystem

theorem infix_intercalate_of_mem {sep w : List Char} {ws : List (List Char)} (h : w ∈ ws) :
    w <:+: List.intercalate sep ws := by
  induction ws with
  | nil => simp at h
  | cons v ws ih =>
    cases ws with
    | nil => simp_all
    | cons u ws =>
      rw [List.intercalate_cons_cons]
      rcases List.mem_cons.mp h with rfl | h
      · exact ⟨[], sep ++ List.intercalate sep (u :: ws), by simp⟩
      · exact (ih h).trans (List.suffix_append _ _).isInfix

theorem infix_indented {start next line : List Char} {text : String}
    (h : line ∈ fields '\n' text.toList) : line <:+: Failure.indented start next text :=
  (infix_intercalate_of_mem h).trans (List.suffix_append _ _).isInfix

theorem infix_causeLines {causes : List String} {cause : String} {line : List Char}
    (h : cause ∈ causes) (hline : line ∈ fields '\n' cause.toList) :
    line <:+: Failure.causeLines causes := by
  unfold Failure.causeLines
  split
  · obtain rfl := List.mem_singleton.mp h
    exact List.infix_cons (infix_indented hline)
  · obtain ⟨i, hi⟩ := List.mem_iff_getElem?.mp h
    have hmem : (cause, i) ∈ causes.zipIdx := List.mem_zipIdx_iff_getElem?.mpr hi
    rw [List.flatMap_def]
    exact (List.infix_cons (infix_indented hline)).trans
      (List.infix_of_mem_flatten (List.mem_map_of_mem hmem))

theorem toList_text_of_causes (h : f.causes ≠ []) :
    f.text.toList = "Error: ".toList ++ f.message.toList ++
      ("\n\nCaused by:".toList ++ Failure.causeLines f.causes) ++ "\n".toList := by
  have hcauses : f.causes.isEmpty = false := List.isEmpty_eq_false_iff.mpr h
  rw [Failure.text, hcauses]
  simp only [Bool.false_eq_true, if_false, String.toList_append, String.toList_ofList]

theorem infix_text_of_cause {cause : String} {line : List Char} (h : cause ∈ f.causes)
    (hline : line ∈ fields '\n' cause.toList) : line <:+: f.text.toList := by
  rw [toList_text_of_causes (List.ne_nil_of_mem h)]
  exact List.infix_append_of_infix_left (List.infix_append_of_infix_right
    (List.infix_append_of_infix_right (infix_causeLines h hline)))

theorem text_ne_of_causes (h : f.causes ≠ []) : f.text ≠ storageReport := by
  intro heq
  have hletter : 'C' ∈ f.text.toList := by
    have hcaused : 'C' ∈ "\n\nCaused by:".toList := by decide
    rw [toList_text_of_causes h]
    simp only [List.mem_append]
    exact .inl (.inr (.inl hcaused))
  rw [heq] at hletter
  exact absurd hletter (by decide)

theorem discloses_text_setup (context : String) (path : Path) (fault : Fault) :
    Discloses (.storage path fault)
      (Failure.setup context (.template (.storage path fault))).text := by
  have hlines : ∀ line ∈ fields '\n' (TemplateError.storage path fault).message.toList,
      line <:+: (Failure.setup context (.template (.storage path fault))).text.toList :=
    fun _ hline => infix_text_of_cause (by simp [Failure.causes]) hline
  refine ⟨text_ne_of_causes (List.cons_ne_nil _ _), hlines, path, fault, rfl, fun hline => ?_⟩
  have hsaid := hlines _ (by rw [fields_of_not_mem hline]; exact List.mem_singleton_self _)
  have hmessage : (TemplateError.storage path fault).message =
      "template storage error at " ++ path.display ++ ": " ++ fault.message := rfl
  rw [hmessage] at hsaid
  simp only [String.toList_append] at hsaid
  constructor
  · exact (List.infix_append_of_infix_left (List.infix_append_of_infix_left
      (List.suffix_append _ _).isInfix)).trans hsaid
  · exact (List.suffix_append _ _).isInfix.trans hsaid

theorem reports_text_failure {c : Command} {phase : Command.Phase}
    (h : c.FailsIn home d e d' phase) : phase.Reports e (c.failure e phase).text := by
  cases h with
  | settingUp hfails =>
    obtain ⟨path, fault, rfl⟩ := TemplateError.isStorage_iff.mp (Command.isStorage_of_setUp hfails)
    exact discloses_text_setup c.context path fault
  | dealing => exact masks_text_rejected e

theorem run_of_failsIn {words : List String} {c : Command} {phase : Command.Phase}
    (hwords : Command.ofWords words = .ok c) (hfails : c.FailsIn home d e d' phase) :
    (run (some home) words).run d =
      ({ exit := 1, error := (c.failure e phase).text }, d') := by
  have hperform : (c.perform home).run.run d = (.error (c.failure e phase), d') :=
    Command.attempt_perform_of_failsIn hfails
  simp only [run, hwords, run_bind, hperform]
  rfl

theorem cases_of_run {words : List String} {c : Command} {report : Report}
    (hwords : Command.ofWords words = .ok c)
    (hrun : (run (some home) words).run d = (report, d')) (hexit : report.exit ≠ 0) :
    (∃ e phase, c.FailsIn home d e d' phase) ∨
      ∃ f : Failure, f.template? = none ∧ report = { exit := 1, error := f.text } := by
  simp only [run, hwords, run_bind] at hrun
  rcases hperform : (c.perform home).run.run d with ⟨f | output, d₁⟩
  · rw [hperform] at hrun
    obtain ⟨rfl, rfl⟩ := Prod.mk.inj hrun
    rcases Command.cases_of_attempt_perform hperform with ⟨e, phase, -, hfails⟩ | hothers
    · exact .inl ⟨e, phase, hfails⟩
    · exact .inr ⟨f, hothers, rfl⟩
  · rw [hperform] at hrun
    obtain ⟨rfl, -⟩ := Prod.mk.inj hrun
    exact absurd rfl hexit

/-- A command that fails because of a template error met in dealing with the templates reports a
storage error in words that are always the same, and any other error by its message and status. A
command whose program cannot be set up because of a storage error tells the error as it is. Nothing
else that a command fails with is because of a template error. -/
theorem reports_template_error {words : List String} {c : Command}
    (hwords : Command.ofWords words = .ok c) (home : Path) (d : Disk) :
    (∀ e d' phase, c.FailsIn home d e d' phase →
      ∃ text, (run (some home) words).run d = ({ exit := 1, error := text }, d') ∧
        phase.Reports e text) ∧
    ∀ report d', (run (some home) words).run d = (report, d') → report.exit ≠ 0 →
      (∃ e phase, c.FailsIn home d e d' phase) ∨
        ∃ f : Failure, f.template? = none ∧ report = { exit := 1, error := f.text } := by
  constructor
  · intro e d' phase hfails
    exact ⟨_, run_of_failsIn hwords hfails, reports_text_failure hfails⟩
  · intro report d' hrun hexit
    exact cases_of_run hwords hrun hexit

/-- A home in which a file lies where the folder of the templates is looked for. -/
def misplacedHome : Disk where
  entries := [([], .folder 0), ([encode "home"], .folder 0),
    (Settings.rootPlace [encode "home"], .folder 0),
    (encode "templates" :: Settings.rootPlace [encode "home"], .file [] 0o644 0)]
  here := []
  now := 1
  distinct := by decide

/-- A home in which a file lies where the folder of the program is to be made. -/
def occupiedHome : Disk where
  entries := [([], .folder 0), ([encode "home"], .folder 0),
    (Settings.rootPlace [encode "home"], .file [] 0o644 0)]
  here := []
  now := 1
  distinct := by decide

def templatesPath : Path := Path.ofString "/home/.mailplate/templates"

theorem misplaced_fails :
    (Command.print "Default").FailsIn (Path.ofString "/home") misplacedHome
      (.storage templatesPath .notFolder) misplacedHome .dealing :=
  have hsetUp : attempt ((Command.print "Default").setUp (Path.ofString "/home")) misplacedHome =
      (.ok ⟨{}, ⟨templatesPath, "html", {}⟩⟩, misplacedHome) := rfl
  .dealing hsetUp (.print rfl)

theorem occupied_fails :
    (Command.list false).FailsIn (Path.ofString "/home") occupiedHome
      (.storage templatesPath .notFolder) occupiedHome .settingUp :=
  .settingUp rfl

theorem masked_sample :
    Command.ofWords ["template", "show", "Default"] = .ok (.print "Default") ∧
      (Command.print "Default").FailsIn (Path.ofString "/home") misplacedHome
        (.storage templatesPath .notFolder) misplacedHome .dealing ∧
      ∃ text, (run (some (Path.ofString "/home")) ["template", "show", "Default"]).run
          misplacedHome = ({ exit := 1, error := text }, misplacedHome) ∧
        Masks (.storage templatesPath .notFolder) text :=
  ⟨by decide, misplaced_fails,
    (reports_template_error (by decide) _ _).1 _ _ .dealing misplaced_fails⟩

theorem storage_disclosed :
    (Command.list false).FailsIn (Path.ofString "/home") occupiedHome
        (.storage templatesPath .notFolder) occupiedHome .settingUp ∧
      ∃ text, (run (some (Path.ofString "/home")) ["template", "list"]).run occupiedHome =
          ({ exit := 1, error := text }, occupiedHome) ∧
        text ≠ storageReport ∧ Says text "/home/.mailplate/templates" ∧
        Says text "Not a directory (os error 20)" := by
  have hwords : Command.ofWords ["template", "list"] = .ok (.list false) := by decide
  have htold := discloses_text_setup openContext templatesPath .notFolder
  have hline : '\n' ∉ (TemplateError.storage templatesPath .notFolder).message.toList := by decide
  obtain ⟨path, fault, heq, hsays⟩ := htold.detail
  obtain ⟨rfl, rfl⟩ := TemplateError.storage.inj heq
  obtain ⟨hpath, hcause⟩ := hsays hline
  rw [templatesPath, Path.display_ofString] at hpath
  exact ⟨occupied_fails, _, run_of_failsIn hwords occupied_fails, htold.ne, hpath, hcause⟩

end CommandLine

end MailMerge
