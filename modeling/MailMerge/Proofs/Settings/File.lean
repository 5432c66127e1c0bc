import MailMerge.Proofs.Disk.Keeping
import MailMerge.Proofs.Disk.Tree
import MailMerge.Proofs.Settings.Yaml
import MailMerge.Proofs.Store.Reading
import MailMerge.Settings.File

/-! # Settings that are saved

Settings that were saved are loaded again, and nothing outside of the folder of the program has
changed. Where saving fails, the settings are what they were before.
-/

namespace MailMerge

open Disk Utf8

namespace Program

variable {ε α β : Type} {r : Except ε β} {d d' : Disk}

/-- How a program ends that may fail, and the disk that it leaves. -/
def attempt (m : ExceptT ε Program α) (d : Disk) : Except ε α × Disk := m.run.run d

@[simp] theorem attempt_pure (a : α) (d : Disk) :
    attempt (pure a : ExceptT ε Program α) d = (.ok a, d) := rfl

@[simp] theorem attempt_throw (e : ε) (d : Disk) :
    attempt (throw e : ExceptT ε Program α) d = (.error e, d) := rfl

@[simp] theorem attempt_bind (m : ExceptT ε Program α) (f : α → ExceptT ε Program β) (d : Disk) :
    attempt (m >>= f) d = match attempt m d with
      | (.ok a, d') => attempt (f a) d'
      | (.error e, d') => (.error e, d') := by
  rw [attempt, ExceptT.run_bind, run_bind, attempt]
  rcases m.run.run d with ⟨_ | a, d'⟩ <;> rfl

@[simp] theorem attempt_lift (p : Program α) (d : Disk) :
    attempt (liftM p : ExceptT ε Program α) d = (.ok (p.run d).1, (p.run d).2) := by
  show (Except.ok <$> p).run d = _
  rw [map_eq_pure_bind, run_bind]
  rfl

theorem attempt_mapError {ε' : Type} (g : ε → ε') (p : Program (Except ε α)) (d : Disk) :
    attempt (ExceptT.mk (Except.mapError g <$> p)) d =
      ((p.run d).1.mapError g, (p.run d).2) := by
  show (Except.mapError g <$> p).run d = _
  rw [map_eq_pure_bind, run_bind]
  rfl

/-- A program in two parts fails where the first one does, or goes on and fails in the second. -/
theorem attempt_bind_eq_error_iff {m : ExceptT ε Program α} {f : α → ExceptT ε Program β} {x : ε} :
    attempt (m >>= f) d = (.error x, d') ↔
      attempt m d = (.error x, d') ∨
        ∃ a d₁, attempt m d = (.ok a, d₁) ∧ attempt (f a) d₁ = (.error x, d') := by
  rw [attempt_bind]
  rcases attempt m d with ⟨y | a, d₁⟩
  · simp
  · simp only [Prod.mk.injEq, reduceCtorEq, false_and, false_or, Except.ok.injEq]
    constructor
    · exact fun h => ⟨a, d₁, ⟨rfl, rfl⟩, h⟩
    · rintro ⟨_, _, ⟨rfl, rfl⟩, h⟩
      exact h

@[simp] theorem attempt_request (path : Path) (p : Program (Except Fault α)) (d : Disk) :
    attempt (SettingsM.request path p) d =
      ((p.run d).1.mapError (SettingsError.storage path), (p.run d).2) := by
  rw [attempt, SettingsM.request]
  show (p >>= _).run d = _
  rw [run_bind]
  rcases p.run d with ⟨_ | a, d'⟩ <;> rfl

theorem cases_of_attempt_request {path : Path} {p : Program (Except Fault α)}
    {r : Except SettingsError α} (h : attempt (SettingsM.request path p) d = (r, d')) :
    (∃ fault, p.run d = (.error fault, d') ∧ r = .error (.storage path fault)) ∨
      ∃ a, p.run d = (.ok a, d') ∧ r = .ok a := by
  rw [attempt_request] at h
  rcases hp : p.run d with ⟨fault | a, d₁⟩
  · rw [hp] at h
    obtain ⟨rfl, rfl⟩ := Prod.mk.inj h
    exact .inl ⟨fault, rfl, rfl⟩
  · rw [hp] at h
    obtain ⟨rfl, rfl⟩ := Prod.mk.inj h
    exact .inr ⟨a, rfl, rfl⟩

theorem cases_of_attempt_step {path : Path} {p : Program (Except Fault α)}
    {f : α → SettingsM β} {r : Except SettingsError β}
    (h : attempt (SettingsM.request path p >>= f) d = (r, d')) :
    (∃ fault, p.run d = (.error fault, d') ∧ r = .error (.storage path fault)) ∨
      ∃ a d₁, p.run d = (.ok a, d₁) ∧ attempt (f a) d₁ = (r, d') := by
  rw [attempt_bind] at h
  rcases hp : attempt (SettingsM.request path p) d with ⟨r₁, d₁⟩
  rw [hp] at h
  rcases cases_of_attempt_request hp with ⟨fault, hrun, rfl⟩ | ⟨a, hrun, rfl⟩
  · obtain ⟨rfl, rfl⟩ := Prod.mk.inj h
    exact .inl ⟨fault, hrun, rfl⟩
  · exact .inr ⟨a, d₁, hrun, h⟩

theorem settle_eq_error_iff {change : Except Fault Disk} {fault : Fault} :
    d.settle change = (.error fault, d') ↔ change = .error fault ∧ d' = d := by
  cases change <;> simp [settle, eq_comm]

theorem settle_eq_ok_iff {change : Except Fault Disk} {u : Unit} :
    d.settle change = (.ok u, d') ↔ change = .ok d' := by
  cases change <;> simp [settle]

end Program

namespace Settings

open Program

variable {s : Settings} {home : Path} {d d' : Disk} {h : Place}

def spelled (path : Path) (bytes : Bytes) : Except SettingsError Settings :=
  match decode? bytes with
  | none => .error (.storage path .notText)
  | some text =>
    match ofYaml? text with
    | none => .error (.unreadable path)
    | some s => .ok s

/-- The settings that are stored where `x` lies at the path of the settings file. -/
def storedIn (path : Path) : Option Entry → Except SettingsError Settings
  | none => .ok {}
  | some (.file bytes _ _) => spelled path bytes
  | some _ => .error (.storage path .isFolder)

theorem attempt_load (home : Path) (d : Disk) :
    attempt (load home) d = (storedIn (fileAt home) (d.entryAt (fileAt home)).toOption, d) := by
  rw [load]
  simp only [attempt_bind, attempt_lift, DirectoryStore.run_pathExists, look]
  cases hentry : d.entryAt (fileAt home) with
  | error fault => rfl
  | ok x =>
    have hexists : (Entry.info <$> (Except.ok x : Except Fault Entry)).isOk = true := rfl
    simp only [hexists, Bool.not_true, Bool.false_eq_true, if_false, attempt_bind, attempt_request,
      Program.run_readText, Disk.readText, Disk.read, hentry, ok_bind]
    cases x with
    | folder | link => rfl
    | file bytes mode stamp =>
      have hread : (pure bytes : Except Fault Bytes) = .ok bytes := rfl
      show _ = (spelled (fileAt home) bytes, d)
      rw [spelled]
      cases htext : decode? bytes with
      | none => simp [hread, htext]
      | some text => cases hsettings : ofYaml? text <;> simp [hread, htext, hsettings]

/-- How saving settings may end: with which answer, and on which disk. -/
inductive Saves (s : Settings) (home : Path) (d : Disk) :
    Except SettingsError Unit → Disk → Prop
  | unmade {d' : Disk} {fault : Fault}
    (hmake : (makeFolders (rootAt home)).run d = (.error fault, d')) :
    Saves s home d (.error (.storage (rootAt home) fault)) d'
  | unwritable {d' : Disk} (hmake : (makeFolders (rootAt home)).run d = (.ok (), d'))
    (htext : s.toYaml? = none) : Saves s home d (.error .unwritable) d'
  | undrafted {d' : Disk} {text : String} {fault : Fault}
    (hmake : (makeFolders (rootAt home)).run d = (.ok (), d')) (htext : s.toYaml? = some text)
    (hwrite : d'.write (draftAt home) (encode text) = .error fault) :
    Saves s home d (.error (.storage (draftAt home) fault)) d'
  | unguarded {d₁ d' : Disk} {text : String} {fault : Fault}
    (hmake : (makeFolders (rootAt home)).run d = (.ok (), d₁)) (htext : s.toYaml? = some text)
    (hwrite : d₁.write (draftAt home) (encode text) = .ok d')
    (hguard : d'.setMode (draftAt home) fileMode = .error fault) :
    Saves s home d (.error (.storage (draftAt home) fault)) d'
  | unnamed {d₁ d₂ d' : Disk} {text : String} {fault : Fault}
    (hmake : (makeFolders (rootAt home)).run d = (.ok (), d₁)) (htext : s.toYaml? = some text)
    (hwrite : d₁.write (draftAt home) (encode text) = .ok d₂)
    (hguard : d₂.setMode (draftAt home) fileMode = .ok d')
    (hrename : d'.rename (draftAt home) (fileAt home) = .error fault) :
    Saves s home d (.error (.storage (fileAt home) fault)) d'
  | saved {d₁ d₂ d₃ d' : Disk} {text : String}
    (hmake : (makeFolders (rootAt home)).run d = (.ok (), d₁)) (htext : s.toYaml? = some text)
    (hwrite : d₁.write (draftAt home) (encode text) = .ok d₂)
    (hguard : d₂.setMode (draftAt home) fileMode = .ok d₃)
    (hrename : d₃.rename (draftAt home) (fileAt home) = .ok d') : Saves s home d (.ok ()) d'

theorem saves_of_attempt {r : Except SettingsError Unit}
    (hsave : attempt (save s home) d = (r, d')) : Saves s home d r d' := by
  rcases cases_of_attempt_step hsave with ⟨fault, hmake, rfl⟩ | ⟨_, d₁, hmake, hsave⟩
  · exact .unmade hmake
  cases htext : s.toYaml? with
  | none =>
    rw [htext] at hsave
    obtain ⟨rfl, rfl⟩ := Prod.mk.inj hsave
    exact .unwritable hmake htext
  | some text =>
    rw [htext] at hsave
    rcases cases_of_attempt_step hsave with ⟨fault, hwrite, rfl⟩ | ⟨_, d₂, hwrite, hsave⟩
    · obtain ⟨hwrite, rfl⟩ := settle_eq_error_iff.mp hwrite
      exact .undrafted hmake htext hwrite
    have hwrite := settle_eq_ok_iff.mp hwrite
    rcases cases_of_attempt_step hsave with ⟨fault, hguard, rfl⟩ | ⟨_, d₃, hguard, hsave⟩
    · obtain ⟨hguard, rfl⟩ := settle_eq_error_iff.mp hguard
      exact .unguarded hmake htext hwrite hguard
    have hguard := settle_eq_ok_iff.mp hguard
    rcases cases_of_attempt_request hsave with ⟨fault, hrename, rfl⟩ | ⟨_, hrename, rfl⟩
    · obtain ⟨hrename, rfl⟩ := settle_eq_error_iff.mp hrename
      exact .unnamed hmake htext hwrite hguard hrename
    · exact .saved hmake htext hwrite hguard (settle_eq_ok_iff.mp hrename)

def rootName : Bytes := encode ".mailplate"

def fileName : Bytes := encode "config.yaml"

def draftName : Bytes := encode "config.yaml.tmp"

def rootPlace (h : Place) : Place := rootName :: h

def filePlace (h : Place) : Place := fileName :: rootPlace h

def draftPlace (h : Place) : Place := draftName :: rootPlace h

theorem isName_rootName : IsName rootName := by decide

theorem isName_fileName : IsName fileName := by decide

theorem isName_draftName : IsName draftName := by decide

theorem draftName_ne_fileName : draftName ≠ fileName := by decide

/-- The folder of the program is there, and may have been made for it. Apart from that, only files
in it with a name in `A` have changed. -/
def AltersRoot (h : Place) (A : Bytes → Prop) (d d' : Disk) : Prop :=
  d.bytesAt (rootPlace h) = none ∧ ∃ d₁, ChangesOnly h (· = rootName) d d₁ ∧
    d₁.HasFolder (rootPlace h) ∧ ChangesOnly (rootPlace h) A d₁ d'

theorem get?_of_made (hmade : ChangesOnly h (· = rootName) d d') (n : Bytes) :
    d'.get? (n :: rootPlace h) = d.get? (n :: rootPlace h) := by
  apply hmade.others
  · intro heq
    exact absurd (congrArg List.length heq) (by simp [rootPlace]; omega)
  · intro f _ heq
    exact absurd (congrArg List.length heq) (by simp [rootPlace])

namespace AltersRoot

variable {A B : Bytes → Prop}

theorem tree (hr : AltersRoot h A d d') (htree : PlainTree home d h) : PlainTree home d' h := by
  obtain ⟨-, d₁, hmade, hfolder, hc⟩ := hr
  have htree₁ := htree.of_changesOnly (List.suffix_refl h) htree.folder hmade
  exact htree₁.of_changesOnly (List.suffix_cons rootName h) hfolder hc

theorem change {d₁ : Disk} (hr : AltersRoot h A d d₁) (hc : ChangesOnly (rootPlace h) A d₁ d') :
    AltersRoot h A d d' := by
  obtain ⟨hfree, d₀, hmade, hfolder, hc₀⟩ := hr
  exact ⟨hfree, d₀, hmade, hfolder, hc₀.trans hc⟩

theorem mono (hr : AltersRoot h A d d') (hAB : ∀ n, A n → B n) : AltersRoot h B d d' := by
  obtain ⟨hfree, d₁, hmade, hfolder, hc⟩ := hr
  exact ⟨hfree, d₁, hmade, hfolder, hc.mono hAB⟩

/-- Nothing outside of the folder of the program has changed, but for the stamp of the folder that
it lies in. -/
theorem outside (hr : AltersRoot h A d d') {p : Place} (hp : p ≠ h) (hout : ¬ rootPlace h <:+ p) :
    d'.get? p = d.get? p := by
  obtain ⟨-, d₁, hmade, -, hc⟩ := hr
  have hself : p ≠ rootPlace h := fun heq => hout (heq ▸ List.suffix_refl _)
  rw [hc.others p hself fun f _ heq => hout (heq ▸ List.suffix_cons f _)]
  exact hmade.others p hp fun f hf heq => hself (heq.trans (congrArg (· :: h) hf))

theorem inside (hr : AltersRoot h A d d') {n : Bytes} (hn : ¬ A n) :
    d'.get? (n :: rootPlace h) = d.get? (n :: rootPlace h) := by
  obtain ⟨-, d₁, hmade, -, hc⟩ := hr
  rw [hc.child hn, get?_of_made hmade]

/-- No file is lost but those in the folder of the program with a name in question. -/
theorem keeps (hr : AltersRoot h A d d') (htree : PlainTree home d h)
    (hA : ∀ n b, A n → d.bytesAt (n :: rootPlace h) = some b → n = draftName) :
    Keeps (· = draftPlace h) d d' := by
  obtain ⟨hfree, d₁, hmade, hfolder, hc⟩ := hr
  refine (Keeps.of_changesOnly htree.folder hmade ?_).trans (.of_changesOnly hfolder hc ?_)
  · rintro n b rfl hb
    exact absurd (hfree.symm.trans hb) nofun
  · intro n b hn hb
    rw [bytesAt_congr (get?_of_made hmade n)] at hb
    exact congrArg (· :: rootPlace h) (hA n b hn hb)

end AltersRoot

theorem entryAt_fileAt_congr (htree : PlainTree home d h) (htree' : PlainTree home d' h)
    (hget : d'.get? (filePlace h) = d.get? (filePlace h)) :
    (d'.entryAt (fileAt home)).toOption = (d.entryAt (fileAt home)).toOption := by
  by_cases hroom : HasRoom (rootAt home) fileName
  · have hentry := htree.entryAt_grandchild isName_rootName hroom
    have hentry' := htree'.entryAt_grandchild isName_rootName hroom
    exact hentry'.trans (hget.trans hentry.symm)
  · have hentry := entryAt_of_no_room (d := d) isName_fileName hroom
    have hentry' := entryAt_of_no_room (d := d') isName_fileName hroom
    exact hentry'.trans hentry.symm

theorem altersRoot_of_made (htree : PlainTree home d h) {u : Unit}
    (hmake : (makeFolders (rootAt home)).run d = (.ok u, d')) :
    AltersRoot h (fun _ => False) d d' ∧ PlainFolder (rootAt home) d' (rootPlace h) := by
  obtain ⟨hroom, hfree, hmade, hfolder⟩ : HasRoom home rootName ∧ d.bytesAt (rootPlace h) = none ∧
      ChangesOnly h (· = rootName) d d' ∧ d'.HasFolder (rootPlace h) := by
    rcases htree.plainFolder.makeFolders_cases isName_rootName.toIsStep hmake with
      ⟨⟨_, herror⟩, -⟩ | ⟨-, rfl, hroom, t, ht⟩ | ⟨-, hmade⟩
    · exact absurd herror nofun
    · exact ⟨hroom, by simp [Disk.bytesAt, rootPlace, ht], .refl h _ d', t, ht⟩
    · obtain ⟨hroom, hx, hchanges, hfolder⟩ :=
        htree.plainFolder.makeFolder isName_rootName.toIsStep hmade
      exact ⟨hroom, by simp [Disk.bytesAt, rootPlace, hx], hchanges, hfolder⟩
  have htree' := htree.of_changesOnly (List.suffix_refl h) htree.folder hmade
  exact ⟨⟨hfree, d', hmade, hfolder, .refl _ _ d'⟩, (htree'.child hroom hfolder).plainFolder⟩

theorem attempt_load_of_file (htree : PlainTree home d h) (hroom : HasRoom (rootAt home) fileName)
    {b : Bytes} {m : Nat} {t : Moment} (hx : d.get? (filePlace h) = some (.file b m t))
    {r : Except SettingsError Settings} (hr : spelled (fileAt home) b = r) :
    attempt (load home) d = (r, d) := by
  have hentry : (d.entryAt (fileAt home)).toOption = some (.file b m t) :=
    (htree.entryAt_grandchild isName_rootName hroom).trans hx
  rw [attempt_load, hentry]
  exact congrArg (·, d) hr

theorem spelled_of_toYaml? {path : Path} {text : String} (htext : s.toYaml? = some text) :
    spelled path (encode text) = .ok s := by
  simp [spelled, ofYaml?_toYaml? htext]

/-- How saving changes the disk below a home without symbolic links. -/
theorem altersRoot_of_saves {r : Except SettingsError Unit} (htree : PlainTree home d h)
    (hsaves : Saves s home d r d') :
    (∃ e, r = .error e) ∧ (d' = d ∨ AltersRoot h (· = draftName) d d') ∨
      r = .ok () ∧ AltersRoot h (fun n => n = draftName ∨ n = fileName) d d' ∧
        d'.get? (draftPlace h) = none ∧ HasRoom (rootAt home) fileName ∧
        ∃ text t, s.toYaml? = some text ∧
          d'.get? (filePlace h) = some (.file (encode text) fileMode t) := by
  have hfile := isName_fileName.toIsStep
  have hdraft := isName_draftName.toIsStep
  cases hsaves with
  | unmade hmake =>
    rcases htree.plainFolder.makeFolders_cases isName_rootName.toIsStep hmake with
      ⟨-, rfl⟩ | ⟨hok, -⟩ | ⟨hok, -⟩
    · exact .inl ⟨⟨_, rfl⟩, .inl rfl⟩
    · exact absurd hok nofun
    · exact absurd hok nofun
  | unwritable hmake htext =>
    obtain ⟨hmade, -⟩ := altersRoot_of_made htree hmake
    exact .inl ⟨⟨_, rfl⟩, .inr (hmade.mono nofun)⟩
  | undrafted hmake htext hwrite =>
    obtain ⟨hmade, -⟩ := altersRoot_of_made htree hmake
    exact .inl ⟨⟨_, rfl⟩, .inr (hmade.mono nofun)⟩
  | unguarded hmake htext hwrite hguard =>
    obtain ⟨hmade, hroot⟩ := altersRoot_of_made htree hmake
    obtain ⟨-, hc, -⟩ := hroot.write hdraft hwrite
    exact .inl ⟨⟨_, rfl⟩, .inr ((hmade.mono nofun).change hc)⟩
  | unnamed hmake htext hwrite hguard hrename =>
    obtain ⟨hmade, hroot⟩ := altersRoot_of_made htree hmake
    obtain ⟨-, hc, mode, t, hx⟩ := hroot.write hdraft hwrite
    obtain ⟨hc', -⟩ := (hroot.of_changesOnly hc).setMode hdraft hx hguard
    exact .inl ⟨⟨_, rfl⟩, .inr (((hmade.mono nofun).change hc).change hc')⟩
  | @saved d₁ d₂ d₃ d' text hmake htext hwrite hguard hrename =>
    obtain ⟨hmade, hroot⟩ := altersRoot_of_made htree hmake
    obtain ⟨-, hc₁, mode, t, hx₁⟩ := hroot.write hdraft hwrite
    have hroot₁ := hroot.of_changesOnly hc₁
    obtain ⟨hc₂, hx₂⟩ := hroot₁.setMode hdraft hx₁ hguard
    obtain ⟨hroom, hc₃, hdrafted, hfiled⟩ := (hroot₁.of_changesOnly hc₂).rename hdraft hfile
      draftName_ne_fileName hx₂ hrename
    have hwritten : AltersRoot h (· = draftName) d d₃ := ((hmade.mono nofun).change hc₁).change hc₂
    exact .inr ⟨rfl, (hwritten.mono fun _ => .inl).change hc₃, hdrafted, hroom, text, t, htext,
      hfiled⟩

/-- Settings that were saved are loaded again. No draft is left, and outside of the folder of the
program nothing has changed. Settings that could not be saved leave those that were stored. -/
theorem load_of_save (htree : PlainTree home d h) (s : Settings) :
    match attempt (save s home) d with
    | (.ok _, d') =>
      attempt (load home) d' = (.ok s, d') ∧ d'.get? (draftPlace h) = none ∧
        PlainTree home d' h ∧ ∀ p, p ≠ h → ¬ rootPlace h <:+ p → d'.get? p = d.get? p
    | (.error _, d') => (attempt (load home) d').1 = (attempt (load home) d).1 := by
  rcases hsave : attempt (save s home) d with ⟨e | u, d'⟩
  · show (attempt (load home) d').1 = (attempt (load home) d).1
    rcases altersRoot_of_saves htree (saves_of_attempt hsave) with ⟨-, rfl | hr⟩ | ⟨hok, -⟩
    · rfl
    · have hget := hr.inside draftName_ne_fileName.symm
      rw [attempt_load, attempt_load, entryAt_fileAt_congr htree (hr.tree htree) hget]
    · exact absurd hok nofun
  · rcases altersRoot_of_saves htree (saves_of_attempt hsave) with
      ⟨⟨_, herror⟩, -⟩ | ⟨-, hr, hdraft, hroom, text, t, htext, hx⟩
    · exact absurd herror nofun
    · exact ⟨attempt_load_of_file (hr.tree htree) hroom hx (spelled_of_toYaml? htext), hdraft,
        hr.tree htree, fun p hp hout => hr.outside hp hout⟩

def homeDisk : Disk where
  entries := [([], .folder 0), ([encode "home"], .folder 0),
    ([encode "notes", encode "home"], .file (encode "N") 0o644 0),
    (rootPlace [encode "home"], .folder 0),
    (draftPlace [encode "home"], .file (encode "half") 0o644 0)]
  here := []
  now := 1
  distinct := by decide

theorem plainTree_homeDisk :
    PlainTree (Path.ofString "/home") homeDisk [encode "home"] where
  leads := rfl
  folder := ⟨0, rfl⟩
  parents n p x _ hx := by
    have hmem := mem_entries_iff.mpr hx
    simp only [homeDisk, rootPlace, draftPlace, List.mem_cons, List.not_mem_nil, or_false,
      Prod.mk.injEq, List.cons.injEq, reduceCtorEq, false_and, false_or] at hmem
    rcases hmem with ⟨⟨rfl, rfl⟩, -⟩ | ⟨⟨rfl, rfl⟩, -⟩ | ⟨⟨rfl, rfl⟩, -⟩ | ⟨⟨rfl, rfl⟩, -⟩
    · exact ⟨by decide, 0, rfl⟩
    · exact ⟨by decide, 0, rfl⟩
    · exact ⟨by decide, 0, rfl⟩
    · exact ⟨by decide, 0, rfl⟩
  no_link p _ target hx := by
    have hmem := mem_entries_iff.mpr hx
    simp [homeDisk] at hmem

/-- Texts that look like something else, an extension in two lines and a list with repetitions. -/
def lookalike : Settings where
  templatesDir := some (Path.ofString "~")
  templateExtension := " a\n\nb "
  requiredPlaceholders := [.body, .footer, .body]
  updateLookup := .routeName
  sender := ⟨"null", "1e3"⟩

theorem load_of_save_lookalike :
    PlainTree (Path.ofString "/home") homeDisk [encode "home"] ∧
      ∃ d', attempt (save lookalike (Path.ofString "/home")) homeDisk = (.ok (), d') ∧
        attempt (load (Path.ofString "/home")) d' = (.ok lookalike, d') ∧
        d'.get? (draftPlace [encode "home"]) = none ∧
        d'.get? [encode "notes", encode "home"] =
          homeDisk.get? [encode "notes", encode "home"] := by
  have hload := load_of_save plainTree_homeDisk lookalike
  have hok : (attempt (save lookalike (Path.ofString "/home")) homeDisk).1 = .ok () := rfl
  rcases hsave : attempt (save lookalike (Path.ofString "/home")) homeDisk with ⟨r, d'⟩
  rw [hsave] at hload hok
  obtain rfl : r = .ok () := hok
  obtain ⟨hagain, hdraft, -, hothers⟩ := hload
  exact ⟨plainTree_homeDisk, d', rfl, hagain, hdraft, hothers _ (by decide) (by decide)⟩

end Settings

end MailMerge
