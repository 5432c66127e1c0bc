import MailMerge.App
import MailMerge.Proofs.Settings.File
import MailMerge.Proofs.Store.RoundTrip
import MailMerge.Proofs.Store.Seeding

/-! # Setting up again

The program may be set up as often as one likes. What was there before is kept, however setting up
ends, and when it has succeeded doing it again changes nothing.
-/

namespace MailMerge

open Disk Utf8 Program

variable {home : Path} {d d' : Disk} {h q : Place} {s : Settings}

namespace Settings

/-- The settings file is there and spells these settings. -/
structure Configured (home : Path) (h : Place) (s : Settings) (d : Disk) : Prop where
  room : HasRoom (rootAt home) fileName
  leads : d.resolve true (rootAt home) = .ok (rootPlace h)
  folder : d.HasFolder (rootPlace h)
  spells : ∃ b, d.bytesAt (filePlace h) = some b ∧ spelled (fileAt home) b = .ok s

theorem attempt_init (home : Path) (d : Disk) :
    attempt (init home) d =
      match (d.entryAt (fileAt home)).toOption with
      | some _ => attempt (load home) d
      | none =>
        match attempt (save {} home) d with
        | (.ok _, d') => (.ok {}, d')
        | (.error e, d') => (.error e, d') := by
  rw [init]
  simp only [attempt_bind, attempt_lift, DirectoryStore.run_pathExists, look]
  cases d.entryAt (fileAt home) with
  | error fault =>
    show attempt (save {} home >>= fun _ => pure ({} : Settings)) d = _
    rw [attempt_bind]
    rcases attempt (save {} home) d with ⟨_ | _, d'⟩ <;> rfl
  | ok x => rfl

namespace Configured

theorem entryAt (hs : Configured home h s d) :
    ∃ b m t, d.entryAt (fileAt home) = .ok (.file b m t) ∧ spelled (fileAt home) b = .ok s := by
  obtain ⟨b, hb, hspelled⟩ := hs.spells
  obtain ⟨m, t, hx⟩ := bytesAt_eq_some_iff.mp hb
  have hlink : d.NoLink (filePlace h) := by simp [NoLink, hx]
  have hleads : d.resolve true (fileAt home) = .ok (filePlace h) :=
    resolve_join hs.leads hs.folder isName_fileName hs.room.length_lt (.inr hlink)
  refine ⟨b, m, t, ?_, hspelled⟩
  rw [Disk.entryAt, hleads, ok_bind, hx]
  rfl

theorem attempt_load (hs : Configured home h s d) : attempt (load home) d = (.ok s, d) := by
  obtain ⟨b, m, t, hentry, hspelled⟩ := hs.entryAt
  rw [Settings.attempt_load, hentry]
  exact congrArg (·, d) hspelled

theorem attempt_init (hs : Configured home h s d) : attempt (init home) d = (.ok s, d) := by
  obtain ⟨b, m, t, hentry, -⟩ := hs.entryAt
  rw [Settings.attempt_init, hentry]
  exact hs.attempt_load

theorem of_keeps {D : Place → Prop} (hs : Configured home h s d) (hk : Keeps D d d')
    (hD : ¬ D (filePlace h)) : Configured home h s d' where
  room := hs.room
  leads := resolve_mono hk.links hk.here hk.folders hs.leads hs.folder
  folder := hk.folders _ hs.folder
  spells := by
    obtain ⟨b, hb, hspelled⟩ := hs.spells
    exact ⟨b, hk.bytes _ b hD hb, hspelled⟩

theorem of_tree (htree : PlainTree home d h) (hroom : HasRoom (rootAt home) fileName) {b : Bytes}
    (hb : d.bytesAt (filePlace h) = some b) (hspelled : spelled (fileAt home) b = .ok s) :
    Configured home h s d := by
  obtain ⟨m, t, hx⟩ := bytesAt_eq_some_iff.mp hb
  have hfolder : d.HasFolder (rootPlace h) :=
    (htree.parents fileName _ _ (List.suffix_cons rootName h) hx).2
  have htree' := htree.child (hroom.above (bytes_ne_nil htree.leads) isName_rootName) hfolder
  exact ⟨hroom, htree'.leads, htree'.folder, b, hb, hspelled⟩

end Configured

theorem spelled_of_storedIn {path : Path} {x : Entry} (hx : storedIn path (some x) = .ok s) :
    ∃ b m t, x = .file b m t ∧ spelled path b = .ok s := by
  cases x with
  | file b m t => exact ⟨b, m, t, rfl, hx⟩
  | folder | link => exact absurd hx nofun

section Tree

variable (htree : PlainTree home d h)

include htree

theorem configured_of_storedIn {x : Entry} (hentry : (d.entryAt (fileAt home)).toOption = some x)
    (hx : storedIn (fileAt home) (some x) = .ok s) : Configured home h s d := by
  have hroom : HasRoom (rootAt home) fileName := by
    apply Classical.byContradiction
    intro hroom
    exact absurd (hentry.symm.trans (entryAt_of_no_room isName_fileName hroom)) nofun
  obtain ⟨b, m, t, rfl, hspelled⟩ := spelled_of_storedIn hx
  have hget : d.get? (filePlace h) = some (.file b m t) :=
    (htree.entryAt_grandchild isName_rootName hroom).symm.trans hentry
  exact .of_tree htree hroom (bytesAt_eq_some_iff.mpr ⟨m, t, hget⟩) hspelled

theorem configured_of_save {u : Unit} (hsave : attempt (save s home) d = (.ok u, d')) :
    Configured home h s d' := by
  rcases altersRoot_of_saves htree (saves_of_attempt hsave) with
    ⟨⟨_, herror⟩, -⟩ | ⟨-, hr, -, hroom, text, t, htext, hx⟩
  · exact absurd herror nofun
  · have hb := bytesAt_eq_some_iff.mpr ⟨_, _, hx⟩
    exact .of_tree (hr.tree htree) hroom hb (spelled_of_toYaml? htext)

theorem keeps_save {r : Except SettingsError Unit}
    (hnone : (d.entryAt (fileAt home)).toOption = none)
    (hsave : attempt (save s home) d = (r, d')) : Keeps (· = draftPlace h) d d' := by
  rcases altersRoot_of_saves htree (saves_of_attempt hsave) with
    ⟨-, rfl | hr⟩ | ⟨-, hr, -, hroom, -⟩
  · exact .refl _ _
  · exact hr.keeps htree fun n b hn _ => hn
  · have hfree : d.get? (filePlace h) = none :=
      (htree.entryAt_grandchild isName_rootName hroom).symm.trans hnone
    apply hr.keeps htree
    rintro n b (rfl | rfl) hb
    · rfl
    · rw [filePlace] at hfree
      simp [Disk.bytesAt, hfree] at hb

/-- The settings that the program is set up with are stored then, and every file but the draft is
kept. They are the usual ones or have been there before. -/
theorem init_cases {r : Except SettingsError Settings} (hinit : attempt (init home) d = (r, d')) :
    Keeps (· = draftPlace h) d d' ∧ ((∃ e, r = .error e) ∨
      ∃ s, r = .ok s ∧ Configured home h s d' ∧
        (s = {} ∨ attempt (load home) d = (.ok s, d) ∧ d' = d)) := by
  rw [attempt_init] at hinit
  cases hentry : (d.entryAt (fileAt home)).toOption with
  | some x =>
    rw [hentry] at hinit
    have hload := hinit
    rw [attempt_load, hentry] at hload
    obtain ⟨hr, rfl⟩ := Prod.mk.inj hload
    constructor
    · exact .refl _ d
    · cases r with
      | error e => exact .inl ⟨e, rfl⟩
      | ok s => exact .inr ⟨s, rfl, configured_of_storedIn htree hentry hr, .inr ⟨hinit, rfl⟩⟩
  | none =>
    rw [hentry] at hinit
    rcases hsave : attempt (save {} home) d with ⟨e | u, d₁⟩
    · rw [hsave] at hinit
      obtain ⟨rfl, rfl⟩ := Prod.mk.inj hinit
      exact ⟨keeps_save htree hentry hsave, .inl ⟨e, rfl⟩⟩
    · rw [hsave] at hinit
      obtain ⟨rfl, rfl⟩ := Prod.mk.inj hinit
      have hconfigured := configured_of_save htree hsave
      exact ⟨keeps_save htree hentry hsave, .inr ⟨{}, rfl, hconfigured, .inl rfl⟩⟩

end Tree

end Settings

namespace DirectoryStore

variable {dir : Path} {extension : String} {store store' : DirectoryStore}

theorem keeps_openAt (D : Place → Prop) {r : Except TemplateError DirectoryStore}
    (hopen : (openAt dir extension).run d = (r, d')) : Keeps D d d' := by
  rcases run_openAt dir extension d with hrun | hrun | ⟨fault, hrun⟩
  · obtain ⟨-, rfl⟩ := Prod.mk.inj (hrun.symm.trans hopen)
    exact .refl D d
  · obtain ⟨-, rfl⟩ := Prod.mk.inj (hrun.symm.trans hopen)
    exact keeps_makeFolders D dir d
  · obtain ⟨-, rfl⟩ := Prod.mk.inj (hrun.symm.trans hopen)
    exact keeps_makeFolders D dir d

theorem resolve_makeFolders_of_openAt (hopen : (openAt dir extension).run d = (.ok store, d'))
    (hleads : d'.resolve true dir = .ok q) (hfolder : d'.HasFolder q) :
    ((Program.makeFolders dir).run d).2.resolve true dir = .ok q := by
  rcases run_openAt dir extension d with hrun | hrun | ⟨fault, hrun⟩
  · obtain ⟨-, rfl⟩ := Prod.mk.inj (hrun.symm.trans hopen)
    have hk := keeps_makeFolders (fun _ => False) dir d
    exact resolve_mono hk.links hk.here hk.folders hleads hfolder
  · obtain ⟨-, rfl⟩ := Prod.mk.inj (hrun.symm.trans hopen)
    exact hleads
  · exact absurd (hrun.symm.trans hopen) (by simp)

/-- A store on its own, whose folder shows the protected template. -/
def Seeded (dir : Path) (extension : String) (s : DirectoryStore) (d : Disk) : Prop :=
  ∃ q, Settled dir extension q s d ∧ ∃ t, s.shown d q defaultName = .ok t

theorem seedDefault_of_opened (hd : d.Named) (hdot : '.' ∉ extension.toList)
    (hslash : '/' ∉ extension.toList)
    (hlink : ∀ q, d.resolve true dir = .ok q → d.HasFolder q → ∀ f, d.NoLink (f :: q))
    {r : Except TemplateError (Option Template)}
    (hseed : TemplateStore.seedDefault.exec (⟨dir, extension, {}⟩ : DirectoryStore) d =
      (r, store', d')) :
    (∃ q, Keeps (· = seedDraft extension q) d d') ∧
      ((∃ e, r = .error e) ∨ (∃ u, r = .ok u) ∧ Seeded dir extension store' d') := by
  cases hlist : d.list dir with
  | error fault =>
    rw [seedDefault_of_list_error hlist] at hseed
    obtain ⟨rfl, rfl, rfl⟩ : .error (.storage dir fault) = r ∧ ⟨dir, extension, {}⟩ = store' ∧
        d = d' := by simpa using hseed
    exact ⟨⟨[], .refl _ d⟩, .inl ⟨_, rfl⟩⟩
  | ok files =>
    obtain ⟨q, hleads, hfolder⟩ := leads_of_list (s := ⟨dir, extension, {}⟩) hlist
    have hplain : PlainFolder dir d q :=
      ⟨hleads, hfolder, fun f x hx => hd.names hx f List.mem_cons_self, hlink q hleads hfolder⟩
    obtain ⟨hkeeps, hend⟩ := (settled_of_fresh hplain).seedDefault_cases hdot hslash hseed
    refine ⟨⟨q, hkeeps⟩, hend.imp_right fun ⟨hok, hsettled, hshown⟩ => ?_⟩
    exact ⟨hok, q, hsettled, hshown⟩

theorem Seeded.seedDefault (hs : Seeded dir extension store d) (hdot : '.' ∉ extension.toList) :
    (openAt dir extension).run d = (.ok ⟨dir, extension, {}⟩, d) ∧
      ∃ store', TemplateStore.seedDefault.exec (⟨dir, extension, {}⟩ : DirectoryStore) d =
        (.ok none, store', d) := by
  obtain ⟨q, hsettled, t, ht⟩ := hs
  have hfolder := hsettled.works.folder
  have hfresh := (settled_of_fresh hfolder : Settled dir extension q _ d)
  have ht' : (⟨dir, extension, {}⟩ : DirectoryStore).shown d q defaultName = .ok t := by
    rw [← ht]
    exact shown_of_same hsettled.works.dir_eq.symm hsettled.works.extension_eq.symm _
  constructor
  · exact run_openAt_of_folder extension hfolder.leads hfolder.folder
  · exact ⟨_, hfresh.seedDefault_of_shown hdot ht'⟩

end DirectoryStore

namespace App

open Settings

theorem attempt_ofSettingsM {α : Type} (m : SettingsM α) (d : Disk) :
    attempt (SetupM.ofSettingsM m) d =
      ((attempt m d).1.mapError AppError.settings, (attempt m d).2) :=
  attempt_mapError AppError.settings m.run d

theorem attempt_ofSettings (s : Settings) (home : Path) (d : Disk) :
    attempt (ofSettings s home) d =
      match (DirectoryStore.openAt (s.templatesDirAt home) s.templateExtension).run d with
      | (.ok store, d') => (.ok ⟨s, store⟩, d')
      | (.error e, d') => (.error (.template e), d') := by
  show (DirectoryStore.openAt _ _ >>= _).run d = _
  rw [run_bind]
  rcases (DirectoryStore.openAt _ _).run d with ⟨_ | _, d'⟩ <;> rfl

theorem attempt_openAt (home : Path) (d : Disk) :
    attempt (openAt home) d =
      match (attempt (Settings.load home) d).1 with
      | .error e => (.error (.settings e), d)
      | .ok s =>
        match (DirectoryStore.openAt (s.templatesDirAt home) s.templateExtension).run d with
        | (.error e, d') => (.error (.template e), d')
        | (.ok store, d') => (.ok ⟨s, store⟩, d') := by
  have hdisk : (attempt (Settings.load home) d).2 = d := by rw [attempt_load]
  rw [openAt, attempt_bind, attempt_ofSettingsM, hdisk]
  rcases (attempt (Settings.load home) d).1 with e | s
  · rfl
  · simp only [StoreM.mapError_ok, attempt_ofSettings]
    rcases (DirectoryStore.openAt _ _).run d with ⟨_ | _, d'⟩ <;> rfl

theorem keeps_openAt (D : Place → Prop) {r : Except AppError (App DirectoryStore)}
    (hopen : attempt (openAt home) d = (r, d')) : Keeps D d d' := by
  rw [attempt_openAt] at hopen
  rcases hload : (attempt (Settings.load home) d).1 with e | s
  · rw [hload] at hopen
    obtain ⟨-, rfl⟩ := Prod.mk.inj hopen
    exact .refl D d
  · rw [hload] at hopen
    rcases hstore : (DirectoryStore.openAt (s.templatesDirAt home) s.templateExtension).run d with
      ⟨e | store, d₁⟩
    · simp only [hstore] at hopen
      obtain ⟨-, rfl⟩ := Prod.mk.inj hopen
      exact DirectoryStore.keeps_openAt D hstore
    · simp only [hstore] at hopen
      obtain ⟨-, rfl⟩ := Prod.mk.inj hopen
      exact DirectoryStore.keeps_openAt D hstore

theorem attempt_initAt (home : Path) (d : Disk) :
    attempt (initAt home) d =
      match attempt (Settings.init home) d with
      | (.error e, d') => (.error (.settings e), d')
      | (.ok s, d₁) =>
        match (DirectoryStore.openAt (s.templatesDirAt home) s.templateExtension).run d₁ with
        | (.error e, d') => (.error (.template e), d')
        | (.ok store, d₂) =>
          match TemplateStore.seedDefault.exec store d₂ with
          | (.error e, _, d') => (.error (.template e), d')
          | (.ok _, store', d') => (.ok ⟨s, store'⟩, d') := by
  rw [initAt]
  simp only [attempt_bind, attempt_ofSettingsM]
  rcases attempt (Settings.init home) d with ⟨e | s, d₁⟩
  · rfl
  simp only [StoreM.mapError_ok, attempt_ofSettings]
  rcases (DirectoryStore.openAt _ _).run d₁ with ⟨e | store, d₂⟩
  · rfl
  show (TemplateStore.seedDefault.start store >>= _).run d₂ = _
  rw [run_bind]
  simp only [StoreM.exec]
  rcases (TemplateStore.seedDefault.start store).run d₂ with ⟨⟨_ | _, _⟩, _⟩ <;> rfl

/-- A draft of a document or of the settings lies here. -/
def IsDraft (p : Place) : Prop :=
  ∃ extension name q, p = encode (DirectoryStore.draftName extension name) :: q

theorem not_isDraft_fileName {extension name : String} (hdot : '.' ∉ extension.toList)
    (htmp : extension ≠ "tmp") (q : Place) :
    ¬ IsDraft (encode (DirectoryStore.fileName extension name) :: q) := by
  rintro ⟨extension', name', q', heq⟩
  exact DirectoryStore.encode_draftName_ne hdot htmp (List.cons.inj heq).1.symm

theorem not_isDraft_protectedFile {extension : String} (hdot : '.' ∉ extension.toList)
    (q : Place) : ¬ IsDraft (DirectoryStore.protectedFile extension :: q) := by
  rintro ⟨extension', name, q', heq⟩
  exact DirectoryStore.encode_draftName_ne_protectedFile hdot (List.cons.inj heq).1.symm

theorem not_isDraft_filePlace (h : Place) : ¬ IsDraft (filePlace h) := by
  have hname : fileName = encode (DirectoryStore.fileName "yaml" "config") := by decide
  rw [filePlace, hname]
  exact not_isDraft_fileName (by decide) (by decide) _

theorem isDraft_draftPlace (h : Place) : IsDraft (draftPlace h) := by
  have hname : draftName = encode (DirectoryStore.draftName "yaml" "config") := by decide
  exact ⟨"yaml", "config", rootPlace h, by rw [draftPlace, hname]⟩

/-- Settings with which documents can be told by their names. A folder that is set may lie outside
of the home; then no symbolic links lie in it, once it has been made. -/
structure Usable (h : Place) (d : Disk) (s : Settings) : Prop where
  no_dot : '.' ∉ s.templateExtension.toList
  no_slash : '/' ∉ s.templateExtension.toList
  no_link : ∀ dir, s.templatesDir = some dir → ∀ q,
    ((Program.makeFolders dir).run d).2.resolve true dir = .ok q → ¬ h <:+ q →
      ∀ f, d.NoLink (f :: q)

theorem usable_default (h : Place) (d : Disk) : Usable h d {} := ⟨by decide, by decide, nofun⟩

/-- What the program stands on after it was set up. -/
structure Ready (home : Path) (h : Place) (app : App DirectoryStore) (d : Disk) : Prop where
  configured : Configured home h app.settings d
  no_dot : '.' ∉ app.settings.templateExtension.toList
  seeded : DirectoryStore.Seeded (app.settings.templatesDirAt home) app.settings.templateExtension
    app.store d

theorem noLink_templates {d₁ d₂ : Disk} {store : DirectoryStore} (htree : PlainTree home d h)
    (hlinks : SameLinks d d₁) (hs : Configured home h s d₁)
    (husable : Usable h d s) (hold : s = {} ∨ d₁ = d)
    (hopen : (DirectoryStore.openAt (s.templatesDirAt home) s.templateExtension).run d₁ =
      (.ok store, d₂))
    (hleads : d₂.resolve true (s.templatesDirAt home) = .ok q) (hfolder : d₂.HasFolder q) :
    ∀ f, d₂.NoLink (f :: q) := by
  have hopened := DirectoryStore.keeps_openAt (fun _ => False) hopen
  have hlinks₂ : SameLinks d d₂ := hlinks.trans hopened.links
  intro f
  rw [hlinks₂.noLink_iff]
  cases hdir : s.templatesDir with
  | none =>
    have hpath : s.templatesDirAt home = (rootAt home).child "templates" := by
      rw [templatesDirAt, hdir]
      rfl
    have hroot := (hs.of_keeps hopened id).leads
    rw [hpath] at hleads
    obtain ⟨q', -, hleads', hq⟩ :=
      resolve_of_join (n := encode "templates") (by decide) (bytes_ne_nil hroot) hleads
    obtain rfl := Except.ok.inj (hleads'.symm.trans hroot)
    have hbelow : h <:+ encode "templates" :: rootPlace h := ⟨[encode "templates", rootName], rfl⟩
    rcases hq with rfl | ⟨-, hlink⟩
    · exact htree.no_link _ (hbelow.trans (List.suffix_cons _ _))
    · exact absurd (hlinks₂.noLink_iff.mpr (htree.no_link _ hbelow)) hlink
  | some dir =>
    have hpath : s.templatesDirAt home = dir := by
      rw [templatesDirAt, hdir]
      rfl
    rcases hold with rfl | rfl
    · exact absurd hdir nofun
    · rw [hpath] at hopen hleads
      have hmade := DirectoryStore.resolve_makeFolders_of_openAt hopen hleads hfolder
      by_cases hbelow : h <:+ q
      · exact htree.no_link _ (hbelow.trans (List.suffix_cons f q))
      · exact husable.no_link dir hdir q hmade hbelow f

/-- However setting up ends, every file but the drafts is kept. Where it succeeds the program is
ready. -/
theorem initAt_cases (htree : PlainTree home d h) (hd : d.Named)
    (husable : ∀ s, attempt (load home) d = (.ok s, d) → Usable h d s)
    {r : Except AppError (App DirectoryStore)} (hinit : attempt (initAt home) d = (r, d')) :
    Keeps IsDraft d d' ∧ ((∃ e, r = .error e) ∨ ∃ app, r = .ok app ∧ Ready home h app d') := by
  rw [attempt_initAt] at hinit
  rcases hset : attempt (Settings.init home) d with ⟨r₁, d₁⟩
  rw [hset] at hinit
  obtain ⟨hkeeps, hcases⟩ := Settings.init_cases htree hset
  have hkeeps₁ : Keeps IsDraft d d₁ := hkeeps.mono fun p hp => hp ▸ isDraft_draftPlace h
  rcases hcases with ⟨e, rfl⟩ | ⟨s, rfl, hconfigured, hold⟩
  · obtain ⟨rfl, rfl⟩ := Prod.mk.inj hinit
    exact ⟨hkeeps₁, .inl ⟨_, rfl⟩⟩
  have hs : Usable h d s := by
    rcases hold with rfl | ⟨hload, -⟩
    · exact usable_default h d
    · exact husable s hload
  dsimp only at hinit
  rcases hopen : (DirectoryStore.openAt (s.templatesDirAt home) s.templateExtension).run d₁ with
    ⟨e | store, d₂⟩
  · rw [hopen] at hinit
    obtain ⟨rfl, rfl⟩ := Prod.mk.inj hinit
    exact ⟨hkeeps₁.trans (DirectoryStore.keeps_openAt IsDraft hopen), .inl ⟨_, rfl⟩⟩
  rw [hopen] at hinit
  dsimp only at hinit
  have hkeeps₂ : Keeps IsDraft d d₂ := hkeeps₁.trans (DirectoryStore.keeps_openAt IsDraft hopen)
  obtain rfl := DirectoryStore.eq_of_openAt hopen
  rcases hseed : TemplateStore.seedDefault.exec (⟨s.templatesDirAt home, s.templateExtension, {}⟩ :
    DirectoryStore) d₂ with ⟨r₃, store', d₃⟩
  rw [hseed] at hinit
  obtain ⟨⟨q, hdrafted⟩, hcases⟩ := DirectoryStore.seedDefault_of_opened (hkeeps₂.named hd)
    hs.no_dot hs.no_slash (fun q hleads hfolder => noLink_templates htree hkeeps.links hconfigured
      hs (hold.imp_right And.right) hopen hleads hfolder) hseed
  have hkeeps₃ : Keeps IsDraft d₂ d₃ := hdrafted.mono fun p hp => ⟨_, _, q, hp⟩
  rcases hcases with ⟨e, rfl⟩ | ⟨⟨u, rfl⟩, hseeded⟩
  · obtain ⟨rfl, rfl⟩ := Prod.mk.inj hinit
    exact ⟨hkeeps₂.trans hkeeps₃, .inl ⟨_, rfl⟩⟩
  · obtain ⟨rfl, rfl⟩ := Prod.mk.inj hinit
    refine ⟨hkeeps₂.trans hkeeps₃, .inr ⟨⟨s, store'⟩, rfl, ?_, hs.no_dot, hseeded⟩⟩
    exact (hconfigured.of_keeps (DirectoryStore.keeps_openAt IsDraft hopen)
      (not_isDraft_filePlace h)).of_keeps hkeeps₃ (not_isDraft_filePlace h)

theorem Ready.get {app : App DirectoryStore} (hr : Ready home h app d) :
    ∃ t, ((TemplateStore.get defaultName).exec app.store d).1 = .ok t := by
  obtain ⟨q, hsettled, t, ht⟩ := hr.seeded
  exact ⟨t, by rw [hsettled.exec_get hr.no_dot, ht]⟩

/-- To set up a program that is ready changes nothing. -/
theorem Ready.again {app : App DirectoryStore} (hr : Ready home h app d) :
    ∃ app', attempt (initAt home) d = (.ok app', d) ∧ app'.settings = app.settings := by
  obtain ⟨hopen, store', hseed⟩ := hr.seeded.seedDefault hr.no_dot
  refine ⟨⟨app.settings, store'⟩, ?_, rfl⟩
  rw [attempt_initAt, hr.configured.attempt_init]
  simp only [hopen, hseed]

def plainText : Settings where
  templateExtension := "txt"

/-- A home with these settings, in which a document lies but not the protected one. -/
def greetingDisk : Disk where
  entries := [([], .folder 0), ([encode "home"], .folder 0),
    (rootPlace [encode "home"], .folder 0),
    (filePlace [encode "home"], .file (encode (plainText.toYaml?.getD "")) fileMode 0),
    (encode "templates" :: rootPlace [encode "home"], .folder 0),
    (encode "hello.txt" :: encode "templates" :: rootPlace [encode "home"],
      .file (encode "Hi") 0o644 0)]
  here := []
  now := 1
  distinct := by decide

theorem entries_greetingDisk : ∀ e ∈ greetingDisk.entries,
    (∀ n ∈ e.1, IsName n) ∧ greetingDisk.get? e.1.tail = some (.folder 0) := by decide

theorem noLink_greetingDisk (p : Place) : greetingDisk.NoLink p := by
  intro target hx
  have hmem := mem_entries_iff.mpr hx
  simp [greetingDisk] at hmem

theorem plainTree_greetingDisk :
    PlainTree (Path.ofString "/home") greetingDisk [encode "home"] where
  leads := rfl
  folder := ⟨0, rfl⟩
  parents n p x _ hx := by
    obtain ⟨hnames, hparent⟩ := entries_greetingDisk _ (mem_entries_iff.mpr hx)
    exact ⟨hnames n List.mem_cons_self, 0, hparent⟩
  no_link p _ := noLink_greetingDisk p

theorem named_greetingDisk : greetingDisk.Named where
  here := nofun
  names hx := (entries_greetingDisk _ (mem_entries_iff.mpr hx)).1
  links hx := absurd hx (noLink_greetingDisk _ _)

theorem configured_greetingDisk :
    Configured (Path.ofString "/home") [encode "home"] plainText greetingDisk := by
  have htext : plainText.toYaml? = some (plainText.toYaml?.getD "") := rfl
  apply Configured.of_tree plainTree_greetingDisk ⟨isName_fileName, by decide⟩
  · rfl
  · exact spelled_of_toYaml? htext

end App

end MailMerge
