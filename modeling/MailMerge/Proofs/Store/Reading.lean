import MailMerge.Proofs.Store.Interruption
import MailMerge.Proofs.Store.View

/-! # Reading through the index

A look-up reads the folder again unless the signal of the index is that of the folder. As long as
equal signals mean equal documents, its answer is what the folder shows.
-/

namespace MailMerge

open Disk Utf8

namespace DirectoryStore

variable {s : DirectoryStore} {d : Disk} {q : Place} {name : String} {fault : Fault}

/-- An index with the signal of the folder shows what the folder shows. -/
def Current (s : DirectoryStore) (d : Disk) (q : Place) : Prop :=
  s.index.signal = some (s.signalAt d q) → s.index.Shows s d q

def reread (s : DirectoryStore) (d : Disk) (q : Place) : DirectoryStore :=
  { s with index := s.indexAt d q }

def refreshed (s : DirectoryStore) (d : Disk) (q : Place) : DirectoryStore :=
  if s.index.signal = some (s.signalAt d q) then s else s.reread d q

theorem FolderAt.of_reread (h : s.FolderAt d q) : (s.reread d q).FolderAt d q :=
  ⟨h.plain, h.leads, h.folder, h.names⟩

theorem shows_reread (h : s.FolderAt d q) : (s.reread d q).index.Shows (s.reread d q) d q :=
  ⟨(shows_indexAt h).templates, (shows_indexAt h).unreadable⟩

theorem look_eq_ok {p : Path} (h : d.resolve true p = .ok q) {t : Moment}
    (ht : d.get? q = some (.folder t)) : d.look p = .ok ⟨false, true, t⟩ := by
  simp only [look, entryAt, h, bind, Except.bind, ht, pure, Except.pure]
  rfl

theorem run_pathExists (path : Path) (d : Disk) :
    (Program.pathExists path).run d = ((d.look path).isOk, d) := by
  have hlook : d.perform (.look path) = (d.look path, d) := rfl
  rw [Program.pathExists, Program.run_bind, Program.run_perform, hlook]
  cases d.look path <;> rfl

/-- Opening a store changes the disk only where folders have to be made for it. -/
theorem run_openAt (dir : Path) (extension : String) (d : Disk) :
    (openAt dir extension).run d = (.ok ⟨dir, extension, {}⟩, d) ∨
      (openAt dir extension).run d =
        (.ok ⟨dir, extension, {}⟩, ((Program.makeFolders dir).run d).2) ∨
      ∃ fault, (openAt dir extension).run d =
        (.error (.storage dir fault), ((Program.makeFolders dir).run d).2) := by
  rw [openAt, Program.run_bind, run_pathExists]
  cases (d.look dir).isOk with
  | true => exact .inl rfl
  | false =>
    rw [if_neg (by simp), Program.run_bind]
    rcases (Program.makeFolders dir).run d with ⟨fault | _, d'⟩
    · exact .inr (.inr ⟨fault, rfl⟩)
    · exact .inr (.inl rfl)

theorem eq_of_openAt {dir : Path} {extension : String} {d₀ : Disk}
    (h : (openAt dir extension).run d₀ = (.ok s, d)) : s = ⟨dir, extension, {}⟩ := by
  rcases run_openAt dir extension d₀ with hrun | hrun | ⟨fault, hrun⟩ <;>
    simp only [hrun, Prod.mk.injEq, Except.ok.injEq, reduceCtorEq, false_and] at h
  · exact h.1.symm
  · exact h.1.symm

theorem run_openAt_of_folder {dir : Path} (extension : String) (h : d.resolve true dir = .ok q)
    (hq : d.HasFolder q) : (openAt dir extension).run d = (.ok ⟨dir, extension, {}⟩, d) := by
  obtain ⟨t, ht⟩ := hq
  rw [openAt, Program.run_bind, run_pathExists, look_eq_ok h ht]
  rfl

theorem list_of_leads (h : d.resolve true s.dir = .ok q) (hq : d.HasFolder q) :
    d.list s.dir = .ok ((d.children q).map fun c => (c.1, c.2.info)) := by
  obtain ⟨t, ht⟩ := hq
  simp only [Disk.list, h, bind, Except.bind, ht, pure, Except.pure]

theorem list_eq_ok (h : s.FolderAt d q) :
    d.list s.dir = .ok ((d.children q).map fun c => (c.1, c.2.info)) :=
  list_of_leads h.leads h.folder

theorem list_eq_error_of_look {p : Path} (h : d.look p = .error fault) :
    d.list p = .error fault := by
  cases hp : d.resolve true p with
  | error e =>
    simp only [look, entryAt, hp, bind, Except.bind, Functor.map, Except.map] at h
    simp only [Disk.list, hp, bind, Except.bind]
    exact congrArg Except.error (Except.error.inj h)
  | ok r =>
    cases hr : d.get? r with
    | none =>
      simp only [look, entryAt, hp, hr, bind, Except.bind, Functor.map, Except.map, throw, throwThe,
        MonadExceptOf.throw] at h
      simp only [Disk.list, hp, hr, bind, Except.bind, throw, throwThe, MonadExceptOf.throw]
      exact congrArg Except.error (Except.error.inj h)
    | some x => simp [look, entryAt, hp, hr, bind, Except.bind, pure, Except.pure, Functor.map,
        Except.map] at h

theorem exec_scan_error (h : d.list s.dir = .error fault) :
    scan.exec s d = (.error (.storage s.dir fault), s, d) := by
  rw [scan]
  simp only [StoreM.exec_bind, StoreM.exec_get, StoreM.followUp_ok, StoreM.exec_look]
  cases hlook : d.look s.dir with
  | error e =>
    obtain rfl := Except.error.inj ((list_eq_error_of_look hlook).symm.trans h)
    simp only [StoreM.mapError_error, StoreM.followUp_error]
  | ok info =>
    simp only [StoreM.mapError_ok, StoreM.followUp_ok, StoreM.exec_bind, StoreM.exec_listing, h,
      StoreM.mapError_error, StoreM.followUp_error]

theorem exec_load :
    (load (s.docsAt d q) (s.signalAt d q)).exec s d = (.ok (), s.reread d q, d) := by
  have hdisk := (looks_readAll (s.docsAt d q)).run d
  rw [load]
  simp only [StoreM.exec_bind, StoreM.exec_liftM, StoreM.followUp_ok, StoreM.exec_modify, hdisk]
  rfl

theorem exec_find (name : String) : (find name).exec s d = (s.index.find name, s, d) := rfl

section Leads

variable (hleads : d.resolve true s.dir = .ok q) (hfolder : d.HasFolder q)

include hleads hfolder

theorem exec_scan : scan.exec s d = (.ok (s.docsAt d q, s.signalAt d q), s, d) := by
  have hlist := list_of_leads hleads hfolder
  obtain ⟨t, ht⟩ := hfolder
  rw [scan]
  simp only [StoreM.exec_bind, StoreM.exec_get, StoreM.followUp_ok, StoreM.exec_look,
    look_eq_ok hleads ht, StoreM.exec_listing, hlist, StoreM.mapError_ok, StoreM.exec_pure]
  simp only [signalAt, ht, Option.map_some, Option.getD_some, Entry.stamp, docsAt]

theorem exec_reload_of_leads : reload.exec s d = (.ok (), s.reread d q, d) := by
  rw [reload]
  simp only [StoreM.exec_bind, exec_scan hleads hfolder, StoreM.followUp_ok, exec_load]

theorem exec_refresh_of_leads : refresh.exec s d = (.ok (), s.refreshed d q, d) := by
  rw [refresh]
  simp only [StoreM.exec_bind, exec_scan hleads hfolder, StoreM.followUp_ok, StoreM.exec_get]
  by_cases hs : s.index.signal = some (s.signalAt d q)
  · simp only [hs, if_true, StoreM.exec_pure, refreshed]
  · simp only [hs, if_false, exec_load, refreshed]

theorem exec_get_of_leads (name : String) :
    (TemplateStore.get name : StoreM DirectoryStore _).exec s d =
      ((s.refreshed d q).index.find name, s.refreshed d q, d) := by
  show StoreM.exec (do refresh; find name) s d = _
  simp only [StoreM.exec_bind, exec_refresh_of_leads hleads hfolder, StoreM.followUp_ok, exec_find]

theorem exec_list_of_leads :
    (TemplateStore.list : StoreM DirectoryStore _).exec s d =
      (.ok (s.refreshed d q).index.templates.values, s.refreshed d q, d) := by
  show StoreM.exec (do refresh; return (← get).index.templates.values) s d = _
  simp only [StoreM.exec_bind, exec_refresh_of_leads hleads hfolder, StoreM.followUp_ok,
    StoreM.exec_get, StoreM.exec_pure]

end Leads

theorem exec_reload (h : s.FolderAt d q) : reload.exec s d = (.ok (), s.reread d q, d) :=
  exec_reload_of_leads h.leads h.folder

theorem exec_refresh (h : s.FolderAt d q) : refresh.exec s d = (.ok (), s.refreshed d q, d) :=
  exec_refresh_of_leads h.leads h.folder

theorem exec_refresh_error (h : d.list s.dir = .error fault) :
    refresh.exec s d = (.error (.storage s.dir fault), s, d) := by
  rw [refresh]
  simp only [StoreM.exec_bind, exec_scan_error h, StoreM.followUp_error]

theorem exec_reload_error (h : d.list s.dir = .error fault) :
    reload.exec s d = (.error (.storage s.dir fault), s, d) := by
  rw [reload]
  simp only [StoreM.exec_bind, exec_scan_error h, StoreM.followUp_error]

theorem refreshed_eq (s : DirectoryStore) (d : Disk) (q : Place) :
    s.refreshed d q = s ∨ s.refreshed d q = s.reread d q := by
  unfold refreshed
  split
  · exact .inl rfl
  · exact .inr rfl

@[simp] theorem dir_refreshed : (s.refreshed d q).dir = s.dir := by
  rcases refreshed_eq s d q with h | h
  · rw [h]
  · rw [h]
    rfl

@[simp] theorem extension_refreshed : (s.refreshed d q).extension = s.extension := by
  rcases refreshed_eq s d q with h | h
  · rw [h]
  · rw [h]
    rfl

/-- After a look at the folder the index shows what the folder shows. -/
theorem shows_refreshed (h : s.FolderAt d q) (hc : s.Current d q) :
    (s.refreshed d q).index.Shows s d q := by
  unfold refreshed
  split
  · exact hc ‹_›
  · exact shows_indexAt h

theorem exec_get (h : s.FolderAt d q) (hc : s.Current d q) (name : String) :
    (TemplateStore.get name : StoreM DirectoryStore _).exec s d =
      (s.shown d q name, s.refreshed d q, d) := by
  rw [exec_get_of_leads h.leads h.folder, find_of_shows (shows_refreshed h hc)]

theorem exec_get_error (h : d.list s.dir = .error fault) (name : String) :
    (TemplateStore.get name : StoreM DirectoryStore _).exec s d =
      (.error (.storage s.dir fault), s, d) := by
  show StoreM.exec (do refresh; find name) s d = _
  simp only [StoreM.exec_bind, exec_refresh_error h, StoreM.followUp_error]

theorem exec_list (h : s.FolderAt d q) :
    (TemplateStore.list : StoreM DirectoryStore _).exec s d =
      (.ok (s.refreshed d q).index.templates.values, s.refreshed d q, d) :=
  exec_list_of_leads h.leads h.folder

theorem exec_list_error (h : d.list s.dir = .error fault) :
    (TemplateStore.list : StoreM DirectoryStore _).exec s d =
      (.error (.storage s.dir fault), s, d) := by
  show StoreM.exec (do refresh; return (← get).index.templates.values) s d = _
  simp only [StoreM.exec_bind, exec_refresh_error h, StoreM.followUp_error]

def rootStore (slashes : Nat) : DirectoryStore := ⟨⟨List.replicate slashes Path.slash⟩, "html", {}⟩

theorem length_child_slashes {k : Nat} {n : Bytes} (hk : 0 < k) (hn : IsStep n) :
    (Path.join ⟨List.replicate k Path.slash⟩ ⟨n⟩).bytes.length = k + n.length := by
  rw [Path.join_slashes hn hk, List.length_append, List.length_replicate]

end DirectoryStore

end MailMerge
