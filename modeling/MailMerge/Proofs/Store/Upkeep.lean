import MailMerge.Proofs.Store.Coherence

/-! # Upkeep

Whatever a store in a folder does, and however it ends, the folder evolves as it does under changes
from outside, and the index stays one that was read at a moment of the past. This is shown here of
each look at the folder and of each single change to it.
-/

namespace MailMerge

open Disk Utf8

namespace DirectoryStore

variable {α β : Type} {s s' s'' : DirectoryStore} {d d' d'' : Disk} {q : Place} {name : String}

/-- What a store in the folder at `q` and the disk may have become by a dealing. -/
structure Kept (q : Place) (s : DirectoryStore) (d : Disk) (s' : DirectoryStore) (d' : Disk) :
    Prop where
  dir : s'.dir = s.dir
  extension : s'.extension = s.extension
  evolves : Evolves q d d'
  tends : s'.Tends d' q

theorem Kept.refl (h : s.Tends d q) : Kept q s d s d := ⟨rfl, rfl, .refl q d, h⟩

theorem Kept.trans (h : Kept q s d s' d') (h' : Kept q s' d' s'' d'') : Kept q s d s'' d'' where
  dir := h'.dir.trans h.dir
  extension := h'.extension.trans h.extension
  evolves := h.evolves.trans h'.evolves
  tends := h'.tends

theorem Kept.of_evolves (h : s.Tends d q) (he : Evolves q d d') : Kept q s d s d' :=
  ⟨rfl, rfl, he, h.evolve he⟩

/-- A dealing keeps the store and the disk in order. -/
def KeptBy (q : Place) (m : StoreM DirectoryStore α) (s : DirectoryStore) (d : Disk) : Prop :=
  Kept q s d (m.exec s d).2.1 (m.exec s d).2.2

theorem KeptBy.of_exec {m : StoreM DirectoryStore α} {out : Except TemplateError α}
    (h : m.exec s d = (out, s', d')) (hk : Kept q s d s' d') : KeptBy q m s d := by
  rw [KeptBy, h]
  exact hk

theorem KeptBy.bind {m : StoreM DirectoryStore α} {f : α → StoreM DirectoryStore β}
    (h : KeptBy q m s d)
    (hf : ∀ a s' d', m.exec s d = (.ok a, s', d') → Kept q s d s' d' → KeptBy q (f a) s' d') :
    KeptBy q (m >>= f) s d := by
  rw [KeptBy] at h ⊢
  rw [StoreM.exec_bind]
  rcases hm : m.exec s d with ⟨_ | a, s', d'⟩
  · rw [hm] at h
    exact h
  · rw [hm] at h
    exact h.trans (hf a s' d' hm h)

theorem keptBy_pure (h : s.Tends d q) (a : α) : KeptBy q (pure a) s d := .refl h

theorem KeptBy.map {m : StoreM DirectoryStore α} (h : KeptBy q m s d) (f : α → β) :
    KeptBy q (m >>= fun a => pure (f a)) s d :=
  h.bind fun _ _ _ _ hk => keptBy_pure hk.tends _

theorem keptBy_get (h : s.Tends d q) : KeptBy q get s d := .refl h

theorem keptBy_ofExcept (h : s.Tends d q) (r : Except TemplateError α) :
    KeptBy q (StoreM.ofExcept r) s d := .refl h

section Reading

theorem tends_reread (h : s.Tends d q) (hat : s.FolderAt d q) : (s.reread d q).Tends d q where
  plain := h.plain
  no_slash := h.no_slash
  leads := h.leads
  no_link := h.no_link
  sound := h.sound
  index := .inr ⟨d, h.sound, .refl q d, hat.of_reread, rfl, shows_reread hat⟩

theorem kept_reread (h : s.Tends d q) (hat : s.FolderAt d q) : Kept q s d (s.reread d q) d :=
  ⟨rfl, rfl, .refl q d, tends_reread h hat⟩

theorem keptBy_reload (h : s.Tends d q) : KeptBy q reload s d := by
  cases hlist : d.list s.dir with
  | error fault => exact .of_exec (exec_reload_error hlist) (.refl h)
  | ok files =>
    have hat := h.folderAt hlist
    exact .of_exec (exec_reload hat) (kept_reread h hat)

theorem kept_refreshed (h : s.Tends d q) (hat : s.FolderAt d q) :
    Kept q s d (s.refreshed d q) d := by
  rcases refreshed_eq s d q with heq | heq
  · rw [heq]
    exact .refl h
  · rw [heq]
    exact kept_reread h hat

theorem keptBy_refresh (h : s.Tends d q) : KeptBy q refresh s d := by
  cases hlist : d.list s.dir with
  | error fault => exact .of_exec (exec_refresh_error hlist) (.refl h)
  | ok files =>
    have hat := h.folderAt hlist
    exact .of_exec (exec_refresh hat) (kept_refreshed h hat)

theorem keptBy_list (h : s.Tends d q) : KeptBy q TemplateStore.list s d := by
  exact (keptBy_refresh h).bind fun _ _ _ _ hk => (keptBy_get hk.tends).map _

theorem keptBy_find (h : s.Tends d q) (name : String) : KeptBy q (find name) s d := .refl h

theorem keptBy_getTemplate (h : s.Tends d q) (name : String) :
    KeptBy q (TemplateStore.get name) s d :=
  (keptBy_refresh h).bind fun _ _ _ _ hk => keptBy_find hk.tends name

theorem keptBy_contains (h : s.Tends d q) (name : String) :
    KeptBy q (TemplateStore.contains name) s d := by
  rw [KeptBy, TemplateStore.exec_contains]
  exact keptBy_getTemplate h name

theorem isStep_of_found (h : s.Tends d q) {u : Unit} (hrefresh : refresh.exec s d = (.ok u, s', d'))
    {t : Template} (hfind : s'.index.find name = .ok t) :
    IsStep (encode (fileName s'.extension name)) := by
  cases hlist : d.list s.dir with
  | error fault =>
    rw [exec_refresh_error hlist] at hrefresh
    simp at hrefresh
  | ok files =>
    have hat := h.folderAt hlist
    rw [exec_refresh hat] at hrefresh
    simp only [Prod.mk.injEq] at hrefresh
    obtain ⟨-, rfl, rfl⟩ := hrefresh
    rw [find_of_shows (shows_refreshed hat (h.current hat)), shown_eq_ok_iff] at hfind
    obtain ⟨html, hdoc, -⟩ := hfind
    obtain ⟨-, b, m, t, hget⟩ := file_of_document? hdoc
    rw [extension_refreshed]
    exact (h.sound.names hget _ List.mem_cons_self).toIsStep

end Reading

section Writing

variable {n m : Bytes}

theorem leads_trimmed (h : s.Tends d q) {r : Place} {follow : Bool} (hn : IsStep n)
    (hr : d.resolve follow (s.dir.join ⟨n⟩).trimSlashes = .ok r) : r = n :: q := by
  rw [Path.trimSlashes_join hn h.bytes_ne_nil] at hr
  exact h.leads_child hn hr

theorem evolves_discard (h : s.Tends d q) (hn : IsStep n)
    (hremove : d.remove (s.dir.join ⟨n⟩) = .ok d') : Evolves q d d' := by
  refine evolves_remove q hremove ?_
  obtain ⟨r, x, hr, -, -, rfl⟩ := remove_eq_ok hremove
  obtain rfl := leads_trimmed h hn hr
  exact (sameLinks_drop (d := d.tick) (h.no_link n)).stampAt _ _

theorem evolves_publish (h : s.Tends d q) (hn : IsStep n) (hm : IsStep m) {b : Bytes} {mode : Nat}
    {t : Moment} (hx : d.get? (n :: q) = some (.file b mode t))
    (hrename : d.rename (s.dir.join ⟨n⟩) (s.dir.join ⟨m⟩) = .ok d') : Evolves q d d' := by
  refine evolves_rename hrename ?_ fun r hr hsuffix => ?_
  · obtain ⟨p, r, x, hp, hr, hxp, ⟨-, rfl⟩ | ⟨-, -, rfl⟩⟩ := rename_eq_ok hrename
    · exact .refl _
    · obtain rfl := leads_trimmed h hn hp
      obtain rfl := leads_trimmed h hm hr
      obtain rfl := Option.some.inj (hxp.symm.trans hx)
      exact sameLinks_moved hx (h.no_link m)
  · obtain rfl := leads_trimmed h hm hr
    have hlen := hsuffix.length_le
    simp only [List.length_cons] at hlen
    omega

theorem file_of_write (h : s.Tends d q) (hn : IsStep n) {bytes : Bytes}
    (hwrite : d.write (s.dir.join ⟨n⟩) bytes = .ok d') :
    ∃ mode t, d'.get? (n :: q) = some (.file bytes mode t) := by
  obtain ⟨r, hr, ⟨b, m, t, -, rfl⟩ | ⟨-, rfl⟩⟩ := write_eq_ok hwrite
  · obtain rfl := leads_trimmed h hn hr
    exact ⟨m, d.tick.now, by simp⟩
  · obtain rfl := leads_trimmed h hn hr
    have hne : n :: q ≠ (n :: q).tail := fun heq => by simpa using congrArg List.length heq
    exact ⟨freshMode, d.tick.now, by rw [get?_stampAt, if_neg hne, get?_put, if_pos rfl]⟩

end Writing

end DirectoryStore

end MailMerge
