import MailMerge.Proofs.Disk.Without
import MailMerge.Proofs.Store.Settled

/-! # Stores that do not see a document

Two stores work in the same folder, but on the disk of one a document is missing that the other
cannot read. A dealing that is not about this document gives the same answer on both sides, and
afterwards the disks differ in this document only.
-/

namespace MailMerge

open Disk Utf8

namespace StoreM

variable {σ α β : Type} {u : Place} {m : StoreM σ α} {f : α → StoreM σ β} {s s' : σ} {d d' : Disk}

/-- The dealing gives the same answer on both sides, and leaves disks that differ at `u` only. -/
structure Agrees (u : Place) (m : StoreM σ α) (s s' : σ) (d d' : Disk) : Prop where
  answer : (m.exec s d).1 = (m.exec s' d').1
  disk : Without u (m.exec s d).2.2 (m.exec s' d').2.2

theorem agrees_of_exec {r : Except TemplateError α} {s₁ s₁' : σ} {d₁ d₁' : Disk}
    (hexec : m.exec s d = (r, s₁, d₁)) (hexec' : m.exec s' d' = (r, s₁', d₁'))
    (h : Without u d₁ d₁') : Agrees u m s s' d d' := by
  constructor
  · rw [hexec, hexec']
  · rw [hexec, hexec']
    exact h

theorem agrees_bind (h : Agrees u m s s' d d')
    (hok : ∀ a s₁ s₁' d₁ d₁', m.exec s d = (.ok a, s₁, d₁) → m.exec s' d' = (.ok a, s₁', d₁') →
      Without u d₁ d₁' → Agrees u (f a) s₁ s₁' d₁ d₁') :
    Agrees u (m >>= f) s s' d d' := by
  obtain ⟨hanswer, hdisk⟩ := h
  rcases hexec : m.exec s d with ⟨r, s₁, d₁⟩
  rcases hexec' : m.exec s' d' with ⟨r', s₁', d₁'⟩
  rw [hexec, hexec'] at hanswer hdisk
  obtain rfl : r = r' := hanswer
  cases r with
  | error e =>
    have hleft : (m >>= f).exec s d = (.error e, s₁, d₁) := by rw [exec_bind, hexec, followUp_error]
    have hright : (m >>= f).exec s' d' = (.error e, s₁', d₁') := by
      rw [exec_bind, hexec', followUp_error]
    exact agrees_of_exec hleft hright hdisk
  | ok a =>
    have hrest := hok a s₁ s₁' d₁ d₁' hexec hexec' hdisk
    constructor
    · rw [exec_bind, hexec, exec_bind, hexec']
      exact hrest.answer
    · rw [exec_bind, hexec, exec_bind, hexec']
      exact hrest.disk

theorem agrees_pure (h : Without u d d') (a : α) : Agrees u (pure a) s s' d d' :=
  agrees_of_exec rfl rfl h

theorem Agrees.map (h : Agrees u m s s' d d') (g : α → β) :
    Agrees u (m >>= fun a => pure (g a)) s s' d d' :=
  agrees_bind h fun a _ _ _ _ _ _ hdisk => agrees_pure hdisk (g a)

theorem agrees_check {r : Except TemplateError α} (h : Without u d d')
    (hok : ∀ a, r = .ok a → Agrees u (f a) s s' d d') :
    Agrees u (ofExcept r >>= f) s s' d d' := by
  cases r with
  | error e => exact agrees_of_exec (exec_bind _ _ _ _) (exec_bind _ _ _ _) h
  | ok a =>
    constructor
    · exact (hok a rfl).answer
    · exact (hok a rfl).disk

theorem agrees_unless {c : Prop} [Decidable c] {e : TemplateError} {next : Unit → StoreM σ α}
    (h : Without u d d') (hnext : ¬ c → Agrees u (next ()) s s' d d') :
    Agrees u (if c then throw e >>= next else next ()) s s' d d' := by
  split
  · have hthrow : (throw e >>= next : StoreM σ α) = ofExcept (.error e) >>= next := rfl
    rw [hthrow]
    exact agrees_check h nofun
  · exact hnext ‹_›

theorem agrees_state {f : σ → StoreM σ β} (hsame : f s' = f s) (h : Agrees u (f s) s s' d d') :
    Agrees u (get >>= f) s s' d d' := by
  constructor
  · rw [exec_bind, StoreM.exec_get, followUp_ok, exec_bind, StoreM.exec_get, followUp_ok, hsame]
    exact h.answer
  · rw [exec_bind, StoreM.exec_get, followUp_ok, exec_bind, StoreM.exec_get, followUp_ok, hsame]
    exact h.disk

section Requests

variable {path p p' : Path} {bytes : Bytes} (h : Without u d d')

include h

theorem agrees_of_alike {m : StoreM σ Unit} {r r' : Except Fault Disk}
    (hexec : m.exec s d =
      ((d.settle r).1.mapError (TemplateError.storage path), s, (d.settle r).2))
    (hexec' : m.exec s' d' =
      ((d'.settle r').1.mapError (TemplateError.storage path), s', (d'.settle r').2))
    (ha : Alike u r r') : Agrees u m s s' d d' := by
  cases ha with
  | error fault => exact agrees_of_exec hexec hexec' h
  | ok hdisk => exact agrees_of_exec hexec hexec' hdisk

theorem agrees_write (ha : Alike u (d.write p bytes) (d'.write p bytes)) :
    Agrees u (request path (Program.perform (.write p bytes))) s s' d d' :=
  agrees_of_alike h (exec_write path p bytes s d) (exec_write path p bytes s' d') ha

theorem agrees_rename (ha : Alike u (d.rename p p') (d'.rename p p')) :
    Agrees u (request path (Program.perform (.rename p p'))) s s' d d' :=
  agrees_of_alike h (exec_rename path p p' s d) (exec_rename path p p' s' d') ha

theorem agrees_remove (ha : Alike u (d.remove p) (d'.remove p)) :
    Agrees u (request path (Program.perform (.remove p))) s s' d d' :=
  agrees_of_alike h (exec_remove path p s d) (exec_remove path p s' d') ha

end Requests

end StoreM

open StoreM

namespace DirectoryStore

variable {dir : Path} {extension name u : String} {q : Place} {s s' : DirectoryStore}
  {d d' : Disk} {t : Template}

theorem shown_of_same (hdir : s'.dir = s.dir) (hextension : s'.extension = s.extension)
    (n : String) : s'.shown d q n = s.shown d q n := by
  obtain ⟨dir', extension', ix'⟩ := s'
  obtain rfl : dir' = s.dir := hdir
  obtain rfl : extension' = s.extension := hextension
  rfl

section Writing

variable (h : WorksIn dir extension q s d) (h' : WorksIn dir extension q s' d')
  (hdisk : Without (placeOf extension q u) d d')

include h h'

theorem pathFor_eq_pathFor (n : String) : s'.pathFor n = s.pathFor n := by
  rw [h.pathFor_eq, h'.pathFor_eq]

theorem draftPathFor_eq_draftPathFor (n : String) : s'.draftPathFor n = s.draftPathFor n := by
  rw [h.draftPathFor_eq, h'.draftPathFor_eq]

include hdisk

theorem agrees_reload {α : Type} (a : α) :
    Agrees (placeOf extension q u) (do reload; return a) s s' d d' := by
  apply agrees_bind (agrees_of_exec h.exec_reload h'.exec_reload hdisk)
  intro _ _ _ _ _ _ _ hdisk
  exact agrees_pure hdisk a

theorem agrees_removeDocument (hstep : IsStep (encode (fileName extension name)))
    (hne : name ≠ u) : Agrees (placeOf extension q u) (removeDocument name) s s' d d' := by
  have hfile : encode (fileName extension name) ≠ encode (fileName extension u) :=
    fun heq => hne (encode_fileName_injective heq)
  rw [removeDocument]
  apply agrees_state
  · rw [pathFor_eq_pathFor h h']
  · apply agrees_remove hdisk
    rw [h.pathFor_eq]
    exact hdisk.remove h.folder h'.folder hstep hfile

theorem agrees_removeDocument_bind {α : Type} {f : Unit → StoreM DirectoryStore α}
    (hstep : IsStep (encode (fileName extension name))) (hne : name ≠ u)
    (hok : ∀ d₁ d₁', WorksIn dir extension q s d₁ → WorksIn dir extension q s' d₁' →
      Without (placeOf extension q u) d₁ d₁' →
      Agrees (placeOf extension q u) (f ()) s s' d₁ d₁') :
    Agrees (placeOf extension q u) (removeDocument name >>= f) s s' d d' := by
  apply agrees_bind (agrees_removeDocument h h' hdisk hstep hne)
  intro _ s₁ s₁' d₁ d₁' hexec hexec' hdisk₁
  obtain ⟨rfl, hworks⟩ := h.of_removeDocument hstep hexec
  obtain ⟨rfl, hworks'⟩ := h'.of_removeDocument hstep hexec'
  exact hok d₁ d₁' hworks hworks' hdisk₁

variable (hdot : '.' ∉ extension.toList) (htmp : extension ≠ "tmp")
  (hslash : '/' ∉ extension.toList)

include hdot htmp hslash

theorem agrees_writeDocument (hne : t.name ≠ u) :
    Agrees (placeOf extension q u) (writeDocument t) s s' d d' := by
  rw [writeDocument]
  apply agrees_check hdisk
  intro _ hcheck
  have hvalid := checkName_eq_ok_iff.mp hcheck
  have hdraft := isStep_draftName hvalid.isDocumentName hvalid.slash_not_mem hslash
  have hfile := isStep_fileName hvalid.isDocumentName hvalid.slash_not_mem hslash
  have hdraftNe : encode (draftName extension t.name) ≠ encode (fileName extension u) :=
    encode_draftName_ne hdot htmp
  have hfileNe : encode (fileName extension t.name) ≠ encode (fileName extension u) :=
    fun heq => hne (encode_fileName_injective heq)
  apply agrees_state
  · rw [pathFor_eq_pathFor h h', draftPathFor_eq_draftPathFor h h']
  · rw [h.pathFor_eq, h.draftPathFor_eq]
    apply agrees_bind
    · exact agrees_write hdisk (hdisk.write h.folder h'.folder hdraft hdraftNe _)
    · intro _ s₁ s₁' d₁ d₁' hexec hexec' hdisk₁
      obtain ⟨rfl, hwrite⟩ := of_settle_eq_ok ((exec_write _ _ _ _ _).symm.trans hexec)
      obtain ⟨rfl, hwrite'⟩ := of_settle_eq_ok ((exec_write _ _ _ _ _).symm.trans hexec')
      obtain ⟨-, hchanges, mode, stamp, hx⟩ := h.folder.write hdraft hwrite
      obtain ⟨-, hchanges', -⟩ := h'.folder.write hdraft hwrite'
      apply agrees_rename hdisk₁
      exact hdisk₁.rename (h.folder.of_changesOnly hchanges) (h'.folder.of_changesOnly hchanges')
        hdraft hdraftNe hfile hfileNe encode_draftName_ne_fileName hx

/-- A dealing that stores a template first. -/
theorem agrees_writeDocument_bind {α : Type} {f : Unit → StoreM DirectoryStore α}
    (hne : t.name ≠ u)
    (hok : ∀ d₁ d₁', WorksIn dir extension q s d₁ → WorksIn dir extension q s' d₁' →
      Without (placeOf extension q u) d₁ d₁' →
      Agrees (placeOf extension q u) (f ()) s s' d₁ d₁') :
    Agrees (placeOf extension q u) (writeDocument t >>= f) s s' d d' := by
  apply agrees_bind (agrees_writeDocument h h' hdisk hdot htmp hslash hne)
  intro _ s₁ s₁' d₁ d₁' hexec hexec' hdisk₁
  obtain ⟨rfl, hworks⟩ := h.of_writeDocument hslash hexec
  obtain ⟨rfl, hworks'⟩ := h'.of_writeDocument hslash hexec'
  exact hok d₁ d₁' hworks hworks' hdisk₁

end Writing

/-- Two stores that are alone with their folder. The document `u`, which one of them cannot read, is
missing on the disk of the other. -/
structure Twins (dir : Path) (extension : String) (q : Place) (u : String)
    (s s' : DirectoryStore) (d d' : Disk) : Prop where
  left : Settled dir extension q s d
  right : Settled dir extension q s' d'
  document : Unreadable extension q u d
  disk : Without (placeOf extension q u) d d'

namespace Twins

variable (h : Twins dir extension q u s s' d d')

include h

theorem shown_eq {n : String} (hne : n ≠ u) : s'.shown d' q n = s.shown d q n := by
  have hdir : s'.dir = s.dir := h.right.works.dir_eq.trans h.left.works.dir_eq.symm
  have hextension : s'.extension = s.extension :=
    h.right.works.extension_eq.trans h.left.works.extension_eq.symm
  rw [shown_of_same hdir hextension]
  apply shown_congr
  rw [h.left.works.extension_eq]
  apply h.disk.bytesAt_of_ne
  intro heq
  exact hne (encode_fileName_injective (List.cons.inj heq).1)

variable (hdot : '.' ∉ extension.toList)

include hdot

theorem refreshed : Twins dir extension q u (s.refreshed d q) (s'.refreshed d' q) d d' :=
  ⟨settled_refreshed hdot h.left, settled_refreshed hdot h.right, h.document, h.disk⟩

theorem shows_refreshed : (s.refreshed d q).index.Shows s d q ∧
    (s'.refreshed d' q).index.Shows s' d' q :=
  ⟨DirectoryStore.shows_refreshed (h.left.works.folderAt hdot) h.left.current,
    DirectoryStore.shows_refreshed (h.right.works.folderAt hdot) h.right.current⟩

theorem templates_eq :
    (s'.refreshed d' q).index.templates = (s.refreshed d q).index.templates := by
  obtain ⟨hshows, hshows'⟩ := h.shows_refreshed hdot
  ext n v
  rw [hshows.templates, hshows'.templates]
  by_cases hne : n = u
  · subst hne
    obtain ⟨fault, hfault⟩ := shown_of_unreadable h.document h.left.works.extension_eq
    have hnone : s'.shown d' q n = .error (.notFound n) := by
      apply shown_of_bytesAt_none
      rw [h.right.works.extension_eq]
      exact h.disk.bytesAt_self
    rw [hfault, hnone]
    simp
  · rw [h.shown_eq hne]

theorem agrees_list : Agrees (placeOf extension q u)
    (TemplateStore.list : StoreM DirectoryStore (List Template)) s s' d d' := by
  have hright := h.right.exec_list hdot
  rw [h.templates_eq hdot] at hright
  exact agrees_of_exec (h.left.exec_list hdot) hright h.disk

theorem agrees_getTemplate (hne : name ≠ u) : Agrees (placeOf extension q u)
    (TemplateStore.get name : StoreM DirectoryStore Template) s s' d d' := by
  have hright := h.right.exec_get hdot name
  rw [h.shown_eq hne] at hright
  exact agrees_of_exec (h.left.exec_get hdot name) hright h.disk

theorem agrees_contains {α : Type} {f : Bool → StoreM DirectoryStore α} (hne : name ≠ u)
    (hok : ∀ present s₁ s₁', Twins dir extension q u s₁ s₁' d d' →
      Agrees (placeOf extension q u) (f present) s₁ s₁' d d') :
    Agrees (placeOf extension q u) (TemplateStore.contains name >>= f) s s' d d' := by
  have hleft := h.left.exec_contains hdot name
  have hright := h.right.exec_contains hdot name
  rw [h.shown_eq hne] at hright
  apply agrees_bind (agrees_of_exec hleft hright h.disk)
  intro present s₁ s₁' d₁ d₁' hexec hexec' _
  obtain ⟨-, rfl, rfl⟩ : _ ∧ s.refreshed d q = s₁ ∧ d = d₁ := by simpa using hleft.symm.trans hexec
  obtain ⟨-, rfl, rfl⟩ : _ ∧ s'.refreshed d' q = s₁' ∧ d' = d₁' := by
    simpa using hright.symm.trans hexec'
  exact hok present _ _ (h.refreshed hdot)

theorem agrees_found {α : Type} {f : Template → StoreM DirectoryStore α} (hne : name ≠ u)
    (hok : ∀ v s₁ s₁', Twins dir extension q u s₁ s₁' d d' →
      IsStep (encode (fileName extension name)) →
      Agrees (placeOf extension q u) (f v) s₁ s₁' d d') :
    Agrees (placeOf extension q u) (do refresh; let v ← find name; f v) s s' d d' := by
  have hleft := h.left.works.exec_refresh
  have hright := h.right.works.exec_refresh
  obtain ⟨hshows, hshows'⟩ := h.shows_refreshed hdot
  apply agrees_bind (agrees_of_exec hleft hright h.disk)
  intro _ s₁ s₁' d₁ d₁' hexec hexec' _
  obtain ⟨rfl, rfl⟩ : s.refreshed d q = s₁ ∧ d = d₁ := by simpa using hleft.symm.trans hexec
  obtain ⟨rfl, rfl⟩ : s'.refreshed d' q = s₁' ∧ d' = d₁' := by
    simpa using hright.symm.trans hexec'
  have hfound : (s'.refreshed d' q).index.find name = (s.refreshed d q).index.find name := by
    rw [find_of_shows hshows, find_of_shows hshows', h.shown_eq hne]
  apply agrees_bind (agrees_of_exec (exec_find name) (by rw [exec_find, hfound]) h.disk)
  intro v s₂ s₂' d₂ d₂' hexec hexec' _
  obtain ⟨hv, rfl, rfl⟩ : _ ∧ s.refreshed d q = s₂ ∧ d = d₂ := by simpa [exec_find] using hexec
  obtain ⟨-, rfl, rfl⟩ : _ ∧ s'.refreshed d' q = s₂' ∧ d' = d₂' := by
    simpa [exec_find] using hexec'
  exact hok v _ _ (h.refreshed hdot) ((h.refreshed hdot).left.works.isStep_of_find hv)

theorem agrees_delete (hne : name ≠ u) : Agrees (placeOf extension q u)
    (TemplateStore.delete name : StoreM DirectoryStore Template) s s' d d' := by
  apply h.agrees_found hdot hne
  intro v s₁ s₁' h₁ hstep
  apply agrees_removeDocument_bind h₁.left.works h₁.right.works h₁.disk hstep hne
  intro d₁ d₁' hworks hworks' hdisk
  exact agrees_reload hworks hworks' hdisk v

variable (htmp : extension ≠ "tmp") (hslash : '/' ∉ extension.toList)

include htmp hslash

theorem agrees_create (hne : t.name ≠ u) :
    Agrees (placeOf extension q u) (TemplateStore.create t) s s' d d' := by
  apply agrees_writeDocument_bind h.left.works h.right.works h.disk hdot htmp hslash hne
  intro d₁ d₁' hworks hworks' hdisk
  exact agrees_reload hworks hworks' hdisk t

theorem agrees_update (hold : name ≠ u) (hne : t.name ≠ u) :
    Agrees (placeOf extension q u) (TemplateStore.update name t) s s' d d' := by
  apply h.agrees_found hdot hold
  intro v s₁ s₁' h₁ hstep
  apply agrees_writeDocument_bind h₁.left.works h₁.right.works h₁.disk hdot htmp hslash hne
  intro d₁ d₁' hworks hworks' hdisk
  split
  · apply agrees_removeDocument_bind hworks hworks' hdisk hstep hold
    intro d₂ d₂' hworks hworks' hdisk
    exact agrees_reload hworks hworks' hdisk t
  · exact agrees_reload hworks hworks' hdisk t

end Twins

end DirectoryStore

end MailMerge
