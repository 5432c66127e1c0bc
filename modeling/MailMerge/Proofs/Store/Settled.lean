import MailMerge.Proofs.Store.Refinement
import MailMerge.Proofs.Store.Stages

/-! # Stores that are alone with their folder

As long as no other program changes the folder, the index of a store is empty or shows the folder.
This goes on to hold whatever the store is asked for, so its look-ups tell what the folder shows:
also of a document whose bytes are no text.
-/

namespace MailMerge

open Disk Utf8 StoreM

namespace DirectoryStore

variable {dir : Path} {extension name u : String} {q : Place} {s s' : DirectoryStore}
  {d d' : Disk} {t : Template}

/-- The store works in the folder and has not read it yet, or has in its index what it shows. -/
structure Settled (dir : Path) (extension : String) (q : Place) (s : DirectoryStore) (d : Disk) :
    Prop where
  works : WorksIn dir extension q s d
  index : s.index = {} ∨ s.index.Shows s d q

theorem settled_of_fresh (h : PlainFolder dir d q) :
    Settled dir extension q ⟨dir, extension, {}⟩ d := ⟨worksIn_of_fresh h, .inl rfl⟩

theorem Settled.current (h : Settled dir extension q s d) : s.Current d q := by
  intro hsignal
  rcases h.index with hindex | hshows
  · simp [hindex] at hsignal
  · exact hshows

theorem shows_congr {ix : Index} (h : ix.Shows s d q)
    (hshown : ∀ n, s'.shown d' q n = s.shown d q n) : ix.Shows s' d' q :=
  ⟨fun n t => by rw [hshown]; exact h.templates n t,
    fun n r => by rw [hshown]; exact h.unreadable n r⟩

section Invariant

variable (hdot : '.' ∉ extension.toList)

include hdot

theorem WorksIn.folderAt (h : WorksIn dir extension q s d) : s.FolderAt d q :=
  ⟨h.extension_eq ▸ hdot, h.leads, h.folder.folder, h.folder.names⟩

theorem settled_reread (h : WorksIn dir extension q s d) :
    Settled dir extension q (s.reread d q) d :=
  ⟨worksIn_reread h, .inr (shows_reread (h.folderAt hdot))⟩

theorem settled_refreshed (h : Settled dir extension q s d) :
    Settled dir extension q (s.refreshed d q) d := by
  rcases refreshed_eq s d q with heq | heq
  · rwa [heq]
  · rw [heq]
    exact settled_reread hdot h.works

variable (htmp : extension ≠ "tmp")

include htmp

theorem settled_of_drafted (h : Settled dir extension q s d) (hd : Drafted extension q t d d') :
    Settled dir extension q s d' := by
  refine ⟨h.works.of_changesOnly hd, h.index.imp_right fun hshows => shows_congr hshows fun n => ?_⟩
  apply shown_congr
  rw [h.works.extension_eq]
  exact hd.bytesAt (encode_draftName_ne hdot htmp).symm

theorem remove_of_found (h : Settled dir extension q s d) {v : Template}
    (hfind : s.index.find name = .ok v) (hne : t.name ≠ name)
    (hp : Published dir extension q t d d') : ∃ d'', d'.remove (s.pathFor name) = .ok d'' := by
  rcases h.index with hindex | hshows
  · simp [Index.find, hindex] at hfind
  · rw [find_of_shows hshows] at hfind
    obtain ⟨hroom, b, hb⟩ := file_of_shown h.works.folder.names hfind
    have hstep := hroom.name.toIsStep
    have hnil := Disk.bytes_ne_nil h.works.leads
    rw [h.works.dir_eq, h.works.extension_eq] at hroom
    rw [h.works.extension_eq] at hb hstep
    rw [← hp.changes.bytesAt (not_storing hdot htmp hne)] at hb
    obtain ⟨mode, stamp, hx⟩ := bytesAt_eq_some_iff.mp hb
    rw [h.works.pathFor_eq]
    rw [h.works.dir_eq] at hnil
    exact remove_succeeds ((h.works.folder.of_changesOnly hp.changes).resolve_child hroom)
      (Path.endsInSlash_join hstep hnil) (Path.endsInDots_join hstep hnil) hx

theorem invariant_settled : Invariant dir extension q (Settled dir extension q) where
  works h := h.works
  refreshed h := settled_refreshed hdot h
  reread h := settled_reread hdot h
  drafted h hd := settled_of_drafted hdot htmp h hd
  stuck h hfind hne hp hremove := by
    obtain ⟨d'', hd''⟩ := remove_of_found hdot htmp h hfind hne hp
    simp [hremove] at hd''

end Invariant

def placeOf (extension : String) (q : Place) (u : String) : Place :=
  encode (fileName extension u) :: q

/-- A document lies in the folder at `q` whose bytes are no text. -/
structure Unreadable (extension : String) (q : Place) (u : String) (d : Disk) : Prop where
  name : IsDocumentName u
  bytes : ∃ b, d.bytesAt (placeOf extension q u) = some b ∧ decode? b = none

theorem shown_of_unreadable (hu : Unreadable extension q u d) (hs : s.extension = extension) :
    ∃ fault, s.shown d q u = .error (.storage (s.pathFor u) fault) := by
  obtain ⟨b, hb, hdecode⟩ := hu.bytes
  rw [placeOf, ← hs] at hb
  unfold shown
  by_cases hlen : pathLimit ≤ (s.pathFor u).bytes.length
  · rw [document?_eq_tooLong hb hu.name hlen]
    exact ⟨_, rfl⟩
  · rw [document?_eq_text hb hu.name (Nat.not_le.mp hlen), hdecode]
    exact ⟨_, rfl⟩

section LookUps

variable (hdot : '.' ∉ extension.toList) (h : Settled dir extension q s d)

include hdot h

theorem Settled.exec_list : (TemplateStore.list : StoreM DirectoryStore _).exec s d =
    (.ok (s.refreshed d q).index.templates.values, s.refreshed d q, d) :=
  DirectoryStore.exec_list (h.works.folderAt hdot)

theorem Settled.exec_get (name : String) : (TemplateStore.get name).exec s d =
    (s.shown d q name, s.refreshed d q, d) :=
  DirectoryStore.exec_get (h.works.folderAt hdot) h.current name

theorem Settled.exec_contains (name : String) : (TemplateStore.contains name).exec s d =
    (TemplateStore.presence (s.shown d q name), s.refreshed d q, d) := by
  rw [TemplateStore.exec_contains, h.exec_get hdot]

theorem Settled.exec_contains_unreadable (hu : Unreadable extension q u d) : ∃ fault,
    (TemplateStore.contains u).exec s d =
      (.error (.storage (s.pathFor u) fault), s.refreshed d q, d) := by
  obtain ⟨fault, hshown⟩ := shown_of_unreadable hu h.works.extension_eq
  exact ⟨fault, by rw [h.exec_contains hdot, hshown]; rfl⟩

end LookUps

end DirectoryStore

end MailMerge
