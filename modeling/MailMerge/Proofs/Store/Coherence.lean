import MailMerge.Proofs.Disk.Evolution
import MailMerge.Proofs.Store.Reading

/-! # Coherence

An index read at some moment shows what the folder shows for as long as the signal of the folder is
the same: whatever changes in the folder is stamped later than everything that the signal took in.
-/

namespace MailMerge

open Disk Utf8

namespace DirectoryStore

variable {s : DirectoryStore} {d d' d₁ : Disk} {q r : Place} {name : String} {n : Bytes}

section Signal

variable {stamp t : Moment} {docs : List (String × Path × Info)} {doc : String × Path × Info}

theorem le_latest (stamp : Moment) (docs : List (String × Path × Info)) :
    stamp ≤ (signalOf stamp docs).latest ∧
      ∀ doc ∈ docs, doc.2.2.stamp ≤ (signalOf stamp docs).latest := by
  unfold signalOf
  induction docs generalizing stamp with
  | nil => exact ⟨Int.le_refl _, nofun⟩
  | cons doc docs ih =>
    obtain ⟨hstamp, hdocs⟩ := ih (max stamp doc.2.2.stamp)
    refine ⟨Int.le_trans (Int.le_max_left _ _) hstamp, fun e he => ?_⟩
    rcases List.mem_cons.mp he with rfl | he
    · exact Int.le_trans (Int.le_max_right _ _) hstamp
    · exact hdocs e he

theorem latest_le (hstamp : stamp ≤ t) (hdocs : ∀ doc ∈ docs, doc.2.2.stamp ≤ t) :
    (signalOf stamp docs).latest ≤ t := by
  unfold signalOf
  induction docs generalizing stamp with
  | nil => exact hstamp
  | cons doc docs ih =>
    exact ih (Int.max_le.mpr ⟨hstamp, hdocs doc List.mem_cons_self⟩)
      fun e he => hdocs e (List.mem_cons_of_mem _ he)

theorem latest_signalAt_le (h : s.FolderAt d q) (hd : d.Sound) :
    (s.signalAt d q).latest ≤ d.now := by
  obtain ⟨t, ht⟩ := h.folder
  refine latest_le ?_ fun doc hdoc => ?_
  · rw [ht]
    exact hd.entries ht
  · obtain ⟨-, -, b, m, t, hget, hinfo⟩ := (mem_docsAt_iff h.plain).mp hdoc
    rw [hinfo]
    exact hd.entries hget

end Signal

theorem bytesAt_eq_map_fileAt (d : Disk) (p : Place) : d.bytesAt p = (d.fileAt p).map Prod.fst := by
  unfold bytesAt fileAt
  rcases d.get? p with _ | _ | _ | _ <;> rfl

theorem fileAt_eq_some_iff {b : Bytes} {t : Moment} {p : Place} :
    d.fileAt p = some (b, t) ↔ ∃ m, d.get? p = some (.file b m t) := by
  unfold fileAt
  rcases d.get? p with _ | _ | _ | _ <;> simp

/-- Equal signals of a folder that evolves mean equal documents. -/
theorem shown_eq_of_signal (h₁ : s.FolderAt d₁ q) (hd₁ : d₁.Sound) (he : Evolves q d₁ d)
    (h : s.FolderAt d q) (hsignal : s.signalAt d q = s.signalAt d₁ q) (name : String) :
    s.shown d q name = s.shown d₁ q name := by
  have hlatest : (s.signalAt d q).latest ≤ d₁.now := hsignal ▸ latest_signalAt_le h₁ hd₁
  obtain ⟨t, ht⟩ := h.folder
  obtain ⟨hfolder, hdocs⟩ := le_latest (((d.get? q).map Entry.stamp).getD 0) (s.docsAt d q)
  have hstamp : t ≤ d₁.now := by
    have hle := Int.le_trans hfolder hlatest
    rwa [ht] at hle
  rcases he.since t ht with hlt | ⟨-, hfiles⟩
  · exact absurd hstamp (Int.not_le.mpr hlt)
  · have hsame : s.document? d q name = s.document? d₁ q name := by
      by_cases hname : IsDocumentName name
      · rcases hfiles (encode (fileName s.extension name)) with heq | ⟨b, t', hfile, hlt⟩
        · simp only [document?, bytesAt_eq_map_fileAt, heq]
        · obtain ⟨m, hget⟩ := fileAt_eq_some_iff.mp hfile
          have hdoc : (name, s.pathFor name, (⟨true, false, t'⟩ : Info)) ∈ s.docsAt d q :=
            (mem_docsAt_iff h.plain).mpr ⟨hname, rfl, b, m, t', hget, rfl⟩
          exact absurd (Int.le_trans (hdocs _ hdoc) hlatest) (Int.not_le.mpr hlt)
      · rw [document?_eq_none (fun h => hname h.1), document?_eq_none (fun h => hname h.1)]
    simp only [shown, hsame]

/-- A store that deals with the folder at `q` and with nothing else, and whose index was read at a
moment of the past, if it was read at all. -/
structure Tends (s : DirectoryStore) (d : Disk) (q : Place) : Prop where
  plain : '.' ∉ s.extension.toList
  no_slash : '/' ∉ s.extension.toList
  leads : ∃ d₀, SameLinks d₀ d ∧ d.here = d₀.here ∧ d₀.resolve true s.dir = .ok q
  no_link : ∀ n, d.NoLink (n :: q)
  sound : d.Sound
  index : s.index.signal = none ∨ ∃ d₁, d₁.Sound ∧ Evolves q d₁ d ∧ s.FolderAt d₁ q ∧
    s.index.signal = some (s.signalAt d₁ q) ∧ s.index.Shows s d₁ q

namespace Tends

theorem evolve (h : s.Tends d q) (he : Evolves q d d') : s.Tends d' q where
  plain := h.plain
  no_slash := h.no_slash
  leads := by
    obtain ⟨d₀, hlinks, hhere, hres⟩ := h.leads
    exact ⟨d₀, hlinks.trans he.links, he.here.trans hhere, hres⟩
  no_link n := he.links.noLink_iff.mpr (h.no_link n)
  sound := he.sound h.sound
  index := by
    rcases h.index with hnone | ⟨d₁, hd₁, he₁, hat, hsignal, hshows⟩
    · exact .inl hnone
    · exact .inr ⟨d₁, hd₁, he₁.trans he, hat, hsignal, hshows⟩

theorem leads_to (h : s.Tends d q) (hr : d.resolve true s.dir = .ok r) : r = q := by
  obtain ⟨d₀, hlinks, hhere, hres⟩ := h.leads
  exact (resolve_unique hlinks hhere hres hr).symm

theorem bytes_ne_nil (h : s.Tends d q) : s.dir.bytes ≠ [] := by
  obtain ⟨d₀, -, -, hres⟩ := h.leads
  exact Disk.bytes_ne_nil hres

theorem leads_child (h : s.Tends d q) {follow : Bool} (hn : IsStep n)
    (hr : d.resolve follow (s.dir.join ⟨n⟩) = .ok r) : r = n :: q := by
  obtain ⟨q', -, hq', rfl | ⟨-, hlink⟩⟩ := resolve_of_join hn h.bytes_ne_nil hr
  · rw [h.leads_to hq']
  · rw [h.leads_to hq'] at hlink
    exact absurd (h.no_link n) hlink

theorem folderAt (h : s.Tends d q) {files : List (Bytes × Info)}
    (hlist : d.list s.dir = .ok files) : s.FolderAt d q := by
  obtain ⟨r, hr, hfiles⟩ := exists_of_bind_eq_ok hlist
  obtain rfl := h.leads_to hr
  refine ⟨h.plain, hr, ?_, fun f x hx => h.sound.names hx f List.mem_cons_self⟩
  cases hx : d.get? r with
  | none => simp [hx, throw_ne_ok] at hfiles
  | some x =>
    cases x with
    | folder t => exact ⟨t, hx⟩
    | file | link => simp [hx, throw_ne_ok] at hfiles

theorem current (h : s.Tends d q) (hat : s.FolderAt d q) : s.Current d q := by
  intro hsignal
  rcases h.index with hnone | ⟨d₁, hd₁, he₁, hat₁, hsignal₁, hshows⟩
  · simp [hnone] at hsignal
  · have heq : s.signalAt d q = s.signalAt d₁ q := Option.some.inj (hsignal.symm.trans hsignal₁)
    have hshown := shown_eq_of_signal hat₁ hd₁ he₁ hat heq
    constructor
    · intro n t
      rw [hshown, hshows.templates]
    · intro n r
      rw [hshown, hshows.unreadable]

end Tends

end DirectoryStore

end MailMerge
