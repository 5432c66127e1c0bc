import MailMerge.Proofs.Store.Failure
import MailMerge.Proofs.Store.RoundTrip

/-! # Rewritten documents

The signal of a folder keeps the number of documents and the latest of all stamps. A document that
another program rewrites in place is noticed if its stamp, before or after, is that latest one and
no other reaches it. Otherwise the store goes on to tell what was there before.
-/

namespace MailMerge

open Disk Utf8 StoreM
open DirectoryStore (fileAt_eq_some_iff)

namespace Disk

variable {d d' d₁ : Disk} {p q : Place} {b c : Bytes} {t u v : Moment}

/-- The file at `p` has got another content and another stamp, in place. -/
structure Rewritten (p : Place) (c : Bytes) (t : Moment) (d d' : Disk) : Prop where
  here : d'.here = d.here
  file : d'.fileAt p = some (c, t)
  others : ∀ r, r ≠ p → d'.get? r = d.get? r

theorem children_distinct (d : Disk) (q : Place) :
    (d.children q).Pairwise fun a b => a.1 ≠ b.1 := by
  have hentries : d.entries.Pairwise fun a b => a.1 ≠ b.1 := List.pairwise_map.mp d.distinct
  apply hentries.filterMap
  rintro ⟨_ | ⟨n, r⟩, x⟩ ⟨_ | ⟨m, r'⟩, y⟩ hne a ha b hb
  · simp at ha
  · simp at ha
  · simp at hb
  · simp only [Option.ite_none_right_eq_some, Option.some.injEq] at ha hb
    obtain ⟨rfl, rfl⟩ := ha
    obtain ⟨rfl, rfl⟩ := hb
    rintro rfl
    exact hne rfl

namespace Rewritten

theorem of_write (path : Path) (hr : d.resolve true path.trimSlashes = .ok p)
    (hp : d.fileAt p = some (b, u)) (h : d.write path c = .ok d₁) (t : Moment) :
    Rewritten p c t d (d₁.stampAt p t) := by
  obtain ⟨m, hp⟩ := fileAt_eq_some_iff.mp hp
  obtain ⟨r, hr', hwritten⟩ := write_eq_ok h
  obtain rfl := Except.ok.inj (hr.symm.trans hr')
  rcases hwritten with ⟨b', m', u', -, rfl⟩ | ⟨hnone, -⟩
  · refine ⟨by simp [put, tick], ?_, ?_⟩
    · simp [fileAt_eq_some_iff, get?_stampAt, Entry.withStamp]
    · intro r hr
      simp [get?_stampAt, hr]
  · simp [hnone] at hp

variable (h : Rewritten p c t d d') (hp : d.fileAt p = some (b, u))

include h hp

theorem sameLinks : SameLinks d d' := by
  intro r target
  by_cases hr : r = p
  · subst hr
    obtain ⟨m, hget⟩ := fileAt_eq_some_iff.mp hp
    obtain ⟨m', hget'⟩ := fileAt_eq_some_iff.mp h.file
    simp [hget, hget']
  · rw [h.others r hr]

theorem get?_folder_iff {r : Place} :
    d'.get? r = some (.folder v) ↔ d.get? r = some (.folder v) := by
  by_cases hr : r = p
  · subst hr
    obtain ⟨m, hget⟩ := fileAt_eq_some_iff.mp hp
    obtain ⟨m', hget'⟩ := fileAt_eq_some_iff.mp h.file
    simp [hget, hget']
  · rw [h.others r hr]

theorem exists_of_get? {r : Place} {x : Entry} (hx : d'.get? r = some x) :
    ∃ y, d.get? r = some y := by
  by_cases hr : r = p
  · subst hr
    obtain ⟨m, hget⟩ := fileAt_eq_some_iff.mp hp
    exact ⟨_, hget⟩
  · exact ⟨x, h.others r hr ▸ hx⟩

end Rewritten

end Disk

namespace DirectoryStore

variable {s : DirectoryStore} {d d' : Disk} {q : Place} {x n html : String} {b c : Bytes}
  {t t' u : Moment} {R R' : Moment → Prop}

structure HasDocument (s : DirectoryStore) (d : Disk) (q : Place) (name : String) (b : Bytes)
    (t : Moment) : Prop where
  document : documentName s.extension (encode (fileName s.extension name)) = some name
  file : d.fileAt (encode (fileName s.extension name) :: q) = some (b, t)

structure Loaded (s : DirectoryStore) (d : Disk) (q : Place) : Prop where
  signal : s.index.signal = some (s.signalAt d q)
  shows : s.index.Shows s d q

/-- All stamps that the signal of the folder takes in satisfy `R`, the one of the document `x`
left out. -/
structure OtherStamps (s : DirectoryStore) (d : Disk) (q : Place) (x : String)
    (R : Moment → Prop) : Prop where
  folder : ∀ u, d.get? q = some (.folder u) → R u
  documents : ∀ n b u, n ≠ x → s.HasDocument d q n b u → R u

theorem OtherStamps.mono (h : s.OtherStamps d q x R) (hR : ∀ u, R u → R' u) :
    s.OtherStamps d q x R' :=
  ⟨fun u hu => hR u (h.folder u hu), fun n b u hn hdoc => hR u (h.documents n b u hn hdoc)⟩

theorem loaded_refreshed (h : s.FolderAt d q) (hc : s.Current d q) :
    (s.refreshed d q).Loaded d q := by
  unfold refreshed
  split
  · exact ⟨‹_›, hc ‹_›⟩
  · exact ⟨rfl, shows_reread h⟩

section Signal

theorem HasDocument.mem_docsAt (h : s.HasDocument d q n b t) :
    (n, s.pathFor n, (⟨true, false, t⟩ : Info)) ∈ s.docsAt d q := by
  obtain ⟨hplain, hname, -⟩ := of_documentName_eq_some h.document
  obtain ⟨m, hget⟩ := fileAt_eq_some_iff.mp h.file
  exact (mem_docsAt_iff hplain).mpr ⟨hname, rfl, b, m, t, hget, rfl⟩

theorem exists_hasDocument (hplain : '.' ∉ s.extension.toList) {doc : String × Path × Info}
    (h : doc ∈ s.docsAt d q) : ∃ b, s.HasDocument d q doc.1 b doc.2.2.stamp := by
  obtain ⟨hname, -, b, m, t, hget, hinfo⟩ := (mem_docsAt_iff hplain).mp h
  rw [hinfo]
  exact ⟨b, (documentName_eq_some_iff hplain).mpr ⟨hname, rfl⟩, fileAt_eq_some_iff.mpr ⟨m, hget⟩⟩

theorem docsAt_distinct (s : DirectoryStore) (d : Disk) (q : Place) :
    ((s.docsAt d q).map Prod.fst).Nodup := by
  rw [docsAt, documents, List.filterMap_map, List.nodup_iff_pairwise_ne, List.pairwise_map]
  apply (children_distinct d q).filterMap
  intro f g hne doc hdoc doc' hdoc' heq
  apply hne
  simp only [Function.comp] at hdoc hdoc'
  split at hdoc
  · rename_i n hn
    split at hdoc'
    · rename_i n' hn'
      simp only [Option.ite_none_right_eq_some, Option.some.injEq] at hdoc hdoc'
      obtain ⟨-, rfl⟩ := hdoc
      obtain ⟨-, rfl⟩ := hdoc'
      obtain rfl : n = n' := heq
      rw [(of_documentName_eq_some hn).2.2, (of_documentName_eq_some hn').2.2]
    · simp at hdoc'
  · simp at hdoc

/-- The latest stamp is that of the document `x` or one of the others. -/
theorem latest_le_iff (hfolder : d.HasFolder q) (hx : s.HasDocument d q x b t) :
    (s.signalAt d q).latest ≤ u ↔ t ≤ u ∧ s.OtherStamps d q x (· ≤ u) := by
  obtain ⟨hplain, -, -⟩ := of_documentName_eq_some hx.document
  obtain ⟨v, hv⟩ := hfolder
  have hsignal : s.signalAt d q = signalOf v (s.docsAt d q) := by
    rw [signalAt, hv]
    rfl
  obtain ⟨hstamp, hdocs⟩ := le_latest v (s.docsAt d q)
  rw [hsignal]
  constructor
  · intro h
    refine ⟨Int.le_trans (hdocs _ hx.mem_docsAt) h, ?_, ?_⟩
    · intro v' hv'
      obtain rfl := Entry.folder.inj (Option.some.inj (hv.symm.trans hv'))
      exact Int.le_trans hstamp h
    · intro n b u' _ hn
      exact Int.le_trans (hdocs _ hn.mem_docsAt) h
  · rintro ⟨ht, hfolder, hothers⟩
    refine latest_le (hfolder v hv) ?_
    intro doc hdoc
    obtain ⟨b', hdoc⟩ := exists_hasDocument hplain hdoc
    by_cases hname : doc.1 = x
    · rw [hname] at hdoc
      have hfile := Option.some.inj (hdoc.file.symm.trans hx.file)
      exact (Prod.mk.inj hfile).2 ▸ ht
    · exact hothers _ _ _ hname hdoc

end Signal

section Rewriting

variable (hrew : Rewritten (encode (fileName s.extension x) :: q) c t' d d')
  (hx : s.HasDocument d q x b t)

include hrew

theorem hasDocument_iff {e : Bytes} (hn : n ≠ x) :
    s.HasDocument d' q n e u ↔ s.HasDocument d q n e u := by
  have hne : encode (fileName s.extension n) :: q ≠ encode (fileName s.extension x) :: q := by
    intro heq
    exact hn (encode_fileName_injective (List.cons.inj heq).1)
  have hfile : d'.fileAt (encode (fileName s.extension n) :: q) =
      d.fileAt (encode (fileName s.extension n) :: q) := fileAt_congr (hrew.others _ hne)
  constructor
  · rintro ⟨hdoc, hfile'⟩
    exact ⟨hdoc, hfile ▸ hfile'⟩
  · rintro ⟨hdoc, hfile'⟩
    exact ⟨hdoc, hfile ▸ hfile'⟩

include hx

theorem otherStamps_iff : s.OtherStamps d' q x R ↔ s.OtherStamps d q x R := by
  constructor
  · rintro ⟨hfolder, hdocs⟩
    exact ⟨fun u hu => hfolder u ((hrew.get?_folder_iff hx.file).mpr hu),
      fun n b u hn h => hdocs n b u hn ((hasDocument_iff hrew hn).mpr h)⟩
  · rintro ⟨hfolder, hdocs⟩
    exact ⟨fun u hu => hfolder u ((hrew.get?_folder_iff hx.file).mp hu),
      fun n b u hn h => hdocs n b u hn ((hasDocument_iff hrew hn).mp h)⟩

theorem hasDocument_rewritten : s.HasDocument d' q x c t' :=
  ⟨hx.document, hrew.file⟩

theorem folderAt_rewritten (h : s.FolderAt d q) : s.FolderAt d' q where
  plain := h.plain
  leads := by
    refine resolve_mono (hrew.sameLinks hx.file) hrew.here ?_ h.leads h.folder
    rintro r ⟨u, hu⟩
    exact ⟨u, (hrew.get?_folder_iff hx.file).mpr hu⟩
  folder := by
    obtain ⟨u, hu⟩ := h.folder
    exact ⟨u, (hrew.get?_folder_iff hx.file).mpr hu⟩
  names f y hy := by
    obtain ⟨z, hz⟩ := hrew.exists_of_get? hx.file hy
    exact h.names f z hz

theorem mem_names_iff (hplain : '.' ∉ s.extension.toList) :
    n ∈ (s.docsAt d' q).map Prod.fst ↔ n ∈ (s.docsAt d q).map Prod.fst := by
  have hmem : ∀ d₀ : Disk, n ∈ (s.docsAt d₀ q).map Prod.fst ↔ ∃ b u, s.HasDocument d₀ q n b u := by
    intro d₀
    rw [List.mem_map]
    constructor
    · rintro ⟨doc, hdoc, rfl⟩
      obtain ⟨b, hdoc⟩ := exists_hasDocument hplain hdoc
      exact ⟨b, _, hdoc⟩
    · rintro ⟨b, u, hdoc⟩
      exact ⟨_, hdoc.mem_docsAt, rfl⟩
  rw [hmem, hmem]
  by_cases hn : n = x
  · subst hn
    exact ⟨fun _ => ⟨b, t, hx⟩, fun _ => ⟨c, t', hasDocument_rewritten hrew hx⟩⟩
  · simp only [hasDocument_iff hrew hn]

theorem count_eq : (s.signalAt d' q).count = (s.signalAt d q).count := by
  obtain ⟨hplain, -, -⟩ := of_documentName_eq_some hx.document
  have hperm : ((s.docsAt d' q).map Prod.fst).Perm ((s.docsAt d q).map Prod.fst) :=
    (List.perm_ext_iff_of_nodup (docsAt_distinct s d' q) (docsAt_distinct s d q)).mpr
      fun n => mem_names_iff hrew hx hplain
  have hlength := hperm.length_eq
  rwa [List.length_map, List.length_map] at hlength

end Rewriting

section Latest

variable {O : Moment → Prop} {l l' : Moment} (hmono : ∀ u v, u ≤ v → O u → O v)
  (hl : ∀ u, l ≤ u ↔ t ≤ u ∧ O u) (hl' : ∀ u, l' ≤ u ↔ t' ≤ u ∧ O u)

include hmono hl hl'

theorem latest_le_of_reached (h : ¬ O (t - 1)) : l ≤ l' := by
  obtain ⟨-, hO⟩ := (hl' l').mp (Int.le_refl l')
  refine (hl l').mpr ⟨?_, hO⟩
  refine Int.not_lt.mp fun hlt => ?_
  exact h (hmono l' (t - 1) (Int.le_sub_one_of_lt hlt) hO)

theorem latest_ne_of_ahead (h : O (t - 1)) (hne : t' ≠ t) : l' ≠ l := by
  obtain ⟨ht, -⟩ := (hl l).mp (Int.le_refl l)
  obtain ⟨ht', -⟩ := (hl' l').mp (Int.le_refl l')
  rcases Int.lt_or_gt_of_ne hne with hlt | hgt
  · have hle := (hl' (t - 1)).mpr ⟨Int.le_sub_one_of_lt hlt, h⟩
    exact Int.ne_of_lt (Int.lt_of_lt_of_le (Int.lt_of_le_sub_one hle) ht)
  · have hle := (hl t).mpr ⟨Int.le_refl t, hmono (t - 1) t (Int.sub_le_self t (by decide)) h⟩
    exact (Int.ne_of_lt (Int.lt_of_le_of_lt hle (Int.lt_of_lt_of_le hgt ht'))).symm

end Latest

section Noticing

variable (h : s.FolderAt d q) (hx : s.HasDocument d q x b t)
  (hrew : Rewritten (encode (fileName s.extension x) :: q) c t' d d')

include h hx hrew

/-- A rewritten document is noticed if its stamp, before or after, is later than all others. -/
theorem signal_eq_iff (hne : t' ≠ t) : s.signalAt d' q = s.signalAt d q ↔
    ¬ (s.OtherStamps d q x (· < t) ∨ s.OtherStamps d q x (· < t')) := by
  have h' := folderAt_rewritten hrew hx h
  have hmono : ∀ u v, u ≤ v → s.OtherStamps d q x (· ≤ u) → s.OtherStamps d q x (· ≤ v) :=
    fun u v huv hu => hu.mono fun w hw => Int.le_trans hw huv
  have hlatest : ∀ u, (s.signalAt d q).latest ≤ u ↔ t ≤ u ∧ s.OtherStamps d q x (· ≤ u) :=
    fun u => latest_le_iff h.folder hx
  have hlatest' : ∀ u, (s.signalAt d' q).latest ≤ u ↔ t' ≤ u ∧ s.OtherStamps d q x (· ≤ u) := by
    intro u
    rw [latest_le_iff h'.folder (hasDocument_rewritten hrew hx), otherStamps_iff hrew hx]
  have hlt : ∀ u, s.OtherStamps d q x (· < u) ↔ s.OtherStamps d q x (· ≤ u - 1) :=
    fun u => ⟨fun hu => hu.mono fun _ => Int.le_sub_one_of_lt,
      fun hu => hu.mono fun _ => Int.lt_of_le_sub_one⟩
  rw [hlt, hlt, not_or]
  constructor
  · intro heq
    have heq : (s.signalAt d' q).latest = (s.signalAt d q).latest := congrArg Signal.latest heq
    exact ⟨fun ht => latest_ne_of_ahead hmono hlatest hlatest' ht hne heq,
      fun ht' => latest_ne_of_ahead hmono hlatest' hlatest ht' hne.symm heq.symm⟩
  · rintro ⟨ht, ht'⟩
    have heq := Int.le_antisymm (latest_le_of_reached hmono hlatest' hlatest ht')
      (latest_le_of_reached hmono hlatest hlatest' ht)
    exact (Signal.mk.injEq ..).mpr ⟨count_eq hrew hx, heq⟩

/-- A store that notices the rewriting tells what the folder shows now. -/
theorem tells_of_noticed (hl : s.Loaded d q) (hs : s.signalAt d' q ≠ s.signalAt d q) :
    s.Tells d' x (s.shown d' q x) := by
  apply tells_of_folderAt (folderAt_rewritten hrew hx h)
  intro hsignal
  exact absurd (Option.some.inj (hsignal.symm.trans hl.signal)) hs

/-- A store that does not notice it tells what the folder showed before. -/
theorem tells_of_unnoticed (hl : s.Loaded d q) (hs : s.signalAt d' q = s.signalAt d q) :
    s.Tells d' x (s.shown d q x) := by
  have h' := folderAt_rewritten hrew hx h
  have hsame : s.refreshed d' q = s := by
    rw [refreshed, hs, if_pos hl.signal]
  have htells : s.Tells d' x ((s.refreshed d' q).index.find x) := by
    apply tells_of_refreshed h'.leads h'.folder
    rintro u rfl
    rw [hsame, (values_of_shows hl.shows).2, find_of_shows hl.shows]
  rwa [hsame, find_of_shows hl.shows] at htells

end Noticing

theorem HasDocument.bytesAt (hx : s.HasDocument d q x b t) :
    d.bytesAt (encode (fileName s.extension x) :: q) = some b := by
  rw [bytesAt_eq_map_fileAt, hx.file]
  rfl

theorem HasDocument.shown_eq_ok_iff {u : Template} (hx : s.HasDocument d q x b t) :
    s.shown d q x = .ok u ↔
      u.name = x ∧ encode u.html = b ∧ (s.pathFor x).bytes.length < pathLimit :=
  shown_eq_ok_iff_of_bytesAt (of_documentName_eq_some hx.document).2.1 hx.bytesAt

theorem HasDocument.shown_eq_tooLong (hx : s.HasDocument d q x b t)
    (hlen : ¬ (s.pathFor x).bytes.length < pathLimit) :
    s.shown d q x = .error (.storage (s.pathFor x) .nameTooLong) := by
  have hdoc := document?_eq_tooLong hx.bytesAt (of_documentName_eq_some hx.document).2.1
    (Nat.not_lt.mp hlen)
  exact shown_eq_storage_iff.mpr ⟨hdoc, rfl⟩

/-- A document that another program rewrites with another text and another stamp is told as it is
now if its stamp, before or after, is later than that of the folder and of all other documents and
its path is short enough to be read. Otherwise it is told as before. -/
theorem rewritten_tells (hleads : d.resolve true s.dir = .ok q) (hfolder : d.HasFolder q)
    (hd : d.Named) (hloaded : s.Loaded d q) (hx : s.HasDocument d q x b t)
    (hrew : Rewritten (encode (fileName s.extension x) :: q) (encode html) t' d d')
    (hbytes : encode html ≠ b) (hstamp : t' ≠ t) :
    ((s.pathFor x).bytes.length < pathLimit ∧
        (s.OtherStamps d q x (· < t) ∨ s.OtherStamps d q x (· < t')) →
      s.Tells d' x (.ok ⟨x, html⟩)) ∧
    (¬ ((s.pathFor x).bytes.length < pathLimit ∧
        (s.OtherStamps d q x (· < t) ∨ s.OtherStamps d q x (· < t'))) →
      s.Tells d' x (s.shown d q x)) ∧
    s.shown d q x ≠ .ok ⟨x, html⟩ := by
  have hx' := hasDocument_rewritten hrew hx
  have hat : s.FolderAt d q := ⟨(of_documentName_eq_some hx.document).1, hleads, hfolder,
    fun f y hy => hd.names hy f List.mem_cons_self⟩
  have hsignal := signal_eq_iff hat hx hrew hstamp
  refine ⟨?noticed, ?unnoticed, ?differs⟩
  case noticed =>
    rintro ⟨hlen, hahead⟩
    rw [← hx'.shown_eq_ok_iff.mpr ⟨rfl, rfl, hlen⟩]
    exact tells_of_noticed hat hx hrew hloaded (mt hsignal.mp (not_not_intro hahead))
  case unnoticed =>
    intro hcond
    by_cases hs : s.signalAt d' q = s.signalAt d q
    · exact tells_of_unnoticed hat hx hrew hloaded hs
    · have hlen : ¬ (s.pathFor x).bytes.length < pathLimit := by
        intro hlen
        exact hs (hsignal.mpr fun hahead => hcond ⟨hlen, hahead⟩)
      rw [hx.shown_eq_tooLong hlen, ← hx'.shown_eq_tooLong hlen]
      exact tells_of_noticed hat hx hrew hloaded hs
  case differs =>
    intro hshown
    exact hbytes (hx.shown_eq_ok_iff.mp hshown).2.1

theorem named_aheadDisk : aheadDisk.Named := by
  apply named_of_entries
  · decide
  · decide
  · simp [aheadDisk]

theorem loaded_outdatedStore : outdatedStore.Loaded aheadDisk [] := by
  have hat : (rootStore 1).FolderAt aheadDisk [] := ⟨by decide, rfl, ⟨0, rfl⟩,
    fun f x hx => named_aheadDisk.names hx f List.mem_cons_self⟩
  have hstore : outdatedStore = (rootStore 1).refreshed aheadDisk [] := by
    rw [outdatedStore, exec_list hat]
  rw [hstore]
  exact loaded_refreshed hat nofun

theorem otherStamps_aheadDisk : outdatedStore.OtherStamps aheadDisk [] "b" (· < 9) := by
  constructor
  · intro u hu
    have hmem := mem_entries_iff.mpr hu
    simp only [aheadDisk, List.mem_cons, Prod.mk.injEq, Entry.folder.injEq, reduceCtorEq, true_and,
      and_false, List.not_mem_nil, or_false] at hmem
    subst hmem
    decide
  · intro n b u hn hdoc
    obtain ⟨m, hget⟩ := fileAt_eq_some_iff.mp hdoc.file
    have hmem := mem_entries_iff.mpr hget
    simp only [aheadDisk, List.mem_cons, Prod.mk.injEq, Entry.file.injEq, List.cons.injEq,
      reduceCtorEq, and_true, and_false, List.not_mem_nil, or_false, false_or] at hmem
    rcases hmem with ⟨-, -, -, rfl⟩ | ⟨hb, -⟩
    · decide
    · have hb : encode (fileName "html" n) = encode (fileName "html" "b") := hb
      exact absurd (encode_fileName_injective hb) hn

/-- It is set back by the program that rewrites it. -/
theorem rewritten_tells_backdated : ∃ d₁,
    aheadDisk.write (Path.ofString "/b.html") (encode "C") = .ok d₁ ∧
      Rewritten [encode "b.html"] (encode "C") 3 aheadDisk (d₁.stampAt [encode "b.html"] 3) ∧
      outdatedStore.Tells (d₁.stampAt [encode "b.html"] 3) "b" (.ok ⟨"b", "C"⟩) := by
  obtain ⟨d₁, hwrite⟩ : ∃ d₁, aheadDisk.write (Path.ofString "/b.html") (encode "C") = .ok d₁ :=
    ⟨_, rfl⟩
  have hdoc : outdatedStore.HasDocument aheadDisk [] "b" (encode "B") 9 := ⟨rfl, rfl⟩
  have hrew := Rewritten.of_write _ rfl hdoc.file hwrite 3
  have htells := rewritten_tells rfl ⟨0, rfl⟩ named_aheadDisk loaded_outdatedStore hdoc hrew
    (by decide) (by decide)
  exact ⟨d₁, hwrite, hrew, htells.1 ⟨by decide, .inl otherStamps_aheadDisk⟩⟩

/-- A document that is rewritten later than before, and earlier than another one is stamped, is
told as it was. -/
theorem rewritten_and_not_told : ∃ d₁,
    aheadDisk.write (Path.ofString "/a.html") (encode "C") = .ok d₁ ∧
      Rewritten [encode "a.html"] (encode "C") 5 aheadDisk (d₁.stampAt [encode "a.html"] 5) ∧
      outdatedStore.Loaded aheadDisk [] ∧
      outdatedStore.HasDocument aheadDisk [] "a" (encode "A") 0 ∧
      ((TemplateStore.get "a").exec outdatedStore (d₁.stampAt [encode "a.html"] 5)).1 =
        .ok ⟨"a", "A"⟩ ∧
      ((TemplateStore.list (σ := DirectoryStore)).exec outdatedStore
        (d₁.stampAt [encode "a.html"] 5)).1 = .ok [⟨"a", "A"⟩, ⟨"b", "B"⟩] :=
  ⟨_, rfl, .of_write (Path.ofString "/a.html") rfl rfl rfl 5, loaded_outdatedStore,
    ⟨rfl, rfl⟩, rfl, rfl⟩

end DirectoryStore

end MailMerge
