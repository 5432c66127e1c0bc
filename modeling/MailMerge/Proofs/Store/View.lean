import MailMerge.Proofs.Disk.Changes
import MailMerge.Proofs.Store.Dealing
import MailMerge.Proofs.Store.FileName

/-! # What a folder shows

The documents that lie in a folder, read off the disk name by name. Reading the folder gives an
index that shows exactly these documents, in whatever order the folder lists its files.
-/

namespace MailMerge

open Disk Utf8

def Disk.readText (d : Disk) (p : Path) : Except Fault String :=
  match d.read p with
  | .error fault => .error fault
  | .ok bytes =>
    match decode? bytes with
    | some text => .ok text
    | none => .error .notText

@[simp] theorem Program.run_readText (p : Path) (d : Disk) :
    (Program.readText p).run d = (d.readText p, d) := by
  rw [Program.readText, run_bind, run_perform]
  have hread : d.perform (.read p) = (d.read p, d) := rfl
  rw [hread, Disk.readText]
  cases d.read p with
  | error fault => rfl
  | ok bytes => cases hbytes : decode? bytes <;> simp [hbytes]

namespace DirectoryStore

variable {s : DirectoryStore} {d : Disk} {q : Place} {name : String}

/-- The document kept under a name in the folder at `q`: its text, or why it cannot be read. -/
def document? (s : DirectoryStore) (d : Disk) (q : Place) (name : String) :
    Option (Except Fault String) :=
  match d.bytesAt (encode (fileName s.extension name) :: q) with
  | some bytes =>
    if name = "" ∨ name.toList.head? = some '.' then none
    else if pathLimit ≤ (s.pathFor name).bytes.length then some (.error .nameTooLong)
    else
      match decode? bytes with
      | some html => some (.ok html)
      | none => some (.error .notText)
  | none => none

/-- What the folder at `q` shows under a name. -/
def shown (s : DirectoryStore) (d : Disk) (q : Place) (name : String) :
    Except TemplateError Template :=
  match s.document? d q name with
  | some (.ok html) => .ok ⟨name, html⟩
  | some (.error fault) => .error (.storage (s.pathFor name) fault)
  | none => .error (.notFound name)

/-- The folder of the store lies at `q`, and what lies in it has names that a disk allows. -/
structure FolderAt (s : DirectoryStore) (d : Disk) (q : Place) : Prop where
  plain : '.' ∉ s.extension.toList
  leads : d.resolve true s.dir = .ok q
  folder : d.HasFolder q
  names : ∀ f x, d.get? (f :: q) = some x → IsName f

def docsAt (s : DirectoryStore) (d : Disk) (q : Place) : List (String × Path × Info) :=
  s.documents ((d.children q).map fun c => (c.1, c.2.info))

def signalAt (s : DirectoryStore) (d : Disk) (q : Place) : Signal :=
  signalOf (((d.get? q).map Entry.stamp).getD 0) (s.docsAt d q)

theorem pathFor_eq (s : DirectoryStore) (name : String) :
    s.pathFor name = s.dir.join ⟨encode (fileName s.extension name)⟩ := rfl

theorem mem_docsAt_iff (hext : '.' ∉ s.extension.toList) {doc : String × Path × Info} :
    doc ∈ s.docsAt d q ↔ IsDocumentName doc.1 ∧ doc.2.1 = s.pathFor doc.1 ∧
      ∃ b m t, d.get? (encode (fileName s.extension doc.1) :: q) = some (.file b m t) ∧
        doc.2.2 = ⟨true, false, t⟩ := by
  obtain ⟨n, path, info⟩ := doc
  simp only [docsAt, documents, List.filterMap_map, List.mem_filterMap, Function.comp]
  constructor
  · rintro ⟨⟨f, x⟩, hmem, h⟩
    have hget := mem_children_iff.mp hmem
    simp only at h
    split at h
    · rename_i n' hn
      obtain ⟨hdoc, rfl⟩ := (documentName_eq_some_iff hext).mp hn
      split at h
      · rename_i hfile
        simp only [Option.some.injEq, Prod.mk.injEq] at h
        obtain ⟨rfl, rfl, rfl⟩ := h
        cases x with
        | file b m t => exact ⟨hdoc, rfl, b, m, t, hget, rfl⟩
        | folder t => simp [Entry.info, Entry.isFile] at hfile
        | link target => simp [Entry.info, Entry.isFile] at hfile
      · simp at h
    · simp at h
  · rintro ⟨hdoc, rfl, b, m, t, hget, rfl⟩
    refine ⟨(encode (fileName s.extension n), .file b m t), mem_children_iff.mpr hget, ?_⟩
    simp only [(documentName_eq_some_iff hext).mpr ⟨hdoc, rfl⟩]
    rfl

section Document

variable {b : Bytes} (hb : d.bytesAt (encode (fileName s.extension name) :: q) = some b)
  (hname : IsDocumentName name)

include hb hname

theorem document?_eq_tooLong (hlen : pathLimit ≤ (s.pathFor name).bytes.length) :
    s.document? d q name = some (.error .nameTooLong) := by
  have hshown := not_or.mpr ⟨hname.ne_empty, hname.not_hidden⟩
  simp only [document?, hb, if_neg hshown, if_pos hlen]

theorem document?_eq_text (hlen : (s.pathFor name).bytes.length < pathLimit) :
    s.document? d q name = some (match decode? b with
      | some html => .ok html
      | none => .error .notText) := by
  have hshown := not_or.mpr ⟨hname.ne_empty, hname.not_hidden⟩
  simp only [document?, hb, if_neg hshown, if_neg (Nat.not_le.mpr hlen)]
  cases decode? b <;> rfl

end Document

theorem document?_eq_some (h : s.FolderAt d q) {b : Bytes} {m : Nat} {t : Moment}
    (hdoc : IsDocumentName name)
    (hget : d.get? (encode (fileName s.extension name) :: q) = some (.file b m t)) :
    s.document? d q name = some (d.readText (s.pathFor name)) := by
  have hname := h.names _ _ hget
  have hnil := Disk.bytes_ne_nil h.leads
  have hbytes := bytesAt_eq_some_iff.mpr ⟨m, t, hget⟩
  by_cases hlen : pathLimit ≤ (s.pathFor name).bytes.length
  · have hzero : 0 ∉ (s.pathFor name).bytes := by
      rw [pathFor_eq, Path.mem_join_iff hname.toIsStep hnil (by decide)]
      exact not_or.mpr ⟨(resolve_eq_ok_iff.mp h.leads).1, hname.no_zero⟩
    rw [document?_eq_tooLong hbytes hdoc hlen]
    simp [Disk.readText, Disk.read, entryAt, resolve_eq_nameTooLong hzero hlen, bind, Except.bind]
  · have hlink : d.NoLink (encode (fileName s.extension name) :: q) := by simp [NoLink, hget]
    have hres : d.resolve true (s.pathFor name) = .ok _ :=
      resolve_join h.leads h.folder hname (Nat.not_le.mp hlen) (.inr hlink)
    rw [document?_eq_text hbytes hdoc (Nat.not_le.mp hlen)]
    simp only [Disk.readText, Disk.read, entryAt, hres, bind, Except.bind, hget, pure, Except.pure]

theorem document?_eq_none (h : ¬ (IsDocumentName name ∧
    ∃ b m t, d.get? (encode (fileName s.extension name) :: q) = some (.file b m t))) :
    s.document? d q name = none := by
  unfold document?
  split
  · rename_i b hbytes
    refine if_pos (Decidable.byContradiction fun hshown => ?_)
    obtain ⟨hne, hhead⟩ := not_or.mp hshown
    exact h ⟨⟨hne, hhead⟩, b, bytesAt_eq_some_iff.mp hbytes⟩
  · rfl

theorem file_of_document? {r : Except Fault String} (h : s.document? d q name = some r) :
    IsDocumentName name ∧
      ∃ b m t, d.get? (encode (fileName s.extension name) :: q) = some (.file b m t) := by
  refine Classical.byContradiction fun hc => ?_
  rw [document?_eq_none hc] at h
  simp at h

theorem shown_eq_ok_iff {t : Template} :
    s.shown d q name = .ok t ↔
      ∃ html, s.document? d q name = some (.ok html) ∧ t = ⟨name, html⟩ := by
  unfold shown
  rcases s.document? d q name with _ | _ | html <;> simp [eq_comm]

theorem shown_eq_ok_iff_of_bytesAt {t : Template} {b : Bytes} (hname : IsDocumentName name)
    (hb : d.bytesAt (encode (fileName s.extension name) :: q) = some b) :
    s.shown d q name = .ok t ↔
      t.name = name ∧ encode t.html = b ∧ (s.pathFor name).bytes.length < pathLimit := by
  rw [shown_eq_ok_iff]
  by_cases hlen : (s.pathFor name).bytes.length < pathLimit
  · rw [document?_eq_text hb hname hlen]
    simp only [hlen, and_true]
    constructor
    · rintro ⟨html, hdoc, rfl⟩
      refine ⟨rfl, ?_⟩
      cases hdecode : decode? b with
      | none => simp [hdecode] at hdoc
      | some text =>
        simp only [hdecode, Option.some.injEq, Except.ok.injEq] at hdoc
        obtain rfl := hdoc
        exact (decode?_eq_some_iff.mp hdecode).symm
    · rintro ⟨rfl, hhtml⟩
      refine ⟨t.html, ?_, rfl⟩
      rw [decode?_eq_some_iff.mpr hhtml.symm]
  · rw [document?_eq_tooLong hb hname (Nat.not_lt.mp hlen)]
    simp [hlen]

theorem shown_eq_storage_iff {path : Path} {fault : Fault} :
    s.shown d q name = .error (.storage path fault) ↔
      s.document? d q name = some (.error fault) ∧ path = s.pathFor name := by
  unfold shown
  rcases s.document? d q name with _ | _ | html <;> simp [eq_comm, and_comm]

theorem name_of_shown {t : Template} (h : s.shown d q name = .ok t) : t.name = name := by
  obtain ⟨html, -, rfl⟩ := shown_eq_ok_iff.mp h
  rfl

end DirectoryStore

/-- An index that holds what the folder of `s` at `q` shows. -/
structure Index.Shows (ix : Index) (s : DirectoryStore) (d : Disk) (q : Place) : Prop where
  templates : ∀ n t, ix.templates.get? n = some t ↔ s.shown d q n = .ok t
  unreadable : ∀ n r, ix.unreadable.get? n = some r ↔ s.shown d q n = .error (.storage r.1 r.2)

namespace DirectoryStore

variable {s : DirectoryStore} {d : Disk} {q : Place} {name : String}

theorem find_of_shows {ix : Index} (h : ix.Shows s d q) (name : String) :
    ix.find name = s.shown d q name := by
  unfold Index.find
  cases ht : ix.templates.get? name with
  | some t => exact ((h.templates name t).mp ht).symm
  | none =>
    cases hu : ix.unreadable.get? name with
    | some r => exact ((h.unreadable name r).mp hu).symm
    | none =>
      rcases hdoc : s.document? d q name with _ | fault | html
      · simp [shown, hdoc]
      · have hshown := (h.unreadable name (s.pathFor name, fault)).mpr
          (shown_eq_storage_iff.mpr ⟨hdoc, rfl⟩)
        simp [hu] at hshown
      · have hshown := (h.templates name ⟨name, html⟩).mpr (shown_eq_ok_iff.mpr ⟨html, hdoc, rfl⟩)
        simp [ht] at hshown

/-- The templates of the index are those that the folder shows, each once, in the order of their
names. -/
theorem values_of_shows {ix : Index} (h : ix.Shows s d q) :
    (ix.templates.values.Pairwise fun t u => t.name < u.name) ∧
      ∀ t, t ∈ ix.templates.values ↔ s.shown d q t.name = .ok t := by
  have hname : ∀ e ∈ ix.templates.entries, e.2.name = e.1 := fun e he =>
    name_of_shown ((h.templates _ _).mp (Shelf.mem_entries_iff.mp he))
  constructor
  · refine List.pairwise_map.mpr (ix.templates.sorted.imp_of_mem fun {a b} ha hb hlt => ?_)
    rw [hname a ha, hname b hb]
    exact hlt
  · intro t
    rw [← h.templates, ← Shelf.mem_entries_iff]
    constructor
    · intro ht
      obtain ⟨e, he, rfl⟩ := List.mem_map.mp ht
      rw [hname e he]
      exact he
    · intro ht
      exact List.mem_map.mpr ⟨_, ht, rfl⟩

theorem run_readAll (path : String → Path) {docs : List (String × Path × Info)}
    (hpath : ∀ doc ∈ docs, doc.2.1 = path doc.1) :
    (∀ n t, ((readAll docs).run d).1.templates.get? n = some t ↔
        (∃ doc ∈ docs, doc.1 = n) ∧ ∃ html, d.readText (path n) = .ok html ∧ t = ⟨n, html⟩) ∧
      (∀ n r, ((readAll docs).run d).1.unreadable.get? n = some r ↔
        (∃ doc ∈ docs, doc.1 = n) ∧
          ∃ fault, d.readText (path n) = .error fault ∧ r = (path n, fault)) := by
  induction docs with
  | nil => simp [readAll]
  | cons doc docs ih =>
    obtain ⟨htemplates, hunreadable⟩ :=
      ih fun e he => hpath e (List.mem_cons_of_mem _ he)
    have hdoc := hpath doc List.mem_cons_self
    simp only [readAll, Program.run_bind, Program.run_readText, hdoc]
    cases hread : d.readText (path doc.1) with
    | ok html =>
      refine ⟨fun n t => ?_, fun n r => ?_⟩
      · by_cases hn : n = doc.1
        · subst hn
          simp [hread, eq_comm]
        · simp [hn, htemplates, Ne.symm hn]
      · by_cases hn : n = doc.1
        · subst hn
          simp [hread, hunreadable]
        · simp [hunreadable, Ne.symm hn]
    | error fault =>
      refine ⟨fun n t => ?_, fun n r => ?_⟩
      · by_cases hn : n = doc.1
        · subst hn
          simp [hread, htemplates]
        · simp [htemplates, Ne.symm hn]
      · by_cases hn : n = doc.1
        · subst hn
          simp [hread, eq_comm]
        · simp [hn, hunreadable, Ne.symm hn]

def indexAt (s : DirectoryStore) (d : Disk) (q : Place) : Index :=
  { ((readAll (s.docsAt d q)).run d).1 with signal := some (s.signalAt d q) }

theorem shows_indexAt (h : s.FolderAt d q) : (s.indexAt d q).Shows s d q := by
  have hpath : ∀ doc ∈ s.docsAt d q, doc.2.1 = s.pathFor doc.1 := fun doc hdoc =>
    ((mem_docsAt_iff h.plain).mp hdoc).2.1
  obtain ⟨htemplates, hunreadable⟩ := run_readAll (d := d) s.pathFor hpath
  have hmem : ∀ n, (∃ doc ∈ s.docsAt d q, doc.1 = n) ↔ IsDocumentName n ∧
      ∃ b m t, d.get? (encode (fileName s.extension n) :: q) = some (.file b m t) := by
    intro n
    constructor
    · rintro ⟨doc, hdoc, rfl⟩
      obtain ⟨hname, -, b, m, t, hget, -⟩ := (mem_docsAt_iff h.plain).mp hdoc
      exact ⟨hname, b, m, t, hget⟩
    · rintro ⟨hname, b, m, t, hget⟩
      exact ⟨(n, s.pathFor n, ⟨true, false, t⟩),
        (mem_docsAt_iff h.plain).mpr ⟨hname, rfl, b, m, t, hget, rfl⟩, rfl⟩
  constructor
  · intro n t
    refine (htemplates n t).trans ?_
    rw [hmem, shown_eq_ok_iff]
    by_cases hdoc : IsDocumentName n ∧
        ∃ b m t, d.get? (encode (fileName s.extension n) :: q) = some (.file b m t)
    · obtain ⟨hname, b, m, stamp, hget⟩ := hdoc
      simp [document?_eq_some h hname hget, hname, hget]
    · simp [document?_eq_none hdoc, hdoc]
  · intro n r
    refine (hunreadable n r).trans ?_
    rw [hmem, shown_eq_storage_iff]
    by_cases hdoc : IsDocumentName n ∧
        ∃ b m t, d.get? (encode (fileName s.extension n) :: q) = some (.file b m t)
    · obtain ⟨hname, b, m, stamp, hget⟩ := hdoc
      rw [document?_eq_some h hname hget]
      constructor
      · rintro ⟨-, fault, hread, rfl⟩
        exact ⟨congrArg some hread, rfl⟩
      · rintro ⟨hread, hpath⟩
        exact ⟨⟨hname, b, m, stamp, hget⟩, r.2, Option.some.inj hread, Prod.ext hpath rfl⟩
    · simp [document?_eq_none hdoc, hdoc]

end DirectoryStore

end MailMerge
