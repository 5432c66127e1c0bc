import MailMerge.Proofs.Disk.Names
import MailMerge.Proofs.Text.Ascii
import MailMerge.Store.Directory

/-! # File names of documents

The name of a template can be read off the name of its file, unless the extension holds a dot. No
draft has the file name of a document, unless the extension is the one of the drafts.
-/

namespace MailMerge

open Utf8

/-- A name that a document can have: its file has a stem and is not hidden. -/
structure IsDocumentName (name : String) : Prop where
  ne_empty : name ≠ ""
  not_hidden : name.toList.head? ≠ some '.'

namespace DirectoryStore

variable {extension name other : String} {file stem ending : Bytes}

theorem encode_fileName (extension name : String) :
    encode (fileName extension name) = encode name ++ dot :: encode extension := by
  have hdot : encode "." = [dot] := by decide
  rw [fileName, encode_append, encode_append, hdot, List.append_assoc]
  rfl

theorem encode_draftName (extension name : String) :
    encode (draftName extension name) =
      encode (fileName extension name) ++ dot :: encode "tmp" := by
  have htmp : encode ".tmp" = dot :: encode "tmp" := by decide
  rw [draftName, encode_append, htmp]

theorem dot_mem_encode_iff : dot ∈ encode extension ↔ '.' ∈ extension.toList :=
  mem_encode_iff rfl (by decide) extension

theorem dot_not_mem_encode (h : '.' ∉ extension.toList) : dot ∉ encode extension :=
  mt dot_mem_encode_iff.mp h

theorem ending_append (h : dot ∉ ending) (stem : Bytes) :
    ((stem ++ dot :: ending).reverse.takeWhile (· != dot)).reverse = ending := by
  have hall : ∀ b ∈ ending.reverse, (b != dot) = true := by
    intro b hb
    have hne : b ≠ dot := fun heq => h (heq ▸ List.mem_reverse.mp hb)
    simpa using hne
  rw [List.reverse_append, List.reverse_cons, List.append_assoc,
    List.takeWhile_append_of_pos hall, List.singleton_append,
    List.takeWhile_cons_of_neg (by simp), List.append_nil, List.reverse_reverse]

theorem eq_of_append_dot {stem' ending' : Bytes} (h : dot ∉ ending) (h' : dot ∉ ending')
    (heq : stem ++ dot :: ending = stem' ++ dot :: ending') : stem = stem' ∧ ending = ending' := by
  have hend : ending = ending' := by
    rw [← ending_append h stem, heq, ending_append h' stem']
  subst hend
  exact ⟨List.append_cancel_right heq, rfl⟩

theorem splitExtension_append (h : dot ∉ ending) (hstem : stem ≠ [])
    (hhead : stem.head? ≠ some dot) :
    splitExtension (stem ++ dot :: ending) = (stem, some ending) := by
  have hup : stem ++ dot :: ending ≠ upName := by
    intro heq
    apply hhead
    cases stem with
    | nil => exact absurd rfl hstem
    | cons b stem => exact congrArg some (List.cons.inj heq).1
  have hlen : ending.length ≠ (stem ++ dot :: ending).length := by
    simp only [List.length_append, List.length_cons]
    omega
  have htake : (stem ++ dot :: ending).take ((stem ++ dot :: ending).length - ending.length - 1) =
      stem := by
    have heq : (stem ++ dot :: ending).length - ending.length - 1 = stem.length := by
      simp only [List.length_append, List.length_cons]
      omega
    rw [heq, List.take_left]
  unfold splitExtension
  simp only [ending_append h stem, htake]
  rw [if_neg (by simp only [not_or]; exact ⟨hup, hlen, hstem⟩)]

theorem eq_of_splitExtension (h : splitExtension file = (stem, some ending)) :
    stem ≠ [] ∧ dot ∉ ending ∧ file = stem ++ dot :: ending := by
  unfold splitExtension at h
  simp only at h
  split at h
  · simp at h
  · rename_i hcond
    simp only [not_or] at hcond
    obtain ⟨-, hlen, hne⟩ := hcond
    simp only [Prod.mk.injEq, Option.some.injEq] at h
    obtain ⟨hstem, hending⟩ := h
    have hnot : dot ∉ ending := by
      rw [← hending, List.mem_reverse]
      intro hmem
      simpa using List.all_eq_true.mp List.all_takeWhile dot hmem
    refine ⟨hstem ▸ hne, hnot, ?_⟩
    have hsplit := List.takeWhile_append_dropWhile (p := (· != dot)) (l := file.reverse)
    cases hdrop : file.reverse.dropWhile (· != dot) with
    | nil =>
      rw [hdrop, List.append_nil] at hsplit
      exact absurd (by rw [hsplit, List.reverse_reverse]) hlen
    | cons b rest =>
      have hb : b = dot := by
        have hhead := List.head?_dropWhile_not (· != dot) file.reverse
        rw [hdrop] at hhead
        simpa using hhead
      subst hb
      have hfile : file = rest.reverse ++ dot :: ending := by
        rw [← List.reverse_reverse file, ← hsplit, hdrop, List.reverse_append, hending]
        simp
      have hlen' : file.length - ending.length - 1 = rest.reverse.length := by
        rw [hfile, List.length_append, List.length_cons]
        omega
      have hstem' : rest.reverse = stem := by
        rw [← hstem, hending, hlen', hfile, List.take_left]
      rw [hfile, hstem']

/-- A file that holds a template has the file name of that template. Where the extension has a dot,
no file holds one. -/
theorem of_documentName_eq_some (h : documentName extension file = some name) :
    '.' ∉ extension.toList ∧ IsDocumentName name ∧ file = encode (fileName extension name) := by
  unfold documentName at h
  split at h
  · rename_i stem ending hsplit
    obtain ⟨hne, hdot, hfile⟩ := eq_of_splitExtension hsplit
    split at h
    · rename_i hcond
      obtain ⟨rfl, hhead⟩ := hcond
      obtain rfl := decode?_eq_some_iff.mp h
      refine ⟨?_, ⟨fun heq => hne (encode_eq_nil_iff.mpr heq), fun hc => hhead ?_⟩, ?_⟩
      · exact mt dot_mem_encode_iff.mpr hdot
      · exact (head?_encode_iff rfl (by decide) name).mpr hc
      · rw [hfile, encode_fileName]
    · simp at h
  · simp at h

theorem documentName_eq_some_iff (hext : '.' ∉ extension.toList) :
    documentName extension file = some name ↔
      IsDocumentName name ∧ file = encode (fileName extension name) := by
  have hdot := dot_not_mem_encode hext
  constructor
  · exact fun h => (of_documentName_eq_some h).2
  · rintro ⟨hname, rfl⟩
    have hhead : (encode name).head? ≠ some dot := fun hhead =>
      hname.not_hidden ((head?_encode_iff rfl (by decide) name).mp hhead)
    have hne : encode name ≠ [] := fun heq => hname.ne_empty (encode_eq_nil_iff.mp heq)
    rw [encode_fileName, documentName, splitExtension_append hdot hne hhead]
    simp [hhead]

theorem encode_fileName_injective
    (h : encode (fileName extension name) = encode (fileName extension other)) : name = other := by
  rw [encode_fileName, encode_fileName] at h
  exact encode_injective (List.append_cancel_right h)

/-- No draft has the file name of a document. -/
theorem encode_draftName_ne {extension' : String} (hext : '.' ∉ extension.toList)
    (htmp : extension ≠ "tmp") :
    encode (draftName extension' name) ≠ encode (fileName extension other) := by
  rw [encode_draftName, encode_fileName extension other]
  intro h
  have htail := (eq_of_append_dot (by decide) (dot_not_mem_encode hext) h).2
  exact htmp (encode_injective htail).symm

section Steps

variable (hname : IsDocumentName name) (hslash : '/' ∉ name.toList)

include hname hslash

theorem isStep_of_append_dot {rest : Bytes} (hrest : Path.slash ∉ rest) :
    IsStep (encode name ++ dot :: rest) := by
  have hne : encode name ≠ [] := fun heq => hname.ne_empty (encode_eq_nil_iff.mp heq)
  have hhead : (encode name).head? ≠ some dot := fun hhead =>
    hname.not_hidden ((head?_encode_iff rfl (by decide) name).mp hhead)
  obtain ⟨b, bs, hb⟩ := List.exists_cons_of_ne_nil hne
  refine ⟨by simp, fun h => ?_, fun h => ?_, ?_⟩
  · rw [hb] at h
    simp [selfName] at h
  · rw [hb] at h hhead
    exact hhead (congrArg some (List.cons.inj h).1)
  · rw [List.mem_append, List.mem_cons, mem_encode_iff (c := '/') rfl (by decide)]
    exact not_or.mpr ⟨hslash, not_or.mpr ⟨by decide, hrest⟩⟩

theorem isStep_fileName (hext : '/' ∉ extension.toList) :
    IsStep (encode (fileName extension name)) := by
  have hrest : Path.slash ∉ encode extension := by
    rwa [mem_encode_iff (c := '/') rfl (by decide)]
  exact encode_fileName extension name ▸ isStep_of_append_dot hname hslash hrest

theorem isStep_draftName (hext : '/' ∉ extension.toList) :
    IsStep (encode (draftName extension name)) := by
  have hrest : Path.slash ∉ encode extension ++ dot :: encode "tmp" := by
    rw [List.mem_append, mem_encode_iff (c := '/') rfl (by decide)]
    exact not_or.mpr ⟨hext, by decide⟩
  rw [encode_draftName, encode_fileName, List.append_assoc]
  exact isStep_of_append_dot hname hslash hrest

end Steps

end DirectoryStore

theorem ValidName.isDocumentName {name : String} (h : ValidName name) : IsDocumentName name := by
  obtain ⟨hblank, -, hhead⟩ := validName_iff.mp h
  refine ⟨fun heq => ?_, hhead⟩
  subst heq
  exact absurd hblank (by decide)

theorem ValidName.slash_not_mem {name : String} (h : ValidName name) : '/' ∉ name.toList := by
  intro hmem
  exact absurd ((validName_iff.mp h).2.1 '/' hmem) (by decide)

theorem ValidName.zero_not_mem {name : String} (h : ValidName name) : '\x00' ∉ name.toList := by
  intro hmem
  exact absurd ((validName_iff.mp h).2.1 '\x00' hmem) (by decide)

namespace DirectoryStore

variable {s : DirectoryStore} {name : String} {file : Bytes}

def templateAt (s : DirectoryStore) (p : Path) : Option String := documentName s.extension p.lastName

theorem templateAt_join (hfile : IsStep file) :
    s.templateAt (s.dir.join ⟨file⟩) = documentName s.extension file := by
  rw [templateAt, Path.lastName_join hfile]

theorem templateAt_pathFor (hdot : '.' ∉ s.extension.toList) (hslash : '/' ∉ s.extension.toList)
    (hname : ValidName name) : s.templateAt (s.pathFor name) = some name := by
  have hdocument := hname.isDocumentName
  have hstep := isStep_fileName hdocument hname.slash_not_mem hslash
  exact (templateAt_join hstep).trans ((documentName_eq_some_iff hdot).mpr ⟨hdocument, rfl⟩)

theorem pathFor_of_templateAt (hfile : IsStep file)
    (h : s.templateAt (s.dir.join ⟨file⟩) = some name) : s.pathFor name = s.dir.join ⟨file⟩ := by
  rw [templateAt_join hfile] at h
  obtain ⟨-, -, rfl⟩ := of_documentName_eq_some h
  rfl

theorem templateAt_of_mem_documents {files : List (Bytes × Disk.Info)}
    (hfiles : ∀ f ∈ files, IsStep f.1) {doc : String × Path × Disk.Info}
    (hdoc : doc ∈ s.documents files) :
    ∃ f ∈ files, doc.2.1 = s.dir.join ⟨f.1⟩ ∧ s.templateAt doc.2.1 = some doc.1 := by
  obtain ⟨f, hf, hread⟩ := List.mem_filterMap.mp hdoc
  cases hname : documentName s.extension f.1 with
  | none => simp [hname] at hread
  | some n =>
    simp only [hname, Option.ite_none_right_eq_some, Option.some.injEq] at hread
    obtain ⟨-, rfl⟩ := hread
    exact ⟨f, hf, rfl, (templateAt_join (hfiles f hf)).trans hname⟩

/-- The name of a template and the path of its document tell each other, and no two valid names have
one path. A path in the folder that tells a name is the path for this name, and so are the paths of
the documents that are found there. -/
theorem templateAt_pathFor_inverse (hdot : '.' ∉ s.extension.toList)
    (hslash : '/' ∉ s.extension.toList) :
    (∀ name, ValidName name → s.templateAt (s.pathFor name) = some name) ∧
      (∀ name other, ValidName name → ValidName other → s.pathFor name = s.pathFor other →
        name = other) ∧
      (∀ file name, IsStep file → s.templateAt (s.dir.join ⟨file⟩) = some name →
        s.pathFor name = s.dir.join ⟨file⟩) ∧
      ∀ files : List (Bytes × Disk.Info), (∀ f ∈ files, IsStep f.1) →
        ∀ doc ∈ s.documents files,
          s.templateAt doc.2.1 = some doc.1 ∧ s.pathFor doc.1 = doc.2.1 := by
  refine ⟨fun name => templateAt_pathFor hdot hslash, ?injective, fun file name =>
    pathFor_of_templateAt, ?documents⟩
  case injective =>
    intro name other hname hother heq
    have htold := templateAt_pathFor hdot hslash hname
    rw [heq, templateAt_pathFor hdot hslash hother] at htold
    exact (Option.some.inj htold).symm
  case documents =>
    intro files hfiles doc hdoc
    obtain ⟨f, hf, hpath, htold⟩ := templateAt_of_mem_documents hfiles hdoc
    refine ⟨htold, ?_⟩
    rw [hpath] at htold ⊢
    exact pathFor_of_templateAt (hfiles f hf) htold

/-- Where the extension is empty, names that end in a dot and look like file names are told too. -/
theorem templateAt_pathFor_dotted :
    '.' ∉ "".toList ∧ '/' ∉ "".toList ∧ ValidName "a.html." ∧
      (⟨Path.ofString "t/", "", {}⟩ : DirectoryStore).templateAt (Path.ofString "t/a.html..") =
        some "a.html." ∧ IsStep (encode " .b.") ∧
      (⟨Path.ofString "t/", "", {}⟩ : DirectoryStore).pathFor " .b" = Path.ofString "t/ .b." := by
  have hvalid : ValidName "a.html." := by decide
  have hstep : IsStep (encode " .b.") := by decide
  have hpath : (⟨Path.ofString "t/", "", {}⟩ : DirectoryStore).pathFor "a.html." =
      Path.ofString "t/a.html.." := by decide
  have hjoin : (Path.ofString "t/").join ⟨encode " .b."⟩ = Path.ofString "t/ .b." := by decide
  obtain ⟨htold, -, hread, -⟩ := templateAt_pathFor_inverse
    (s := ⟨Path.ofString "t/", "", {}⟩) (by decide) (by decide)
  refine ⟨by decide, by decide, hvalid, hpath ▸ htold _ hvalid, hstep, hjoin ▸ hread _ _ hstep ?_⟩
  rw [templateAt_join hstep]
  decide

end DirectoryStore

end MailMerge
