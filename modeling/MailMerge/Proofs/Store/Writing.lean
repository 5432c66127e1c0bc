import MailMerge.Proofs.Disk.PlainFolder
import MailMerge.Proofs.Store.Reading

/-! # Writing into a folder

A folder that holds nothing but files, and a store that is alone with it: every write, rename and
removal there succeeds if there is room for the names, and leaves such a folder again.
-/

namespace MailMerge

open Disk Utf8

namespace Disk

variable {d d' : Disk} {p q r : Place} {n m : Bytes} {path : Path}

/-- The path leads to a folder at `q` that holds nothing but files. -/
structure FilesAt (path : Path) (d : Disk) (q : Place) : Prop where
  leads : d.resolve true path = .ok q
  folder : d.HasFolder q
  names : ∀ f x, d.get? (f :: q) = some x → IsName f
  files : ∀ f x, d.get? (f :: q) = some x → x.isFile = true

namespace FilesAt

theorem plainFolder (h : FilesAt path d q) : PlainFolder path d q where
  leads := h.leads
  folder := h.folder
  names := h.names
  no_link n target hx := by simpa [Entry.isFile] using h.files n _ hx

theorem no_folder (h : FilesAt path d q) (n : Bytes) : ¬ d.HasFolder (n :: q) := by
  rintro ⟨t, hx⟩
  simpa [Entry.isFile] using h.files _ _ hx

theorem of_change (h : FilesAt path d q) (hh : d'.here = d.here) (hlinks : SameLinks d d')
    (hfolders : ∀ r, d.HasFolder r → d'.HasFolder r)
    (hin : ∀ f x, d'.get? (f :: q) = some x → IsName f ∧ x.isFile = true) : FilesAt path d' q where
  leads := resolve_mono hlinks hh hfolders h.leads h.folder
  folder := hfolders q h.folder
  names f x hx := (hin f x hx).1
  files f x hx := (hin f x hx).2

theorem of_changesOnly {A : Bytes → Prop} (h : FilesAt path d q) (hc : ChangesOnly q A d d')
    (hfiles : ∀ f x, A f → d'.get? (f :: q) = some x → x.isFile = true) : FilesAt path d' q := by
  have hafter := h.plainFolder.of_changesOnly hc
  refine ⟨hafter.leads, hafter.folder, hafter.names, fun f x hx => ?_⟩
  by_cases hf : A f
  · exact hfiles f x hf hx
  · rw [hc.child hf] at hx
    exact h.files f x hx

theorem write (h : FilesAt path d q) (hn : HasRoom path n) (b : Bytes) :
    ∃ d', d.write (path.join ⟨n⟩) b = .ok d' ∧ FilesAt path d' q ∧
      ∀ f, d'.bytesAt (f :: q) = if f = n then some b else d.bytesAt (f :: q) := by
  have hstep := hn.name.toIsStep
  have hok : ∃ d', d.write (path.join ⟨n⟩) b = .ok d' :=
    write_succeeds (h.plainFolder.resolve_child hn)
      (Path.endsInSlash_join hstep (bytes_ne_nil h.leads)) (h.files n)
  obtain ⟨d', hwrite⟩ := hok
  obtain ⟨-, hc, mode, t, hx⟩ := h.plainFolder.write hstep hwrite
  refine ⟨d', hwrite, h.of_changesOnly hc ?_, fun f => ?_⟩
  · rintro f x rfl hx'
    obtain rfl := Option.some.inj (hx'.symm.trans hx)
    rfl
  · split
    · subst f
      exact bytesAt_eq_some_iff.mpr ⟨mode, t, hx⟩
    · exact hc.bytesAt ‹_›

theorem rename (h : FilesAt path d q) (hn : HasRoom path n) (hm : HasRoom path m) (hne : n ≠ m)
    {b : Bytes} (hb : d.bytesAt (n :: q) = some b) :
    ∃ d', d.rename (path.join ⟨n⟩) (path.join ⟨m⟩) = .ok d' ∧ FilesAt path d' q ∧
      ∀ f, d'.bytesAt (f :: q) =
        if f = m then some b else if f = n then none else d.bytesAt (f :: q) := by
  obtain ⟨mode, t, hx⟩ := bytesAt_eq_some_iff.mp hb
  have hrename := h.plainFolder.rename_eq hn hm hne hx
  rw [if_neg (by rw [isFolderAt_iff]; exact h.no_folder m)] at hrename
  obtain ⟨-, hc, hold, hnew⟩ :=
    h.plainFolder.rename hn.name.toIsStep hm.name.toIsStep hne hx hrename
  refine ⟨_, hrename, h.of_changesOnly hc ?_, fun f => ?_⟩
  · rintro f x (rfl | rfl) hx'
    · simp [hold] at hx'
    · obtain rfl := Option.some.inj (hx'.symm.trans hnew)
      rfl
  · by_cases hfm : f = m
    · subst hfm
      rw [if_pos rfl]
      exact bytesAt_eq_some_iff.mpr ⟨mode, t, hnew⟩
    · rw [if_neg hfm]
      by_cases hfn : f = n
      · subst hfn
        simp [bytesAt, hold]
      · rw [if_neg hfn]
        exact hc.bytesAt (not_or.mpr ⟨hfn, hfm⟩)

theorem remove (h : FilesAt path d q) (hn : HasRoom path n) {b : Bytes}
    (hb : d.bytesAt (n :: q) = some b) :
    ∃ d', d.remove (path.join ⟨n⟩) = .ok d' ∧ FilesAt path d' q ∧
      ∀ f, d'.bytesAt (f :: q) = if f = n then none else d.bytesAt (f :: q) := by
  have hnil := bytes_ne_nil h.leads
  have hstep := hn.name.toIsStep
  obtain ⟨mode, t, hx⟩ := bytesAt_eq_some_iff.mp hb
  obtain ⟨d', hremove⟩ := remove_succeeds (h.plainFolder.resolve_child hn)
    (Path.endsInSlash_join hstep hnil) (Path.endsInDots_join hstep hnil) hx
  obtain ⟨hc, hnone⟩ := h.plainFolder.remove hstep hremove
  refine ⟨d', hremove, h.of_changesOnly hc ?_, fun f => ?_⟩
  · rintro f x rfl hx'
    simp [hnone] at hx'
  · split
    · subst f
      simp [bytesAt, hnone]
    · exact hc.bytesAt ‹_›

end FilesAt

end Disk

end MailMerge
