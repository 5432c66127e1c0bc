import MailMerge.Proofs.Disk.PlainFolder

/-! # Changes that keep files

What is set up adds files and folders and writes drafts. All files but the drafts stay what they
are, and so does where paths to folders lead.
-/

namespace MailMerge.Disk

variable {d d' d'' : Disk} {q : Place} {path : Path} {A : Bytes → Prop} {D D' : Place → Prop}

/-- Every file is as it was unless it lies at a place with `D`. Files and folders may have been
added, under names that a disk allows. -/
structure Keeps (D : Place → Prop) (d d' : Disk) : Prop where
  here : d'.here = d.here
  links : SameLinks d d'
  folders : ∀ r, d.HasFolder r → d'.HasFolder r
  bytes : ∀ p b, ¬ D p → d.bytesAt p = some b → d'.bytesAt p = some b
  named : d.Named → d'.Named

namespace Keeps

theorem refl (D : Place → Prop) (d : Disk) : Keeps D d d where
  here := rfl
  links := .refl d
  folders _ hr := hr
  bytes _ _ _ hb := hb
  named hd := hd

theorem trans (h : Keeps D d d') (h' : Keeps D d' d'') : Keeps D d d'' where
  here := h'.here.trans h.here
  links := h.links.trans h'.links
  folders r hr := h'.folders r (h.folders r hr)
  bytes p b hp hb := h'.bytes p b hp (h.bytes p b hp hb)
  named hd := h'.named (h.named hd)

theorem mono (h : Keeps D d d') (hD : ∀ p, D p → D' p) : Keeps D' d d' where
  here := h.here
  links := h.links
  folders := h.folders
  bytes p b hp hb := h.bytes p b (fun hD' => hp (hD p hD')) hb
  named := h.named

theorem of_changesOnly (hfolder : d.HasFolder q) (hc : ChangesOnly q A d d')
    (hA : ∀ n b, A n → d.bytesAt (n :: q) = some b → D (n :: q)) : Keeps D d d' where
  here := hc.here
  links := hc.links
  folders := hc.folders
  bytes p b hp hb := by
    have hself : p ≠ q := by
      rintro rfl
      obtain ⟨t, ht⟩ := hfolder
      simp [Disk.bytesAt, ht] at hb
    refine (bytesAt_congr (hc.others p hself ?_)).trans hb
    rintro n hn rfl
    exact hp (hA n b hn hb)
  named hd := by
    obtain ⟨t, ht⟩ := hfolder
    refine ⟨hc.here ▸ hd.here, fun {p x} hx => ?_, fun hx => hd.links ((hc.links _ _).mp hx)⟩
    by_cases hself : p = q
    · exact hself ▸ hd.names ht
    · by_cases hchild : ∃ n, p = n :: q
      · obtain ⟨n, rfl⟩ := hchild
        rcases hc.names n x hx with hname | ⟨y, hy⟩
        · exact List.forall_mem_cons.mpr ⟨hname, hd.names ht⟩
        · exact hd.names hy
      · rw [hc.others p hself fun n _ heq => hchild ⟨n, heq⟩] at hx
        exact hd.names hx

theorem read (h : Keeps (fun _ => False) d d') {b : Bytes} (hread : d.read path = .ok b) :
    d'.read path = .ok b := by
  obtain ⟨x, hx, hb⟩ := exists_of_bind_eq_ok hread
  obtain ⟨q, hleads, hget⟩ := exists_of_bind_eq_ok hx
  cases hq : d.get? q with
  | none =>
    rw [hq] at hget
    exact absurd hget (throw_ne_ok _ _)
  | some y =>
    rw [hq] at hget
    obtain rfl : y = x := Except.ok.inj hget
    cases y with
    | folder | link => exact absurd hb (throw_ne_ok _ _)
    | file b' m t =>
      obtain rfl : b' = b := Except.ok.inj hb
      obtain ⟨m', t', hq'⟩ := bytesAt_eq_some_iff.mp
        (h.bytes q b' not_false (bytesAt_eq_some_iff.mpr ⟨m, t, hq⟩))
      have hleads' := resolve_file_mono h.links h.here h.folders hleads hq hq'
      simp only [Disk.read, entryAt, hleads', ok_bind, hq']
      rfl

end Keeps

theorem named_makeFolder (hd : d.Named) (h : d.makeFolder path = .ok d') : d'.Named := by
  obtain ⟨r, hr, -, rfl⟩ := makeFolder_eq_ok h
  exact (hd.tick.put (isName_of_resolve hd hr) (by simp)).stampAt _ _

theorem keeps_makeFolder (h : d.makeFolder path = .ok d') : Keeps D d d' where
  here := (evolves_makeFolder [] h).here
  links := (evolves_makeFolder [] h).links
  folders := (untouched_makeFolder (p := []) h).folders
  bytes _ _ _ hb := (untouched_makeFolder h).bytes.trans hb
  named hd := named_makeFolder hd h

theorem keeps_makeFolders (D : Place → Prop) (path : Path) (d : Disk) :
    Keeps D d ((Program.makeFolders path).run d).2 := by
  refine relates_makeChain (Keeps.refl D) Keeps.trans (fun path d => ?_) path.ancestors d
  exact holds_after_settle (.refl D d) fun d' hd' => keeps_makeFolder hd'

end MailMerge.Disk
