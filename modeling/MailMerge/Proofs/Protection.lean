import MailMerge.Proofs.Session
import MailMerge.Proofs.Store.Protection
import MailMerge.Proofs.Store.Sharing

/-! # The protected template stays as it is

Any number of stores on one folder are changed through the catalog alone, while other programs
change other files of the folder. The bytes of the protected document are never touched, and every
store goes on to answer with them.
-/

namespace MailMerge

open Disk DirectoryStore Utf8

namespace DirectoryStore

variable {s : DirectoryStore} {d : Disk} {q : Place} {extension : String} {b : Bytes}

/-- No call to the catalog touches the protected document. -/
theorem confined_call (h : s.Tends d q) (hb : d.bytesAt (protectedFile extension :: q) = some b)
    (hext : '.' ∉ extension.toList) (lookup : UpdateLookup) (c : Call) :
    ConfinedBy q (· ≠ protectedFile extension) (c.answer lookup) s d := by
  cases c with
  | list => exact (confined_list h).map _
  | names => exact ((confined_list h).map _).map _
  | get name => exact (confined_getTemplate h name).map _
  | create t => exact (confined_catalogCreate h hb hext t).map _
  | update name t => exact (confined_catalogUpdate h hb hext lookup name t).map _
  | delete name => exact (confined_catalogDelete h hext name).map _

theorem untouched_reopened (p : Place) (s : DirectoryStore) (d : Disk) :
    Untouched p d (s.reopened d).2 := by
  have hmade := untouched_makeChain p s.dir.ancestors d
  unfold reopened
  rcases run_openAt s.dir s.extension d with hrun | hrun | ⟨fault, hrun⟩
  · rw [hrun]
    exact .refl p d
  · rw [hrun]
    exact hmade
  · rw [hrun]
    exact hmade

end DirectoryStore

namespace World

section

variable {ι : Type} {q : Place} {extension : String} {w w' : World ι}

/-- The stores are in order, the folder has evolved, and the protected document is untouched. -/
structure Guarded (q : Place) (extension : String) (w w' : World ι) : Prop where
  tended : Tended q w w'
  evolves : Evolves q w.disk w'.disk
  untouched : Untouched (protectedFile extension :: q) w.disk w'.disk

theorem guarded_of_opened (ho : Opened q w) : Guarded q extension w w :=
  ⟨tended_of_opened ho, .refl q _, .refl _ _⟩

theorem guarded_disk (h : Guarded q extension w w') {d : Disk} (he : Evolves q w'.disk d)
    (hu : Untouched (protectedFile extension :: q) w'.disk d) :
    Guarded q extension w { w' with disk := d } :=
  ⟨tended_evolves h.tended he, h.evolves.trans he, h.untouched.trans hu⟩

end

variable {ι : Type} [DecidableEq ι] {q : Place} {extension : String} {w w' w'' : World ι} {i : ι}

/-- One thing that happens in a world in which the stores on the folder at `q` are changed through
the catalog, and other programs change files there, but not the protected document. -/
inductive Turn (q : Place) (extension : String) : World ι → World ι → Prop
  | call (w : World ι) (i : ι) (lookup : UpdateLookup) (c : Call) :
    Turn q extension w (w.put i ((c.answer lookup).exec (w.stores i) w.disk).2)
  | seed (w : World ι) (i : ι) :
    Turn q extension w
      (w.put i ((TemplateStore.seedDefault (σ := DirectoryStore)).exec (w.stores i) w.disk).2)
  | reopen (w : World ι) (i : ι) :
    Turn q extension w (w.put i ((w.stores i).reopened w.disk))
  | change (w : World ι) (c : Change) (hc : c.ToOthers q (protectedFile extension) w.disk) :
    Turn q extension w { w with disk := w.disk.change c }
  /-- Time passes. The disk may list its entries in another order. -/
  | pass (w : World ι) (d : Disk) (hh : d.here = w.disk.here) (hn : w.disk.now ≤ d.now)
    (hg : ∀ p, d.get? p = w.disk.get? p) : Turn q extension w { w with disk := d }

/-- What may come about in any number of turns. -/
inductive Runs (q : Place) (extension : String) (w : World ι) : World ι → Prop
  | start : Runs q extension w w
  | turn {w' w'' : World ι} (h : Runs q extension w w') (ht : Turn q extension w' w'') :
    Runs q extension w w''

theorem guarded_put (h : Guarded q extension w w') {after : DirectoryStore × Disk}
    (hk : Kept q (w'.stores i) w'.disk after.1 after.2)
    (hu : Untouched (protectedFile extension :: q) w'.disk after.2) :
    Guarded q extension w (w'.put i after) :=
  ⟨tended_put h.tended hk, h.evolves.trans hk.evolves, h.untouched.trans hu⟩

theorem guarded_dealing {α : Type} {m : StoreM DirectoryStore α} (h : Guarded q extension w w')
    (hm : ConfinedBy q (· ≠ protectedFile extension) m (w'.stores i) w'.disk) :
    Guarded q extension w (w'.put i (m.exec (w'.stores i) w'.disk).2) :=
  guarded_put h hm.kept (hm.untouched _ fun hne => hne rfl)

section

variable {b : Bytes} (ho : Opened q w) (hext : '.' ∉ extension.toList)
  (hb : w.disk.bytesAt (protectedFile extension :: q) = some b)

include ho hext hb

theorem guarded_turn (h : Guarded q extension w w') (ht : Turn q extension w' w'') :
    Guarded q extension w w'' := by
  have hb' : w'.disk.bytesAt (protectedFile extension :: q) = some b := h.untouched.bytes.trans hb
  cases ht with
  | call i lookup c => exact guarded_dealing h (confined_call (h.tended.tends i) hb' hext lookup c)
  | seed i => exact guarded_dealing h (confined_seed_of_present (h.tended.tends i) hb' hext)
  | reopen i =>
    exact guarded_put h (kept_reopened (h.tended.tends i)) (untouched_reopened _ _ _)
  | change c hc =>
    have hl : ∀ n, w'.disk.NoLink (n :: q) := fun n =>
      h.evolves.links.noLink_iff.mpr (ho.no_link n)
    exact guarded_disk h (evolves_change (hc.spares hl)) hc.untouched
  | pass d hh hn hg =>
    refine guarded_disk h (evolves_pass hh hn hg) ⟨bytesAt_congr (hg _), ?_⟩
    rintro r ⟨t, hr⟩
    exact ⟨t, (hg r).trans hr⟩

theorem guarded_of_runs (h : Runs q extension w w') : Guarded q extension w w' := by
  induction h with
  | start => exact guarded_of_opened ho
  | turn _ ht ih => exact guarded_turn ho hext hb ih ht

/-- Whatever is done through the catalog, and to other files from outside, the bytes of the protected
document are what they were, and a store with its extension answers with them if it can: they have
to be a text, and the path may not be too long. -/
theorem protected_of_runs (hq : w.disk.HasFolder q) (h : Runs q extension w w') :
    w'.disk.bytesAt (protectedFile extension :: q) = some b ∧
      ∀ i, (w.stores i).extension = extension → ∀ t,
        ((Catalog.get (σ := DirectoryStore) defaultName).exec (w'.stores i) w'.disk).1 = .ok t ↔
          t.name = defaultName ∧ encode t.html = b ∧
            ((w.stores i).pathFor defaultName).bytes.length < pathLimit := by
  have hg := guarded_of_runs ho hext hb h
  have hb' : w'.disk.bytesAt (protectedFile extension :: q) = some b :=
    hg.untouched.bytes.trans hb
  refine ⟨hb', fun i hi t => ?_⟩
  have hdir := hg.tended.dir i
  have hextension := (hg.tended.extension i).trans hi
  have htends := hg.tended.tends i
  have hat : (w'.stores i).FolderAt w'.disk q := by
    refine ⟨htends.plain, ?_, hg.untouched.folders q hq, ?_⟩
    · rw [hdir]
      exact resolve_mono hg.evolves.links hg.evolves.here hg.untouched.folders (ho.leads i) hq
    · exact fun f x hx => htends.sound.names hx f List.mem_cons_self
  have hpath : (w'.stores i).pathFor defaultName = (w.stores i).pathFor defaultName := by
    rw [pathFor, pathFor, hdir, hg.tended.extension i]
  have hget : (Catalog.get (σ := DirectoryStore) defaultName).exec (w'.stores i) w'.disk = _ :=
    exec_get hat (htends.current hat) defaultName
  rw [hget, ← hpath]
  exact shown_eq_ok_iff_of_bytesAt ⟨by decide, by decide⟩ (hextension ▸ hb')

end

/-- One program writes another document, and one of two stores is asked to create the protected one.
The other store goes on to answer what it was. -/
theorem protected_after_create :
    let w := onRoot Bool (rootFile (protectedFile "html") (encode "D")) 1
    let path := (rootStore 1).pathFor "a"
    let w₁ := { w with disk := w.disk.change (.write path (encode "A")) }
    let w₂ := w₁.put true (((Call.create ⟨defaultName, "X"⟩).answer .incomingName).exec
      (w₁.stores true) w₁.disk).2
    w₂.disk.bytesAt [protectedFile "html"] = some (encode "D") ∧
      ((Catalog.get (σ := DirectoryStore) defaultName).exec (w₂.stores false) w₂.disk).1 =
        .ok ⟨defaultName, "D"⟩ := by
  intro w path w₁ w₂
  have hfile : protectedFile "html" =
      [68, 101, 102, 97, 117, 108, 116, 46, 104, 116, 109, 108] := by decide
  have hother : encode (fileName "html" "a") = [97, 46, 104, 116, 109, 108] := by decide
  have hname : IsName (encode (fileName "html" "a")) := by decide
  have hprotected : IsName (protectedFile "html") := by decide
  have hopened : Opened [] w := opened_rootFile hprotected (by decide) (by decide)
  have hroot : w.disk.HasFolder [] := hasFolder_rootFile _ _
  have hbytes : w.disk.bytesAt [protectedFile "html"] = some (encode "D") :=
    bytesAt_eq_some_iff.mpr ⟨_, _, get?_rootFile _ _⟩
  have hleads : w.disk.resolve true path.trimSlashes = .ok [encode (fileName "html" "a")] := by
    have htrim : path.trimSlashes = path := Path.trimSlashes_join hname.toIsStep (by decide)
    rw [htrim]
    refine resolve_join (hopened.leads true) hroot hname ?_ (.inr (hopened.no_link _))
    show ((rootStore 1).dir.join ⟨encode (fileName "html" "a")⟩).bytes.length < pathLimit
    rw [rootStore, length_child_slashes (by decide) hname.toIsStep, hother]
    decide
  have hchange : (Change.write path (encode "A")).ToOthers [] (protectedFile "html") w.disk :=
    .write (by rw [hfile, hother]; decide) hleads
  have hruns : Runs [] "html" w w₂ := .turn (.turn .start (.change w _ hchange)) (.call w₁ true _ _)
  obtain ⟨hkept, hget⟩ := protected_of_runs hopened (by decide) hbytes hroot hruns
  refine ⟨hkept, (hget false rfl _).mpr ⟨rfl, rfl, ?_⟩⟩
  show ((rootStore 1).dir.join ⟨protectedFile "html"⟩).bytes.length < pathLimit
  rw [rootStore, length_child_slashes (by decide) hprotected.toIsStep, hfile]
  decide

end World

end MailMerge
