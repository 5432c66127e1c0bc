import MailMerge.Proofs.Store.Dealing
import MailMerge.Store.Directory

/-! # Programs that break off

A program may be stopped between two requests, and within a write, of which then only the first
bytes have reached the disk. What it may leave on the disk is told request by request, and so is
what a dealing with a store may leave. A look-up leaves the disk as it was, wherever it breaks off.
What holds wherever a dealing breaks off, and what holds at its end, is shown part by part.
-/

namespace MailMerge

open Disk

namespace Program

variable {α β : Type} {d d' : Disk}

/-- A program that starts on the first disk may break off and leave the second. -/
inductive BreaksOff {α : Type} : Program α → Disk → Disk → Prop
  | here (m : Program α) (d : Disk) : BreaksOff m d d
  /-- Only the first `k` bytes were written. -/
  | within {p : Path} {bytes : Bytes} {next : Except Fault Unit → Program α} {d : Disk} (k : Nat) :
    BreaksOff (ask (.write p bytes) next) d (d.settle (d.write p (bytes.take k))).2
  | later {r : Request} {next : r.Reply → Program α} {d d' : Disk}
    (h : BreaksOff (next (d.perform r).1) (d.perform r).2 d') : BreaksOff (ask r next) d d'

theorem breaksOff_end (m : Program α) (d : Disk) : m.BreaksOff d (m.run d).2 := by
  induction m generalizing d with
  | done a => exact .here _ d
  | ask r next ih => exact .later (ih _ _)

/-- The disk after `n` requests and, if a write is next, the first `k` bytes of it. -/
def stopped (k : Nat) : Nat → Program α → Disk → Disk
  | _, done _, d => d
  | 0, ask (.write p bytes) _, d => (d.settle (d.write p (bytes.take k))).2
  | 0, ask _ _, d => d
  | n + 1, ask r next, d => stopped k n (next (d.perform r).1) (d.perform r).2

theorem breaksOff_stopped (k n : Nat) (m : Program α) (d : Disk) :
    m.BreaksOff d (stopped k n m d) := by
  induction n generalizing m d with
  | zero =>
    cases m with
    | done a => exact .here _ d
    | ask r next =>
      cases r with
      | write p bytes => exact .within k
      | _ => exact .here _ d
  | succ n ih =>
    cases m with
    | done a => exact .here _ d
    | ask r next =>
      rw [stopped]
      exact .later (ih _ _)

theorem breaksOff_pure {a : α} (h : (pure a : Program α).BreaksOff d d') : d' = d := by
  have h : (done a).BreaksOff d d' := h
  cases h
  rfl

/-- A program in two parts breaks off in the first, or in the second after the whole of the
first. -/
theorem BreaksOff.of_bind {m : Program α} {f : α → Program β} (h : (m >>= f).BreaksOff d d') :
    m.BreaksOff d d' ∨ (f (m.run d).1).BreaksOff (m.run d).2 d' := by
  induction m generalizing d with
  | done a => exact .inr h
  | ask r next ih =>
    have h : (ask r fun reply => (next reply).bind f).BreaksOff d d' := h
    cases h with
    | here => exact .inl (.here _ _)
    | within k => exact .inl (.within k)
    | later h =>
      rcases ih _ h with h | h
      · exact .inl (.later h)
      · exact .inr h

theorem breaksOff_perform {r : Request} (h : (perform r).BreaksOff d d') :
    d' = d ∨ d' = (d.perform r).2 ∨
      ∃ p bytes k, r = .write p bytes ∧ d' = (d.settle (d.write p (bytes.take k))).2 := by
  have h : (ask r done).BreaksOff d d' := h
  cases h with
  | here => exact .inl rfl
  | within k => exact .inr (.inr ⟨_, _, k, rfl, rfl⟩)
  | later h => exact .inr (.inl (breaksOff_pure h))

/-- The program leaves every disk as it was, wherever it breaks off. -/
def Looks (m : Program α) : Prop := ∀ d d', m.BreaksOff d d' → d' = d

theorem looks_pure (a : α) : Looks (pure a : Program α) := fun _ _ => breaksOff_pure

theorem Looks.run {m : Program α} (h : m.Looks) (d : Disk) : (m.run d).2 = d :=
  h _ _ (breaksOff_end m d)

theorem Looks.bind {m : Program α} {f : α → Program β} (hm : m.Looks) (hf : ∀ a, (f a).Looks) :
    (m >>= f).Looks := by
  intro d d' h
  rcases h.of_bind with h | h
  · exact hm _ _ h
  · rw [hm.run d] at h
    exact hf _ _ _ h

theorem looks_perform {r : Request} (hr : ∀ d : Disk, (d.perform r).2 = d)
    (hwrite : ∀ p bytes, r ≠ .write p bytes) : Looks (perform r) := by
  intro d d' h
  rcases breaksOff_perform h with h | h | ⟨p, bytes, k, h, -⟩
  · exact h
  · exact h.trans (hr d)
  · exact absurd h (hwrite p bytes)

theorem looks_look (p : Path) : Looks (perform (.look p)) :=
  looks_perform (fun _ => rfl) (by simp)

theorem looks_list (p : Path) : Looks (perform (.list p)) :=
  looks_perform (fun _ => rfl) (by simp)

theorem looks_read (p : Path) : Looks (perform (.read p)) :=
  looks_perform (fun _ => rfl) (by simp)

theorem looks_readText (p : Path) : Looks (readText p) := by
  refine (looks_read p).bind fun r => ?_
  rcases r with fault | bytes
  · exact looks_pure _
  · cases hbytes : Utf8.decode? bytes with
    | none =>
      simp only [hbytes]
      exact looks_pure _
    | some text =>
      simp only [hbytes]
      exact looks_pure _

end Program

namespace StoreM

variable {σ α β : Type} {m : StoreM σ α} {f : α → StoreM σ β} {s s' : σ} {d d' : Disk}

/-- A dealing with the store `s` that starts on the first disk may break off and leave the
second. -/
def BreaksOff (m : StoreM σ α) (s : σ) (d d' : Disk) : Prop := (m.start s).BreaksOff d d'

theorem breaksOff_end (m : StoreM σ α) (s : σ) (d : Disk) :
    m.BreaksOff s d (m.exec s d).2.2 := Program.breaksOff_end _ d

theorem start_bind (m : StoreM σ α) (f : α → StoreM σ β) (s : σ) :
    (m >>= f).start s = m.start s >>= fun
      | (.ok a, s') => (f a).start s'
      | (.error e, s') => pure (.error e, s') := by
  simp only [start, ExceptT.run_bind, StateT.run_bind]
  refine congrArg _ (funext fun out => ?_)
  rcases out with ⟨_ | a, s'⟩ <;> rfl

theorem BreaksOff.of_bind (h : (m >>= f).BreaksOff s d d') :
    m.BreaksOff s d d' ∨
      ∃ a s' d₁, m.exec s d = (.ok a, s', d₁) ∧ (f a).BreaksOff s' d₁ d' := by
  rw [BreaksOff, start_bind] at h
  rcases h.of_bind with h | h
  · exact .inl h
  · have hend := breaksOff_end m s d
    unfold exec at hend ⊢
    rcases hout : (m.start s).run d with ⟨⟨e | a, s'⟩, d₁⟩
    · rw [hout] at h hend
      obtain rfl := Program.breaksOff_pure h
      exact .inl hend
    · rw [hout] at h
      exact .inr ⟨a, s', d₁, rfl, h⟩

theorem breaksOff_request {path : Path} {p : Program (Except Fault α)}
    (h : (request path p : StoreM σ α).BreaksOff s d d') : p.BreaksOff d d' := by
  rcases Program.BreaksOff.of_bind h with h | h
  · exact h
  · have hend := Program.breaksOff_end p d
    rcases hout : p.run d with ⟨_ | a, d₁⟩
    · rw [hout] at h hend
      obtain rfl := Program.breaksOff_pure h
      exact hend
    · rw [hout] at h hend
      obtain rfl := Program.breaksOff_pure h
      exact hend

section Requests

variable {path p p' : Path} {bytes : Bytes}

theorem breaksOff_settle {e : Except Fault Disk} (h : d' = (d.settle e).2) :
    d' = d ∨ e = .ok d' := by
  cases e with
  | error fault => exact .inl h
  | ok d₁ => exact .inr (congrArg _ h.symm)

theorem breaksOff_write
    (h : (request path (Program.perform (.write p bytes)) : StoreM σ Unit).BreaksOff s d d') :
    d' = d ∨ ∃ k, d.write p (bytes.take k) = .ok d' := by
  rcases Program.breaksOff_perform (breaksOff_request h) with h | h | ⟨p', bytes', k, heq, h⟩
  · exact .inl h
  · refine (breaksOff_settle h).imp_right fun h => ⟨bytes.length, ?_⟩
    rwa [List.take_length]
  · obtain ⟨rfl, rfl⟩ := Request.write.inj heq
    exact (breaksOff_settle h).imp_right fun h => ⟨k, h⟩

theorem breaksOff_rename
    (h : (request path (Program.perform (.rename p p')) : StoreM σ Unit).BreaksOff s d d') :
    d' = d ∨ d.rename p p' = .ok d' := by
  rcases Program.breaksOff_perform (breaksOff_request h) with h | h | ⟨_, _, _, heq, -⟩
  · exact .inl h
  · exact breaksOff_settle h
  · simp at heq

theorem breaksOff_remove
    (h : (request path (Program.perform (.remove p)) : StoreM σ Unit).BreaksOff s d d') :
    d' = d ∨ d.remove p = .ok d' := by
  rcases Program.breaksOff_perform (breaksOff_request h) with h | h | ⟨_, _, _, heq, -⟩
  · exact .inl h
  · exact breaksOff_settle h
  · simp at heq

end Requests

def Looks (m : StoreM σ α) : Prop := ∀ s, (m.start s).Looks

namespace Looks

theorem disk (h : m.Looks) (hd : m.BreaksOff s d d') : d' = d := h s _ _ hd

theorem exec (h : m.Looks) (s : σ) (d : Disk) : (m.exec s d).2.2 = d :=
  h.disk (breaksOff_end m s d)

theorem bind (hm : m.Looks) (hf : ∀ a, (f a).Looks) : (m >>= f).Looks := by
  intro s
  rw [start_bind]
  apply (hm s).bind
  rintro ⟨_ | a, s'⟩
  · exact Program.looks_pure _
  · exact hf a s'

/-- A dealing that looks first breaks off on the first disk or after that. -/
theorem of_bind (hm : m.Looks) (h : (m >>= f).BreaksOff s d d') :
    d' = d ∨ ∃ a s', m.exec s d = (.ok a, s', d) ∧ (f a).BreaksOff s' d d' := by
  rcases h.of_bind with hfirst | ⟨a, s', d₁, hexec, hthen⟩
  · exact .inl (hm.disk hfirst)
  · have hdisk := hm.exec s d
    rw [hexec] at hdisk
    obtain rfl : d₁ = d := hdisk
    exact .inr ⟨a, s', hexec, hthen⟩

end Looks

theorem looks_pure (a : α) : Looks (pure a : StoreM σ α) := fun _ => Program.looks_pure _

theorem looks_get : Looks (get : StoreM σ σ) := fun _ => Program.looks_pure _

theorem looks_modify (f : σ → σ) : Looks (modify f : StoreM σ Unit) := fun _ => Program.looks_pure _

theorem looks_ofExcept (r : Except TemplateError α) : Looks (ofExcept r : StoreM σ α) :=
  fun _ => Program.looks_pure _

theorem looks_liftM {p : Program α} (hp : p.Looks) : Looks (liftM p : StoreM σ α) := by
  intro s
  rw [start_liftM]
  exact hp.bind fun _ => Program.looks_pure _

theorem looks_request {path : Path} {p : Program (Except Fault α)} (hp : p.Looks) :
    Looks (request path p : StoreM σ α) := fun _ _ _ h => hp _ _ (breaksOff_request h)

section Upholding

variable {I : σ → Disk → Prop} {R : Disk → Prop}

/-- Wherever the dealing breaks off it leaves a disk with `R`, and at its end the store and the disk
satisfy `I`. -/
structure Upholds (I : σ → Disk → Prop) (R : Disk → Prop) (m : StoreM σ α) (s : σ) (d : Disk) :
    Prop where
  anywhere : ∀ d', m.BreaksOff s d d' → R d'
  after : I (m.exec s d).2.1 (m.exec s d).2.2

theorem upholds_bind (hR : ∀ d', m.BreaksOff s d d' → R d')
    (herror : ∀ e s' d', m.exec s d = (.error e, s', d') → I s' d')
    (hok : ∀ a s' d', m.exec s d = (.ok a, s', d') → Upholds I R (f a) s' d') :
    Upholds I R (m >>= f) s d where
  anywhere d' h := by
    rcases h.of_bind with h | ⟨a, s', d₁, hexec, h⟩
    · exact hR d' h
    · exact (hok a s' d₁ hexec).anywhere d' h
  after := by
    rw [exec_bind]
    rcases hexec : m.exec s d with ⟨e | a, s', d'⟩
    · exact herror e s' d' hexec
    · exact (hok a s' d' hexec).after

section Looking

variable (hd : R d)

include hd

theorem upholds_of_looks (hm : m.Looks) (h : I (m.exec s d).2.1 d) : Upholds I R m s d where
  anywhere d' hd' := hm.disk hd' ▸ hd
  after := by rwa [hm.exec s d]

theorem upholds_look (hm : m.Looks) (h : I (m.exec s d).2.1 d)
    (hok : ∀ a s', m.exec s d = (.ok a, s', d) → I s' d → Upholds I R (f a) s' d) :
    Upholds I R (m >>= f) s d := by
  have hlook : Upholds I R m s d := upholds_of_looks hd hm h
  apply upholds_bind hlook.anywhere
  · intro e s' d' hexec
    have hafter := hlook.after
    rwa [hexec] at hafter
  · intro a s' d' hexec
    have hdisk := hm.exec s d
    rw [hexec] at hdisk h
    obtain rfl : d' = d := hdisk
    exact hok a s' hexec h

theorem upholds_check {r : Except TemplateError α} (h : I s d)
    (hok : ∀ a, r = .ok a → Upholds I R (f a) s d) : Upholds I R (ofExcept r >>= f) s d := by
  refine upholds_look hd (looks_ofExcept r) h fun a s' hexec _ => ?_
  simp only [exec_ofExcept, Prod.mk.injEq, and_true] at hexec
  obtain ⟨hr, rfl⟩ := hexec
  exact hok a hr

theorem upholds_unless {c : Prop} [Decidable c] {e : TemplateError} {next : Unit → StoreM σ α}
    (h : I s d) (hnext : ¬ c → Upholds I R (next ()) s d) :
    Upholds I R (if c then throw e >>= next else next ()) s d := by
  split
  · have hthrow : (throw e >>= next : StoreM σ α) = ofExcept (.error e) >>= next := rfl
    rw [hthrow]
    exact upholds_check hd h nofun
  · exact hnext ‹_›

end Looking

theorem Upholds.map (h : Upholds I R m s d) (g : α → β) :
    Upholds I R (m >>= fun a => pure (g a)) s d := by
  have hafter := h.after
  apply upholds_bind h.anywhere
  · intro e s' d' hexec
    rwa [hexec] at hafter
  · intro a s' d' hexec
    have hend := h.anywhere _ (breaksOff_end m s d)
    rw [hexec] at hafter hend
    exact upholds_of_looks hend (looks_pure _) hafter

end Upholding

end StoreM

open StoreM

theorem TemplateStore.looks_contains {σ : Type} [TemplateStore σ] {name : String}
    (h : Looks (TemplateStore.get name : StoreM σ Template)) :
    Looks (TemplateStore.contains name : StoreM σ Bool) := by
  intro s
  refine (h s).bind fun out => ?_
  rcases out with ⟨e | t, s'⟩
  · cases e <;> exact Program.looks_pure _
  · exact Program.looks_pure _

namespace DirectoryStore

theorem looks_readAll (docs : List (String × Path × Info)) : (readAll docs).Looks := by
  induction docs with
  | nil => exact Program.looks_pure _
  | cons doc docs ih =>
    refine (Program.looks_readText _).bind fun text => ih.bind fun rest => ?_
    cases text <;> exact Program.looks_pure _

theorem looks_load (docs : List (String × Path × Info)) (signal : Signal) :
    Looks (load docs signal) :=
  (looks_liftM (looks_readAll docs)).bind fun _ => looks_modify _

theorem looks_scan : Looks scan :=
  looks_get.bind fun _ => (looks_request (Program.looks_look _)).bind fun _ =>
    (looks_request (Program.looks_list _)).bind fun _ => looks_pure _

theorem looks_reload : Looks reload := looks_scan.bind fun found => looks_load found.1 found.2

theorem looks_refresh : Looks refresh := by
  refine looks_scan.bind fun found => looks_get.bind fun s => ?_
  split
  · exact looks_pure _
  · exact looks_load found.1 found.2

theorem looks_find (name : String) : Looks (find name) :=
  looks_get.bind fun _ => looks_ofExcept _

theorem looks_list : Looks (TemplateStore.list : StoreM DirectoryStore (List Template)) :=
  looks_refresh.bind fun _ => looks_get.bind fun _ => looks_pure _

theorem looks_getTemplate (name : String) :
    Looks (TemplateStore.get name : StoreM DirectoryStore Template) :=
  looks_refresh.bind fun _ => looks_find name

theorem looks_contains (name : String) :
    Looks (TemplateStore.contains name : StoreM DirectoryStore Bool) :=
  TemplateStore.looks_contains (looks_getTemplate name)

end DirectoryStore

end MailMerge
