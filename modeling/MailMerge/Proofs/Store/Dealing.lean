import MailMerge.Store.Basic

/-! # Dealings carried out

What a dealing answers on a disk, with the store and the disk that it leaves. A dealing put
together from smaller ones is carried out piece by piece.
-/

namespace MailMerge.StoreM

variable {σ α β : Type}

/-- The answer of a dealing that starts with the store `s` on the disk `d`, and what it leaves. -/
def exec (m : StoreM σ α) (s : σ) (d : Disk) : Except TemplateError α × σ × Disk :=
  (((m.start s).run d).1.1, ((m.start s).run d).1.2, ((m.start s).run d).2)

def followUp (f : α → StoreM σ β) :
    Except TemplateError α × σ × Disk → Except TemplateError β × σ × Disk
  | (.ok a, s, d) => (f a).exec s d
  | (.error e, s, d) => (.error e, s, d)

@[simp] theorem followUp_ok (f : α → StoreM σ β) (a : α) (s : σ) (d : Disk) :
    followUp f (.ok a, s, d) = (f a).exec s d := rfl

@[simp] theorem followUp_error (f : α → StoreM σ β) (e : TemplateError) (s : σ) (d : Disk) :
    followUp f (.error e, s, d) = (.error e, s, d) := rfl

@[simp] theorem exec_pure (a : α) (s : σ) (d : Disk) :
    (pure a : StoreM σ α).exec s d = (.ok a, s, d) := rfl

@[simp] theorem exec_get (s : σ) (d : Disk) : (get : StoreM σ σ).exec s d = (.ok s, s, d) := rfl

@[simp] theorem exec_modify (f : σ → σ) (s : σ) (d : Disk) :
    (modify f : StoreM σ Unit).exec s d = (.ok (), f s, d) := rfl

@[simp] theorem exec_ofExcept (r : Except TemplateError α) (s : σ) (d : Disk) :
    (ofExcept r : StoreM σ α).exec s d = (r, s, d) := rfl

theorem exec_ofFn (f : σ → Program (Except TemplateError α × σ)) (s : σ) (d : Disk) :
    (ofFn f).exec s d = (((f s).run d).1.1, ((f s).run d).1.2, ((f s).run d).2) := rfl

theorem start_liftM (p : Program α) (s : σ) :
    (liftM p : StoreM σ α).start s = p >>= fun a => pure (.ok a, s) := by
  show (Except.ok <$> StateT.lift p : StateT σ Program _).run s = _
  rw [StateT.run_map, StateT.run_lift, map_bind]
  simp only [map_pure]

@[simp] theorem exec_liftM (p : Program α) (s : σ) (d : Disk) :
    (liftM p : StoreM σ α).exec s d = (.ok (p.run d).1, s, (p.run d).2) := by
  simp only [exec, start_liftM, Program.run_bind, Program.run_pure]

@[simp] theorem exec_bind (m : StoreM σ α) (f : α → StoreM σ β) (s : σ) (d : Disk) :
    (m >>= f).exec s d = followUp f (m.exec s d) := by
  have h : ((m >>= f).start s).run d =
      ((match ((m.start s).run d).1 with
        | (.ok a, s') => (f a).start s'
        | (.error e, s') => pure (.error e, s')).run ((m.start s).run d).2) := by
    simp only [start, ExceptT.run_bind, StateT.run_bind, Program.run_bind]
    rcases ((m.run.run s).run d).1 with ⟨_ | a, s'⟩ <;> rfl
  simp only [exec, h]
  rcases (m.start s).run d with ⟨⟨_ | a, s'⟩, d'⟩ <;> rfl

section Endings

variable {m : StoreM σ α} {f : α → StoreM σ β} {r : Except TemplateError β} {s s' : σ}
  {d d' : Disk}

/-- A dealing in two parts ends where the first one fails, or it goes on with the answer. -/
theorem cases_of_exec_bind (h : (m >>= f).exec s d = (r, s', d')) :
    (∃ e, m.exec s d = (.error e, s', d') ∧ r = .error e) ∨
      ∃ a s₁ d₁, m.exec s d = (.ok a, s₁, d₁) ∧ (f a).exec s₁ d₁ = (r, s', d') := by
  rw [exec_bind] at h
  rcases hexec : m.exec s d with ⟨_ | a, s₁, d₁⟩
  · rw [hexec, followUp_error, Prod.mk.injEq, Prod.mk.injEq] at h
    obtain ⟨rfl, rfl, rfl⟩ := h
    exact .inl ⟨_, rfl, rfl⟩
  · rw [hexec, followUp_ok] at h
    exact .inr ⟨a, s₁, d₁, rfl, h⟩

theorem exists_of_exec_bind {b : β} (h : (m >>= f).exec s d = (.ok b, s', d')) :
    ∃ a s₁ d₁, m.exec s d = (.ok a, s₁, d₁) ∧ (f a).exec s₁ d₁ = (.ok b, s', d') := by
  rcases cases_of_exec_bind h with ⟨e, -, he⟩ | hok
  · simp at he
  · exact hok

theorem exists_of_exec_map {g : α → β} {b : β}
    (h : (m >>= fun a => pure (g a)).exec s d = (.ok b, s', d')) :
    ∃ a, m.exec s d = (.ok a, s', d') := by
  obtain ⟨a, s₁, d₁, hexec, hend⟩ := exists_of_exec_bind h
  rw [exec_pure, Prod.mk.injEq, Prod.mk.injEq] at hend
  obtain ⟨-, rfl, rfl⟩ := hend
  exact ⟨a, hexec⟩

theorem exec_eq_error_of_map {g : α → β} {e : TemplateError}
    (h : (m >>= fun a => pure (g a)).exec s d = (.error e, s', d')) :
    m.exec s d = (.error e, s', d') := by
  rcases cases_of_exec_bind h with ⟨e', hexec, he⟩ | ⟨a, s₁, d₁, -, hend⟩
  · rwa [Except.error.inj he]
  · simp at hend

end Endings

@[simp] theorem exec_request (path : Path) (p : Program (Except Disk.Fault α)) (s : σ) (d : Disk) :
    (request path p : StoreM σ α).exec s d =
      ((p.run d).1.mapError (TemplateError.storage path), s, (p.run d).2) := by
  simp only [exec, request, start, ofFn, ExceptT.run, StateT.run, ExceptT.mk, Program.run_bind]
  rcases p.run d with ⟨_ | a, d'⟩ <;> rfl

@[simp] theorem mapError_ok {ε ε' : Type} (f : ε → ε') (a : α) :
    (Except.ok a : Except ε α).mapError f = .ok a := rfl

@[simp] theorem mapError_error {ε ε' : Type} (f : ε → ε') (e : ε) :
    (Except.error e : Except ε α).mapError f = .error (f e) := rfl

section Requests

variable (path p p' : Path) (bytes : Bytes) (s : σ) (d : Disk)

@[simp] theorem exec_look :
    (request path (Program.perform (.look p)) : StoreM σ Disk.Info).exec s d =
      ((d.look p).mapError (TemplateError.storage path), s, d) :=
  exec_request path (Program.perform (.look p)) s d

@[simp] theorem exec_listing :
    (request path (Program.perform (.list p)) : StoreM σ (List (Bytes × Disk.Info))).exec s d =
      ((d.list p).mapError (TemplateError.storage path), s, d) :=
  exec_request path (Program.perform (.list p)) s d

@[simp] theorem exec_write :
    (request path (Program.perform (.write p bytes)) : StoreM σ Unit).exec s d =
      ((d.settle (d.write p bytes)).1.mapError (TemplateError.storage path), s,
        (d.settle (d.write p bytes)).2) :=
  exec_request path (Program.perform (.write p bytes)) s d

@[simp] theorem exec_rename :
    (request path (Program.perform (.rename p p')) : StoreM σ Unit).exec s d =
      ((d.settle (d.rename p p')).1.mapError (TemplateError.storage path), s,
        (d.settle (d.rename p p')).2) :=
  exec_request path (Program.perform (.rename p p')) s d

@[simp] theorem exec_remove :
    (request path (Program.perform (.remove p)) : StoreM σ Unit).exec s d =
      ((d.settle (d.remove p)).1.mapError (TemplateError.storage path), s,
        (d.settle (d.remove p)).2) :=
  exec_request path (Program.perform (.remove p)) s d

end Requests

theorem of_settle_eq_ok {path : Path} {r : Except Disk.Fault Disk} {a : Unit} {s s' : σ}
    {d d' : Disk}
    (h : ((d.settle r).1.mapError (TemplateError.storage path), s, (d.settle r).2) =
      (.ok a, s', d')) : s' = s ∧ r = .ok d' := by
  cases r with
  | error fault => simp [Disk.settle] at h
  | ok d₁ =>
    simp only [Disk.settle, mapError_ok, Prod.mk.injEq] at h
    obtain ⟨-, rfl, rfl⟩ := h
    exact ⟨rfl, rfl⟩

end MailMerge.StoreM

namespace MailMerge.TemplateStore

open StoreM

variable {σ : Type} [TemplateStore σ]

def presence : Except TemplateError Template → Except TemplateError Bool
  | .ok _ => .ok true
  | .error (.notFound _) => .ok false
  | .error e => .error e

theorem exec_contains (name : String) (s : σ) (d : Disk) :
    (contains name : StoreM σ Bool).exec s d =
      (presence ((TemplateStore.get name).exec s d).1, ((TemplateStore.get name).exec s d).2) := by
  rw [contains, exec_ofFn]
  simp only [Program.run_bind]
  unfold exec
  rcases ((TemplateStore.get name).start s).run d with ⟨⟨e | t, s'⟩, d'⟩
  · cases e <;> rfl
  · rfl

end MailMerge.TemplateStore
