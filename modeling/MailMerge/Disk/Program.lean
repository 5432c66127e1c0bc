import MailMerge.Disk.Request

/-! # Programs

A program asks the disk one request after another, each of which may depend on the answers so
far, and ends with a value. Everything that touches the disk is a program, so that it can be run
on a disk that is a value as well as on a real one, and stopped after any number of requests.
-/

namespace MailMerge

open Disk

/-- A sequence of requests that ends with an `α`. -/
inductive Program (α : Type) : Type
  | done (a : α)
  | ask (r : Request) (next : r.Reply → Program α)

namespace Program

variable {α β γ : Type}

def bind (m : Program α) (f : α → Program β) : Program β :=
  match m with
  | done a => f a
  | ask r next => ask r fun reply => (next reply).bind f

instance : Monad Program where
  pure := done
  bind := bind

def perform (r : Request) : Program r.Reply := ask r done

/-- The value of a program that starts on `d`, and the disk it leaves. -/
def run : Program α → Disk → α × Disk
  | done a, d => (a, d)
  | ask r next, d => (next (d.perform r).1).run (d.perform r).2

theorem bind_done (m : Program α) : m.bind done = m := by
  induction m with
  | done a => rfl
  | ask r next ih => simp only [bind, ih]

theorem bind_assoc (m : Program α) (f : α → Program β) (g : β → Program γ) :
    (m.bind f).bind g = m.bind fun a => (f a).bind g := by
  induction m with
  | done a => rfl
  | ask r next ih => simp only [bind, ih]

instance : LawfulMonad Program :=
  LawfulMonad.mk' Program (fun m => bind_done m) (fun _ _ => rfl) (fun m f g => bind_assoc m f g)

@[simp] theorem run_pure (a : α) (d : Disk) : (pure a : Program α).run d = (a, d) := rfl

@[simp] theorem run_bind (m : Program α) (f : α → Program β) (d : Disk) :
    (m >>= f).run d = (f (m.run d).1).run (m.run d).2 := by
  induction m generalizing d with
  | done a => rfl
  | ask r next ih => exact ih _ _

@[simp] theorem run_perform (r : Request) (d : Disk) : (perform r).run d = d.perform r := rfl

end Program

end MailMerge
