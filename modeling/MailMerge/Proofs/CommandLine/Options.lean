import MailMerge.Proofs.CommandLine.Perform
import MailMerge.Proofs.CommandLine.Words
import MailMerge.Proofs.Wire

/-! # Options and the file of a request

A request may be given by options, by a file, or in part by both. However its texts are divided
between the two, what is made of them is the request, and rendering it ends alike.
-/

namespace MailMerge.CommandLine

open Disk Program EmailRequest

variable {o o' : RenderOptions} {r : EmailRequest} {d d' : Disk}

/-- What an option says counts, and what the file says counts where no option says anything. -/
theorem get?_applyTo (o : RenderOptions) (r : EmailRequest) (f : RequestField) :
    (o.applyTo r).get? f = (o.get? f <|> r.get? f) := by
  rcases f with f | p
  · cases f <;> rfl
  · exact Fragments.get?_ofFn _ p

/-- Options and a file that tell the request together: each option says the text that the request
has in its field, and the file, if one is named, has the other texts. For a field with an option
the file may have any text. -/
structure Divides (o : RenderOptions) (r : EmailRequest) (d : Disk) : Prop where
  options : ∀ f v, o.get? f = some v → r.get? f = some v
  no_file : o.request = none → ∀ f, o.get? f = none → r.get? f = none
  file : ∀ path, o.request = some path → ∃ text ms r', d.readText path = .ok text ∧
    Lists text ms ∧ Told ms r' ∧ ∀ f, o.get? f = none → r'.get? f = r.get? f

theorem applyTo_eq {r' : EmailRequest} (hoptions : ∀ f v, o.get? f = some v → r.get? f = some v)
    (hrest : ∀ f, o.get? f = none → r'.get? f = r.get? f) : o.applyTo r' = r := by
  refine ext_get? (funext fun f => ?_)
  rw [get?_applyTo]
  cases hf : o.get? f with
  | none => exact hrest f hf
  | some v => exact (hoptions f v hf).symm

theorem readText_of_keeps {path : Path} {text : String} (hk : Keeps (fun _ => False) d d')
    (h : d.readText path = .ok text) : d'.readText path = .ok text := by
  unfold Disk.readText at h ⊢
  cases hread : d.read path with
  | error fault => simp [hread] at h
  | ok bytes =>
    rw [hread] at h
    rw [hk.read hread]
    exact h

namespace Divides

theorem attempt_toRequest (h : Divides o r d) : attempt o.toRequest d = (.ok r, d) := by
  rw [RenderOptions.toRequest]
  cases hpath : o.request with
  | none =>
    have happly : o.applyTo {} = r := applyTo_eq h.options fun f hf => by
      rw [h.no_file hpath f hf]
      rcases f with f | p
      · cases f <;> rfl
      · exact Fragments.get?_empty p
    simp only [happly]
    rfl
  | some path =>
    obtain ⟨text, ms, r', htext, hlists, htold, hrest⟩ := h.file path hpath
    have hread : attempt (CommandM.readFile path) d = (.ok text, d) := by
      rw [CommandM.attempt_readFile, htext]
      rfl
    have hjson : ofJson text = .ok r' := (ofJson_eq_ok_iff hlists).mpr htold
    simp only [attempt_bind, hread, hjson, applyTo_eq h.options hrest]
    rfl

theorem of_keeps (h : Divides o r d) (hk : Keeps (fun _ => False) d d') : Divides o r d' where
  options := h.options
  no_file := h.no_file
  file path hpath := by
    obtain ⟨text, ms, r', htext, hrest⟩ := h.file path hpath
    exact ⟨text, ms, r', readText_of_keeps hk htext, hrest⟩

end Divides

/-- The options that say what the request has in the fields that are picked. -/
def RenderOptions.saying (r : EmailRequest) (picked : RequestField → Bool) (path : Option Path)
    (json : Bool) : RenderOptions where
  request := path
  recipient := if picked (.own .recipient) then r.recipient else none
  subject := if picked (.own .title) then r.title else none
  template := if picked (.own .templateName) then r.templateName else none
  fragments := .ofFn fun p => if picked (.fragment p) then r.fragments.get? p else none
  json := json

section Picked

variable {picked : RequestField → Bool} {path : Option Path} {json : Bool}

theorem get?_saying (f : RequestField) :
    (RenderOptions.saying r picked path json).get? f = if picked f then r.get? f else none := by
  rcases f with f | p
  · cases f <;> rfl
  · exact Fragments.get?_ofFn _ p

theorem get?_of_saying {f : RequestField} {v : String}
    (h : (RenderOptions.saying r picked path json).get? f = some v) : r.get? f = some v := by
  rw [get?_saying] at h
  split at h
  · exact h
  · exact absurd h nofun

/-- A request may be given by options alone. -/
theorem divides_options (r : EmailRequest) (json : Bool) (d : Disk) :
    Divides (.saying r (fun _ => true) none json) r d where
  options _ _ := get?_of_saying
  no_file _ f hf := by rwa [get?_saying, if_pos rfl] at hf
  file _ hpath := absurd hpath nofun

/-- Whichever texts of a request are given by options, a file with the others, and with any texts in
the fields that are given by options, completes them. -/
theorem divides_file {file : Path} {r' : EmailRequest}
    (htext : d.readText file = .ok r'.toDoc.print)
    (hpicked : ∀ f, picked f = true → (r.get? f).isSome)
    (hrest : ∀ f, picked f = false → r'.get? f = r.get? f) :
    Divides (.saying r picked (some file) json) r d where
  options _ _ := get?_of_saying
  no_file hpath := absurd hpath nofun
  file path hpath := by
    obtain rfl := Option.some.inj hpath
    have hprint : r'.toDoc.print.toList = r'.toDoc.compact := String.toList_ofList
    obtain ⟨ms, hms⟩ : ∃ ms, r'.toDoc = .object (.ofPairs ms) :=
      ⟨_, congrArg Json.Doc.object (Json.Members.ofList_eq_ofPairs _)⟩
    refine ⟨_, ms, r', htext, ?_, ?_, fun f hf => hrest f ?_⟩
    · exact lists_of_compact (hms ▸ hprint) (hms ▸ r'.isTextual_toDoc)
    · exact ofDoc_eq_ok_iff.mp (hms ▸ r'.ofDoc_toDoc)
    · cases hpick : picked f with
      | false => rfl
      | true =>
        rw [get?_saying, if_pos hpick] at hf
        have hsome := hpicked f hpick
        rw [hf] at hsome
        exact absurd hsome nofun

end Picked

/-- However a request is divided between options and a file, it is the request that is rendered, and
rendering it ends alike. The words that say the options are understood so. -/
theorem render_divided (h : Divides o r d) (h' : Divides o' r d) (hjson : o.json = o'.json) :
    attempt o.toRequest d = (.ok r, d) ∧
    (∀ home words words', Command.ofWords words = .ok (.render o) →
      Command.ofWords words' = .ok (.render o') →
        (run home words).run d = (run home words').run d) ∧
    ((∀ path, o.request = some path → ∃ name, name ≠ "" ∧ path = Path.ofString name) →
      Command.ofWords o.words = .ok (.render o)) := by
  refine ⟨h.attempt_toRequest, ?_, RenderOptions.ofWords_words⟩
  intro home words words' hwords hwords'
  cases home with
  | none =>
    simp only [run, hwords, hwords']
    rfl
  | some home =>
    have hperform : attempt ((Command.render o).perform home) d =
        attempt ((Command.render o').perform home) d := by
      refine attempt_render_congr hjson fun d₁ hk => ?_
      rw [(h.of_keeps hk).attempt_toRequest, (h'.of_keeps hk).attempt_toRequest]
    simp only [run, hwords, hwords', run_bind]
    rw [attempt, attempt] at hperform
    rw [hperform]

def bodiless : EmailRequest where
  recipient := some "ann@example.org"
  title := some "Hello"
  fragments := { body := some "", senderName := some "Bob" }

def bodied : EmailRequest := { bodiless with fragments := bodiless.fragments.insert .body "Hi" }

def dividedDisk : Disk where
  entries := [([], .folder 0), ([Utf8.encode "home"], .folder 0),
    ([Utf8.encode "r.json", Utf8.encode "home"],
      .file (Utf8.encode bodied.toDoc.print) 0o644 0)]
  here := [Utf8.encode "home"]
  now := 1
  distinct := by decide

/-- All texts are given by options, or the blank body alone. -/
theorem render_divided_bodiless :
    Divides (.saying bodiless (fun _ => true) none false) bodiless dividedDisk ∧
      Divides (.saying bodiless (· = .fragment .body) (some (Path.ofString "r.json")) false)
        bodiless dividedDisk ∧
      (run (some (Path.ofString "/home")) ["render", "--to", "ann@example.org", "--subject=Hello",
          "--sender", "Bob", "--body", ""]).run dividedDisk =
        (run (some (Path.ofString "/home")) ["render", "--body=", "--request",
          "r.json"]).run dividedDisk := by
  have hall := divides_options bodiless false dividedDisk
  have hpart : Divides (.saying bodiless (· = .fragment .body) (some (Path.ofString "r.json")) false)
      bodiless dividedDisk := by
    have htext : dividedDisk.readText (Path.ofString "r.json") = .ok bodied.toDoc.print := by
      have hread : dividedDisk.read (Path.ofString "r.json") =
          .ok (Utf8.encode bodied.toDoc.print) := rfl
      rw [Disk.readText, hread]
      simp
    refine divides_file htext ?_ ?_
    · intro f hf
      obtain rfl : f = .fragment .body := by simpa using hf
      rfl
    · intro f hf
      rcases f with f | p
      · cases f <;> rfl
      · cases p <;> first | rfl | exact absurd hf (by decide)
  refine ⟨hall, hpart, (render_divided hall hpart rfl).2.1 _ _ _ (by decide) (by decide)⟩

end MailMerge.CommandLine
