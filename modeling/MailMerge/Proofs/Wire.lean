import MailMerge.Proofs.Json.Reading
import MailMerge.Wire.Request
import MailMerge.Wire.Settings
import MailMerge.Wire.Template

/-! # Values sent and read back

Every value that goes over the wire is written so that reading it gives it back: requests,
fragments, templates, senders, errors, and settings whose folder has a path that is a text.
-/

namespace MailMerge

open Json

namespace Json

theorem Members.isTextual_ofList {members : List (String × Doc)}
    (h : ∀ m ∈ members, m.2.isTextual = true) : (Members.ofList members).isTextual = true := by
  induction members with
  | nil => rfl
  | cons m members ih =>
    have htail := ih fun m' hm' => h m' (List.mem_cons_of_mem _ hm')
    simp [Members.ofList, Members.isTextual, h m List.mem_cons_self, htail]

theorem Items.isTextual_ofList {items : List Doc} (h : ∀ d ∈ items, d.isTextual = true) :
    (Items.ofList items).isTextual = true := by
  induction items with
  | nil => rfl
  | cons d items ih =>
    have htail := ih fun d' hd' => h d' (List.mem_cons_of_mem _ hd')
    simp [Items.ofList, Items.isTextual, h d List.mem_cons_self, htail]

theorem Doc.isTextual_ofString (s : String) : (Doc.ofString s).isTextual = true := rfl

theorem Doc.isTextual_ofOption (s : Option String) : (Doc.ofOption s).isTextual = true := by
  cases s <;> rfl

theorem Members.intoRecord_cons {ρ : Type} {slots : List (Slot ρ)}
    {other : String → Doc → ρ → Decoded ρ} {seen : List String} {draft draft' : ρ} {key : String}
    {value : Doc} {tail : Members} {slot : Slot ρ} (hslot : Slot.find? slots key = some slot)
    (hfree : slot.name ∉ seen) (hread : slot.read value draft = .ok draft') :
    (Members.cons (some key) value tail).intoRecord slots other seen draft =
      tail.intoRecord slots other (slot.name :: seen) draft' := by
  have hseen : seen.contains slot.name = false := by simpa using hfree
  simp only [Members.intoRecord, hslot, hseen, hread]
  rfl

theorem Items.toList_ofList {α : Type} {write : α → Doc} {read : Doc → Decoded α} {as : List α}
    (h : ∀ a ∈ as, read (write a) = .ok a) :
    (Items.ofList (as.map write)).toList read = .ok as := by
  induction as with
  | nil => rfl
  | cons a as ih =>
    rw [List.map_cons, Items.ofList, Items.toList, h a List.mem_cons_self,
      ih fun a' ha' => h a' (List.mem_cons_of_mem _ ha')]
    rfl

end Json

namespace Fragments

variable {f : Fragments}

def membersOf (values : List (Placeholder × String)) : List (String × Doc) :=
  values.map fun e => (e.1.key, .ofString e.2)

theorem toList_pairwise (f : Fragments) : f.toList.Pairwise fun a b => a.1 ≠ b.1 := by
  rw [toList, List.pairwise_filterMap]
  have hall : Placeholder.all.Pairwise (· ≠ ·) := by decide
  refine hall.imp fun {p p'} hne a ha b hb => ?_
  obtain ⟨v, -, rfl⟩ := Option.map_eq_some_iff.mp ha
  obtain ⟨v', -, rfl⟩ := Option.map_eq_some_iff.mp hb
  exact hne

theorem foldl_insert_toList (f : Fragments) :
    f.toList.foldl (fun g e => g.insert e.1 e.2) {} = f := by
  obtain ⟨header, body, footer, correspondentName, senderName⟩ := f
  cases header <;> cases body <;> cases footer <;> cases correspondentName <;>
    cases senderName <;> rfl

theorem exists_slot (p : Placeholder) :
    ∃ slot, Slot.find? slots p.key = some slot ∧ slot.name = p.key ∧
      ∀ v g, slot.read (.ofString v) g = .ok (g.insert p v) := by
  cases p <;> exact ⟨_, rfl, rfl, fun _ _ => rfl⟩

theorem key_injective {p p' : Placeholder} (h : p.key = p'.key) : p = p' := by
  revert h
  cases p <;> cases p' <;> decide

theorem intoRecord_membersOf {values : List (Placeholder × String)}
    (hvalues : values.Pairwise fun a b => a.1 ≠ b.1) {seen : List String}
    (hseen : ∀ e ∈ values, e.1.key ∉ seen) (draft : Fragments) :
    (Members.ofList (membersOf values)).intoRecord slots skip seen draft =
      .ok (values.foldl (fun g e => g.insert e.1 e.2) draft) := by
  induction values generalizing seen draft with
  | nil => rfl
  | cons e values ih =>
    obtain ⟨hfirst, hrest⟩ := List.pairwise_cons.mp hvalues
    obtain ⟨slot, hslot, hname, hread⟩ := exists_slot e.1
    have hfree : slot.name ∉ seen := hname ▸ hseen e List.mem_cons_self
    have hnext : ∀ e' ∈ values, e'.1.key ∉ e.1.key :: seen := by
      intro e' he' hmem
      rcases List.mem_cons.mp hmem with hkey | hmem
      · exact hfirst e' he' (key_injective hkey.symm)
      · exact hseen e' (List.mem_cons_of_mem _ he') hmem
    rw [membersOf, List.map_cons, Members.ofList,
      Members.intoRecord_cons hslot hfree (hread e.2 draft), hname]
    exact ih hrest hnext _

theorem ofDoc_toDoc (f : Fragments) : ofDoc f.toDoc = .ok f := by
  have h := intoRecord_membersOf (toList_pairwise f) (fun _ _ => List.not_mem_nil) {}
  rw [foldl_insert_toList] at h
  exact h

theorem isTextual_members {m : String × Doc} (h : m ∈ f.toMembers) : m.2.isTextual = true := by
  obtain ⟨e, -, rfl⟩ := List.mem_map.mp h
  exact Doc.isTextual_ofString _

theorem isTextual_toDoc (f : Fragments) : f.toDoc.isTextual = true :=
  Members.isTextual_ofList fun _ => isTextual_members

end Fragments

namespace EmailRequest

theorem intoRecord_aside (values : List (Placeholder × String)) (seen : List String)
    (r : RequestDraft) :
    (Members.ofList (Fragments.membersOf values)).intoRecord RequestDraft.slots
        RequestDraft.setAside seen r =
      .ok { r with aside := (Fragments.membersOf values).reverse ++ r.aside } := by
  induction values generalizing r with
  | nil => rfl
  | cons e values ih =>
    have hother : Slot.find? RequestDraft.slots e.1.key = none := by
      cases e.1 <;> rfl
    rw [Fragments.membersOf, List.map_cons, Members.ofList, Members.intoRecord]
    simp only [hother]
    rw [List.reverse_cons, List.append_assoc]
    exact ih _

theorem ofDoc_toDoc (r : EmailRequest) : ofDoc r.toDoc = .ok r := by
  have haside := intoRecord_aside r.fragments.toList ["template_name", "title", "recipient"]
    { request := { r with fragments := {} } }
  rw [List.append_nil] at haside
  have hmembers : (Members.ofList ([("recipient", .ofOption r.recipient),
      ("title", .ofOption r.title), ("template_name", .ofOption r.templateName)] ++
        r.fragments.toMembers)).intoRecord RequestDraft.slots RequestDraft.setAside [] {} =
      .ok ⟨{ r with fragments := {} }, r.fragments.toMembers.reverse⟩ := by
    refine Eq.trans ?_ haside
    obtain ⟨recipient, title, templateName, fragments⟩ := r
    cases recipient <;> cases title <;> cases templateName <;> rfl
  show ((Members.ofList _).intoRecord RequestDraft.slots RequestDraft.setAside [] {} >>=
    RequestDraft.finish) = _
  rw [hmembers]
  show ((Members.ofList r.fragments.toMembers.reverse.reverse).intoRecord Fragments.slots skip [] {}
    >>= fun fragments => pure { r with fragments }) = _
  rw [List.reverse_reverse]
  exact congrArg (· >>= fun fragments => pure { r with fragments }) (Fragments.ofDoc_toDoc _)

theorem isTextual_toDoc (r : EmailRequest) : r.toDoc.isTextual = true := by
  refine Members.isTextual_ofList fun m hm => ?_
  rcases List.mem_append.mp hm with hown | hfragment
  · simp only [List.mem_cons, List.not_mem_nil, or_false] at hown
    rcases hown with rfl | rfl | rfl <;> exact Doc.isTextual_ofOption _
  · exact Fragments.isTextual_members hfragment

end EmailRequest

namespace Settings

variable {s : Settings}

theorem ofDoc_placeholder (p : Placeholder) : Placeholder.ofDoc p.toDoc = .ok p := by
  cases p <;> rfl

theorem ofDoc_updateLookup (l : UpdateLookup) : UpdateLookup.ofDoc l.toDoc = .ok l := by
  cases l <;> rfl

theorem intoRecord_others (s draft : Settings) {seen : List String}
    (hseen : seen = [] ∨ seen = ["templates_dir"]) :
    (Members.ofList [("template_extension", .ofString s.templateExtension),
        ("required_placeholders", .list (s.requiredPlaceholders.map Placeholder.toDoc)),
        ("update_lookup", s.updateLookup.toDoc), ("sender", s.sender.toDoc)]).intoRecord
      slots skip seen draft = .ok { s with templatesDir := draft.templatesDir } := by
  have hrequired : (Doc.list (s.requiredPlaceholders.map Placeholder.toDoc)).toList
      Placeholder.ofDoc = .ok s.requiredPlaceholders :=
    Items.toList_ofList fun p _ => ofDoc_placeholder p
  have hrequired' (draft : Settings) : (do return { draft with
      requiredPlaceholders := ← (Doc.list (s.requiredPlaceholders.map Placeholder.toDoc)).toList
        Placeholder.ofDoc }) =
      (.ok { draft with requiredPlaceholders := s.requiredPlaceholders } : Decoded Settings) := by
    rw [hrequired]
    rfl
  have hlookup (draft : Settings) : (do return { draft with
      updateLookup := ← UpdateLookup.ofDoc s.updateLookup.toDoc }) =
      (.ok { draft with updateLookup := s.updateLookup } : Decoded Settings) := by
    rw [ofDoc_updateLookup]
    rfl
  rcases hseen with rfl | rfl <;>
    rw [Members.ofList, Members.intoRecord_cons rfl (by decide) rfl,
      Members.ofList, Members.intoRecord_cons rfl (by decide) (hrequired' _),
      Members.ofList, Members.intoRecord_cons rfl (by decide) (hlookup _),
      Members.ofList, Members.intoRecord_cons rfl (by decide) rfl] <;> rfl

theorem ofDoc_toDoc (h : ∀ p, s.templatesDir = some p → p.text?.isSome = true) :
    ofDoc s.toDoc = .ok s := by
  obtain ⟨dir, extension, required, lookup, sender⟩ := s
  cases dir with
  | none => exact intoRecord_others _ {} (.inl rfl)
  | some p =>
    obtain ⟨t, ht⟩ := Option.isSome_iff_exists.mp (h p rfl)
    obtain rfl := Path.ofString_of_text? ht
    show (Members.cons (some "templates_dir") (.text (Path.ofString t).text?)
      (Members.ofList _)).intoRecord slots skip [] {} = _
    rw [ht, Members.intoRecord_cons rfl (by decide) rfl]
    exact intoRecord_others ⟨some (Path.ofString t), extension, required, lookup, sender⟩ _
      (.inr rfl)

theorem isTextual_toDoc (h : ∀ p, s.templatesDir = some p → p.text?.isSome = true) :
    s.toDoc.isTextual = true := by
  refine Members.isTextual_ofList fun m hm => ?_
  rcases List.mem_append.mp hm with hdir | hm
  · obtain ⟨p, hp, rfl⟩ := Option.map_eq_some_iff.mp (Option.mem_toList.mp hdir)
    obtain ⟨t, ht⟩ := Option.isSome_iff_exists.mp (h p hp)
    rw [ht]
    rfl
  · simp only [List.mem_cons, List.not_mem_nil, or_false] at hm
    rcases hm with rfl | rfl | rfl | rfl
    · rfl
    · refine Items.isTextual_ofList fun d hd => ?_
      obtain ⟨p, -, rfl⟩ := List.mem_map.mp hd
      rfl
    · rfl
    · rfl

end Settings

/-- Requests, fragments, templates, senders, errors and settings are read back as they were
written. The path of a folder that is set has to be a text. -/
theorem decode_print_wire :
    (∀ r : EmailRequest, decode EmailRequest.ofDoc r.toDoc.print = .ok r) ∧
      (∀ f : Fragments, decode Fragments.ofDoc f.toDoc.print = .ok f) ∧
      (∀ t : Template, decode Template.ofDoc t.toDoc.print = .ok t) ∧
      (∀ s : Sender, decode Sender.ofDoc s.toDoc.print = .ok s) ∧
      (∀ b : ErrorBody, decode ErrorBody.ofDoc b.toDoc.print = .ok b) ∧
      (∀ s : Settings, (∀ p, s.templatesDir = some p → p.text?.isSome = true) →
        decode Settings.ofDoc s.toDoc.print = .ok s) :=
  ⟨fun r => decode_print r.isTextual_toDoc r.ofDoc_toDoc,
    fun f => decode_print f.isTextual_toDoc f.ofDoc_toDoc,
    fun _ => decode_print rfl rfl, fun _ => decode_print rfl rfl, fun _ => decode_print rfl rfl,
    fun _ h => decode_print (Settings.isTextual_toDoc h) (Settings.ofDoc_toDoc h)⟩

def Settings.awkward : Settings where
  templatesDir := some (Path.ofString "a\\b/\"c\"\n")
  templateExtension := "\x00\t\u2028\\u0041"
  requiredPlaceholders := [.body, .senderName, .body]
  updateLookup := .routeName
  sender := { name := "", email := "null" }

theorem decode_print_awkward :
    (∀ p, Settings.awkward.templatesDir = some p → p.text?.isSome = true) ∧
      decode Settings.ofDoc Settings.awkward.toDoc.print = .ok Settings.awkward := by
  have h : ∀ p, Settings.awkward.templatesDir = some p → p.text?.isSome = true := by
    intro p hp
    cases hp
    decide
  exact ⟨h, decode_print_wire.2.2.2.2.2 Settings.awkward h⟩

end MailMerge
