import MailMerge.Proofs.Disk.Keeping
import MailMerge.Proofs.Store.Agreement
import MailMerge.Proofs.Store.Protection

/-! # Seeding the protected template

A store that is alone with its folder looks for the protected template and stores it if it is
missing. No file is lost that way, but a draft that was left behind may be written over. When this
has succeeded the template can be looked up, and seeding it again changes nothing.
-/

namespace MailMerge

open Disk Utf8 StoreM

namespace DirectoryStore

variable {dir : Path} {extension name : String} {q : Place} {s s' : DirectoryStore} {d d' : Disk}
  {t : Template}

def seedDraft (extension : String) (q : Place) : Place :=
  encode (draftName extension defaultName) :: q

theorem bytesAt_eq_none_of_shown (hname : IsDocumentName name)
    (hshown : s.shown d q name = .error (.notFound name)) :
    d.bytesAt (encode (fileName s.extension name) :: q) = none := by
  cases hb : d.bytesAt (encode (fileName s.extension name) :: q) with
  | none => rfl
  | some b =>
    unfold shown at hshown
    by_cases hlen : pathLimit ≤ (s.pathFor name).bytes.length
    · simp [document?_eq_tooLong hb hname hlen] at hshown
    · rw [document?_eq_text hb hname (Nat.not_le.mp hlen)] at hshown
      cases hdecode : decode? b <;> simp [hdecode] at hshown

theorem shown_cases (s : DirectoryStore) (d : Disk) (q : Place) (name : String) :
    (∃ t, s.shown d q name = .ok t) ∨ s.shown d q name = .error (.notFound name) ∨
      ∃ fault, s.shown d q name = .error (.storage (s.pathFor name) fault) := by
  unfold shown
  rcases s.document? d q name with _ | fault | html
  · exact .inr (.inl rfl)
  · exact .inr (.inr ⟨fault, rfl⟩)
  · exact .inl ⟨_, rfl⟩

theorem Published.shown (h : Published dir extension q t d d') (hdir : s.dir = dir)
    (hext : s.extension = extension) : s.shown d' q t.name = .ok t := by
  have hb := h.bytes
  rw [← hext] at hb
  refine (shown_eq_ok_iff_of_bytesAt h.valid.isDocumentName hb).mpr ⟨rfl, rfl, ?_⟩
  rw [pathFor_eq, hdir, hext]
  exact h.room.length_lt

theorem seedDefault_of_list_error {fault : Fault} (hlist : d.list s.dir = .error fault) :
    TemplateStore.seedDefault.exec s d = (.error (.storage s.dir fault), s, d) := by
  rw [TemplateStore.seedDefault, StoreM.exec_bind, TemplateStore.exec_contains,
    exec_get_error hlist]
  rfl

section

variable (hdot : '.' ∉ extension.toList) (h : Settled dir extension q s d)

include hdot h

theorem Settled.seedDefault_of_shown (ht : s.shown d q defaultName = .ok t) :
    TemplateStore.seedDefault.exec s d = (.ok none, s.refreshed d q, d) := by
  rw [TemplateStore.seedDefault, StoreM.exec_bind, h.exec_contains hdot, ht]
  rfl

theorem Settled.seedDefault_of_missing
    (ht : s.shown d q defaultName = .error (.notFound defaultName)) :
    TemplateStore.seedDefault.exec s d =
      (TemplateStore.create Template.seed >>= fun t => pure (some t)).exec (s.refreshed d q) d := by
  rw [TemplateStore.seedDefault, StoreM.exec_bind, h.exec_contains hdot, ht]
  rfl

theorem Settled.seedDefault_of_unreadable {path : Path} {fault : Fault}
    (ht : s.shown d q defaultName = .error (.storage path fault)) :
    TemplateStore.seedDefault.exec s d = (.error (.storage path fault), s.refreshed d q, d) := by
  rw [TemplateStore.seedDefault, StoreM.exec_bind, h.exec_contains hdot, ht]
  rfl

variable (hslash : '/' ∉ extension.toList)

include hslash

/-- How creating a template may end: with a draft at most, or with a document that is shown. -/
theorem Settled.create_cases {r : Except TemplateError Template}
    (hcreate : (TemplateStore.create t).exec s d = (r, s', d')) :
    (∃ e, r = .error e) ∧ Drafted extension q t d d' ∨
      r = .ok t ∧ Published dir extension q t d d' ∧ Settled dir extension q s' d' := by
  rcases hwrite : (writeDocument t).exec s d with ⟨r₁, s₁, d₁⟩
  have hcreate : followUp (fun _ => do reload; pure t) ((writeDocument t).exec s d) = (r, s', d') :=
    (StoreM.exec_bind _ _ _ _).symm.trans hcreate
  rw [hwrite] at hcreate
  obtain ⟨rfl, ⟨⟨e, rfl⟩, hdrafted⟩ | ⟨rfl, hpub⟩⟩ :=
    stage_of_writeDocument h.works hslash hwrite
  · obtain ⟨rfl, rfl, rfl⟩ : .error e = r ∧ s₁ = s' ∧ d₁ = d' := by simpa using hcreate
    exact .inl ⟨⟨e, rfl⟩, hdrafted⟩
  · have hworks := h.works.of_changesOnly hpub.changes
    rw [followUp_ok, StoreM.exec_bind, hworks.exec_reload] at hcreate
    obtain ⟨rfl, rfl, rfl⟩ : .ok t = r ∧ s₁.reread d₁ q = s' ∧ d₁ = d' := by simpa using hcreate
    exact .inr ⟨rfl, hpub, settled_reread hdot hworks⟩

/-- However seeding ends, every file but the draft is kept. Where it succeeds the protected template
is shown. -/
theorem Settled.seedDefault_cases {r : Except TemplateError (Option Template)}
    (hseed : TemplateStore.seedDefault.exec s d = (r, s', d')) :
    Keeps (· = seedDraft extension q) d d' ∧ ((∃ e, r = .error e) ∨ (∃ u, r = .ok u) ∧
      Settled dir extension q s' d' ∧ ∃ t, s'.shown d' q defaultName = .ok t) := by
  rcases shown_cases s d q defaultName with ⟨t, ht⟩ | ht | ⟨fault, ht⟩
  · rw [h.seedDefault_of_shown hdot ht] at hseed
    obtain ⟨rfl, rfl, rfl⟩ : .ok none = r ∧ s.refreshed d q = s' ∧ d = d' := by simpa using hseed
    refine ⟨.refl _ d, .inr ⟨⟨none, rfl⟩, settled_refreshed hdot h, t, ?_⟩⟩
    rw [shown_of_same dir_refreshed extension_refreshed, ht]
  · have hnone : d.bytesAt (encode (fileName extension defaultName) :: q) = none :=
      h.works.extension_eq ▸ bytesAt_eq_none_of_shown ⟨by decide, by decide⟩ ht
    have hkeeps {A : Bytes → Prop} (hc : ChangesOnly q A d d')
        (hA : ∀ n, A n → storing extension Template.seed n) :
        Keeps (· = seedDraft extension q) d d' := by
      refine .of_changesOnly h.works.folder.folder hc fun n b hn hb => ?_
      rcases hA n hn with rfl | rfl
      · rfl
      · exact absurd (hnone.symm.trans hb) nofun
    rw [h.seedDefault_of_missing hdot ht, StoreM.exec_bind] at hseed
    rcases hcreate : (TemplateStore.create Template.seed).exec (s.refreshed d q) d with ⟨r₁, s₁, d₁⟩
    rw [hcreate] at hseed
    rcases (settled_refreshed hdot h).create_cases hdot hslash hcreate with
      ⟨⟨e, rfl⟩, hdrafted⟩ | ⟨rfl, hpub, hsettled⟩
    · obtain ⟨rfl, rfl, rfl⟩ : .error e = r ∧ s₁ = s' ∧ d₁ = d' := by simpa using hseed
      exact ⟨hkeeps hdrafted fun _ => .inl, .inl ⟨e, rfl⟩⟩
    · obtain ⟨rfl, rfl, rfl⟩ : .ok (some Template.seed) = r ∧ s₁ = s' ∧ d₁ = d' := by
        simpa using hseed
      exact ⟨hkeeps hpub.changes fun _ hn => hn, .inr ⟨⟨_, rfl⟩, hsettled, Template.seed,
        hpub.shown hsettled.works.dir_eq hsettled.works.extension_eq⟩⟩
  · rw [h.seedDefault_of_unreadable hdot ht] at hseed
    obtain ⟨rfl, rfl, rfl⟩ : .error (.storage (s.pathFor defaultName) fault) = r ∧
        s.refreshed d q = s' ∧ d = d' := by simpa using hseed
    exact ⟨.refl _ d, .inl ⟨_, rfl⟩⟩

end

end DirectoryStore

end MailMerge
