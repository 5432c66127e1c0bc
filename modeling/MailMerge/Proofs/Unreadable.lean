import MailMerge.Proofs.Durability
import MailMerge.Proofs.Store.Agreement

/-! # Documents that cannot be read

A document whose bytes are no text is left alone by every call to the catalog. A call that would
have to deal with it fails and says where it lies; all other calls go on as if it did not exist.
-/

namespace MailMerge

open Disk DirectoryStore Utf8 StoreM

/-- Why a call is refused before the store is asked for anything. -/
def Call.admitted (lookup : UpdateLookup) : Call → Except TemplateError Unit
  | list => .ok ()
  | names => .ok ()
  | get _ => .ok ()
  | create t => checkName t.name
  | update name t => do
    Catalog.protect name .updated
    checkName t.name
    Catalog.protect (Catalog.target lookup name t) .updated
  | delete name => Catalog.protect name .deleted

/-- A call that has to deal with what is under a name: it reads it, replaces it, removes it or needs
the name to be free. `there` tells for which names there is a template. -/
def Call.RunsInto (lookup : UpdateLookup) (u : String) (there : String → Prop) : Call → Prop
  | list => False
  | names => False
  | get name => name = u
  | create t => t.name = u
  | update name t => Catalog.target lookup name t = u ∨
    lookup = .routeName ∧ t.name = u ∧ there name
  | delete name => name = u

/-- A call that reads, replaces or removes what is under a name, or gives the name to a template. -/
def Call.Concerns (lookup : UpdateLookup) (u : String) : Call → Prop
  | list => False
  | names => False
  | get name => name = u
  | create t => t.name = u
  | update name t => Catalog.target lookup name t = u ∨ t.name = u
  | delete name => name = u

instance (lookup : UpdateLookup) (u : String) (c : Call) : Decidable (c.Concerns lookup u) := by
  cases c <;> unfold Call.Concerns <;> infer_instance

section Refusals

variable {lookup : UpdateLookup} {e : TemplateError} {t : Template} {name : String}

theorem unauthorized_of_protect {action : Action} (h : Catalog.protect name action = .error e) :
    e = .unauthorized name action := by
  unfold Catalog.protect at h
  split at h
  · exact (Except.error.inj h).symm
  · simp at h

theorem invalidName_of_checkName (h : checkName name = .error e) :
    ∃ reason, e = .invalidName name reason := by
  unfold checkName at h
  split at h
  · simp at h
  · exact ⟨_, (Except.error.inj h).symm⟩

theorem checks_of_admitted (h : (Call.update name t).admitted lookup = .ok ()) :
    Catalog.protect name .updated = .ok () ∧ checkName t.name = .ok () ∧
      Catalog.protect (Catalog.target lookup name t) .updated = .ok () := by
  obtain ⟨_, hroute, h⟩ := exists_of_bind_eq_ok h
  obtain ⟨_, hname, hold⟩ := exists_of_bind_eq_ok h
  exact ⟨hroute, hname, hold⟩

theorem check_of_refused (h : (Call.update name t).admitted lookup = .error e) :
    Catalog.protect name .updated = .error e ∨
      Catalog.protect name .updated = .ok () ∧ (checkName t.name = .error e ∨
        checkName t.name = .ok () ∧
          Catalog.protect (Catalog.target lookup name t) .updated = .error e) := by
  rcases cases_of_bind_eq_error h with hroute | ⟨_, hroute, h⟩
  · exact .inl hroute
  rcases cases_of_bind_eq_error h with hname | ⟨_, hname, hold⟩
  · exact .inr ⟨hroute, .inl hname⟩
  · exact .inr ⟨hroute, .inr ⟨hname, hold⟩⟩

theorem refusal_of_admitted {c : Call} (h : c.admitted lookup = .error e) :
    (∃ name action, e = .unauthorized name action) ∨
      ∃ name reason, e = .invalidName name reason := by
  cases c with
  | list | names | get => simp [Call.admitted] at h
  | create t => exact .inr ⟨_, invalidName_of_checkName h⟩
  | update name t =>
    rcases check_of_refused h with h | ⟨-, h | ⟨-, h⟩⟩
    · exact .inl ⟨_, _, unauthorized_of_protect h⟩
    · exact .inr ⟨_, invalidName_of_checkName h⟩
    · exact .inl ⟨_, _, unauthorized_of_protect h⟩
  | delete name => exact .inl ⟨_, _, unauthorized_of_protect h⟩

theorem answer_of_refused {σ : Type} [TemplateStore σ] {s : σ} {d : Disk} {c : Call}
    (h : c.admitted lookup = .error e) : ((c.answer lookup).exec s d).1 = .error e := by
  cases c with
  | list | names | get => simp [Call.admitted] at h
  | create t =>
    have h : checkName t.name = .error e := h
    simp only [Call.answer, Catalog.create, exec_bind, exec_ofExcept, h, followUp_error]
  | update name t =>
    simp only [Call.answer, Catalog.update, exec_bind, exec_ofExcept]
    rcases check_of_refused h with hroute | ⟨hroute, hname | ⟨hname, hold⟩⟩
    · simp only [hroute, followUp_error]
    · simp only [hroute, followUp_ok, exec_bind, exec_ofExcept, hname, followUp_error]
    · simp only [hroute, followUp_ok, exec_bind, exec_ofExcept, hname, hold, followUp_error]
  | delete name =>
    have h : Catalog.protect name .deleted = .error e := h
    simp only [Call.answer, Catalog.delete, exec_bind, exec_ofExcept, h, followUp_error]

end Refusals

namespace DirectoryStore

variable {dir : Path} {extension name u : String} {q : Place} {s s' : DirectoryStore}
  {d d₀ d' : Disk} {t : Template} {lookup : UpdateLookup} {c : Call}

section Stages

variable (hdot : '.' ∉ extension.toList)

include hdot

theorem ne_of_told {present : Bool} (hu : Unreadable extension q u d)
    (h : TemplateStore.Told (Settled dir extension q) d name present) : name ≠ u := by
  rintro rfl
  obtain ⟨s, s', hs, hcontains⟩ := h
  obtain ⟨fault, hfault⟩ := hs.exec_contains_unreadable hdot hu
  simp [hfault] at hcontains

/-- A call that concerns the document changes nothing. -/
theorem eq_of_stage_of_concerns (hu : Unreadable extension q u d) (hc : c.Concerns lookup u)
    (h : Stage dir extension q (Settled dir extension q) lookup d c d') : d' = d := by
  cases h with
  | untouched => rfl
  | drafted hfree | created hfree => exact absurd hc (ne_of_told hdot hu hfree)
  | @redrafted name t _ hthere hfree | @updated name t _ hthere hfree =>
    have hold := ne_of_told hdot hu hthere
    have hnew : t.name = u := hc.resolve_left hold
    have hne : t.name ≠ Catalog.target lookup name t := fun heq => hold (heq.symm.trans hnew)
    exact absurd hnew (ne_of_told hdot hu (hfree hne))
  | renamed hthere _ hfree =>
    exact absurd hc (not_or.mpr ⟨ne_of_told hdot hu hthere, ne_of_told hdot hu hfree⟩)
  | deleted hthere => exact absurd hc (ne_of_told hdot hu hthere)

variable (htmp : extension ≠ "tmp")

include htmp

/-- Any other call leaves the document as it is. -/
theorem get?_of_stage {I : DirectoryStore → Disk → Prop} (hc : ¬ c.Concerns lookup u)
    (h : Stage dir extension q I lookup d c d') :
    d'.get? (placeOf extension q u) = d.get? (placeOf extension q u) := by
  have hdraft : ∀ n, encode (fileName extension u) ≠ encode (draftName extension n) :=
    fun n => (encode_draftName_ne hdot htmp).symm
  cases h with
  | untouched => rfl
  | drafted _ hd | redrafted _ _ hd => exact ChangesOnly.child hd (hdraft _)
  | created _ hp => exact hp.changes.child (not_storing hdot htmp hc)
  | updated _ _ hp => exact hp.changes.child (not_storing hdot htmp (not_or.mp hc).2)
  | renamed _ _ _ hp hr =>
    obtain ⟨hold, hnew⟩ := not_or.mp hc
    have hkept := hr.changes.child fun heq => hold (encode_fileName_injective heq).symm
    exact hkept.trans (hp.changes.child (not_storing hdot htmp hnew))
  | deleted _ hr => exact hr.changes.child fun heq => hc (encode_fileName_injective heq).symm

end Stages

/-- A call that runs into the document fails and says where it lies. -/
theorem answer_of_runsInto (hdot : '.' ∉ extension.toList) (h : Settled dir extension q s d)
    (hu : Unreadable extension q u d) (hadmitted : c.admitted lookup = .ok ())
    (hinto : c.RunsInto lookup u fun n => ∃ t, ((Catalog.get n).exec s d).1 = .ok t) :
    ∃ fault, ((c.answer lookup).exec s d).1 = .error (.storage (s.pathFor u) fault) := by
  obtain ⟨fault, hcontains⟩ := h.exec_contains_unreadable hdot hu
  cases c with
  | list | names => exact absurd hinto id
  | get name =>
    obtain rfl : name = u := hinto
    obtain ⟨fault, hshown⟩ := shown_of_unreadable hu h.works.extension_eq
    refine ⟨fault, ?_⟩
    simp only [Call.answer, Catalog.get, exec_bind, h.exec_get hdot, hshown, followUp_error]
  | create t =>
    obtain rfl : t.name = u := hinto
    have hadmitted : checkName t.name = .ok () := hadmitted
    refine ⟨fault, ?_⟩
    simp only [Call.answer, Catalog.create, exec_bind, exec_ofExcept, hadmitted, followUp_ok,
      hcontains, followUp_error]
  | delete name =>
    obtain rfl : name = u := hinto
    have hadmitted : Catalog.protect name .deleted = .ok () := hadmitted
    refine ⟨fault, ?_⟩
    simp only [Call.answer, Catalog.delete, exec_bind, exec_ofExcept, hadmitted, followUp_ok,
      hcontains, followUp_error]
  | update name t =>
    obtain ⟨hroute, hname, hold⟩ := checks_of_admitted hadmitted
    by_cases htarget : Catalog.target lookup name t = u
    · rw [htarget] at hold
      refine ⟨fault, ?_⟩
      simp only [Call.answer, Catalog.update, exec_bind, exec_ofExcept, hroute, hname, htarget,
        hold, followUp_ok, hcontains, followUp_error]
    · obtain ⟨rfl, rfl, v, hv⟩ := hinto.resolve_left htarget
      have hne : t.name ≠ name := fun heq => htarget heq.symm
      have hshown : s.shown d q name = .ok v := by
        rw [Catalog.get, h.exec_get hdot] at hv
        exact hv
      have hthere : (TemplateStore.contains name).exec s d = (.ok true, s.refreshed d q, d) := by
        rw [h.exec_contains hdot, hshown]
        rfl
      have hpath : (s.refreshed d q).pathFor t.name = s.pathFor t.name := by
        simp only [pathFor, dir_refreshed, extension_refreshed]
      obtain ⟨fault, hcontains⟩ := (settled_refreshed hdot h).exec_contains_unreadable hdot hu
      refine ⟨fault, ?_⟩
      simp only [Call.answer, Catalog.update, exec_bind, exec_ofExcept, hroute, hname, followUp_ok,
        Catalog.target, hthere, Bool.not_true, Bool.false_eq_true, if_false, ne_eq, hne,
        not_false_eq_true, and_self, if_true, hcontains, hpath, followUp_error]

section TwoRuns

variable (hdot : '.' ∉ extension.toList) (htmp : extension ≠ "tmp")
  (hslash : '/' ∉ extension.toList)

include hdot htmp hslash

/-- A call that does not concern the document is answered as if the document did not exist. -/
theorem Twins.agrees_call (h : Twins dir extension q u s s' d d') (hc : ¬ c.Concerns lookup u) :
    Agrees (placeOf extension q u) (c.answer lookup) s s' d d' := by
  cases c with
  | list => exact (h.agrees_list hdot).map _
  | names => exact ((h.agrees_list hdot).map _).map _
  | get name => exact (h.agrees_getTemplate hdot hc).map _
  | create t =>
    apply Agrees.map
    apply agrees_check h.disk
    intro _ _
    apply h.agrees_contains hdot hc
    intro present s₁ s₁' h₁
    apply agrees_unless h₁.disk
    intro _
    exact h₁.agrees_create hdot htmp hslash hc
  | update name t =>
    obtain ⟨hold, hnew⟩ := not_or.mp hc
    apply Agrees.map
    apply agrees_check h.disk
    intro _ _
    apply agrees_check h.disk
    intro _ _
    apply agrees_check h.disk
    intro _ _
    apply h.agrees_contains hdot hold
    intro present s₁ s₁' h₁
    apply agrees_unless h₁.disk
    intro _
    show Agrees _ (if lookup = .routeName ∧ t.name ≠ Catalog.target lookup name t then _ else _)
      _ _ _ _
    split
    · apply h₁.agrees_contains hdot hnew
      intro present s₂ s₂' h₂
      apply agrees_unless h₂.disk
      intro _
      exact h₂.agrees_update hdot htmp hslash hold hnew
    · exact h₁.agrees_update hdot htmp hslash hold hnew
  | delete name =>
    apply Agrees.map
    apply agrees_check h.disk
    intro _ _
    apply h.agrees_contains hdot hc
    intro present s₁ s₁' h₁
    apply agrees_unless h₁.disk
    intro _
    exact h₁.agrees_delete hdot hc

end TwoRuns

theorem Unreadable.of_get? (h : Unreadable extension q u d)
    (hget : d'.get? (placeOf extension q u) = d.get? (placeOf extension q u)) :
    Unreadable extension q u d' := by
  obtain ⟨b, hb, hdecode⟩ := h.bytes
  exact ⟨h.name, b, (bytesAt_congr hget).trans hb, hdecode⟩

def carriedOut : List (UpdateLookup × Call) → DirectoryStore → Disk → DirectoryStore × Disk
  | [], s, d => (s, d)
  | (lookup, c) :: calls, s, d =>
    let out := (c.answer lookup).exec s d
    carriedOut calls out.2.1 out.2.2

/-- How a store stands to a document in its folder that it cannot read. -/
structure Spares (dir : Path) (extension : String) (q : Place) (u : String) (s : DirectoryStore)
    (d : Disk) : Prop where
  /-- However a call ends and wherever it breaks off, the document is as it was. -/
  document : ∀ (lookup : UpdateLookup) (c : Call) (d' : Disk), (c.answer lookup).BreaksOff s d d' →
    d'.get? (placeOf extension q u) = d.get? (placeOf extension q u)
  refused : ∀ (lookup : UpdateLookup) (c : Call) (e : TemplateError),
    c.admitted lookup = .error e → ((c.answer lookup).exec s d).1 = .error e ∧
      ((∃ name action, e = .unauthorized name action) ∨ ∃ name reason, e = .invalidName name reason)
  /-- A call that has to deal with the document fails and says where it lies. -/
  fails : ∀ (lookup : UpdateLookup) (c : Call), c.admitted lookup = .ok () →
    c.RunsInto lookup u (fun name => ∃ t, ((Catalog.get name).exec s d).1 = .ok t) →
    ∃ fault, ((c.answer lookup).exec s d).1 = .error (.storage (s.pathFor u) fault)
  list : ∃ ts, (Catalog.list.exec s d).1 = .ok ts ∧ ∀ t ∈ ts, t.name ≠ u
  /-- Any other call is answered as by a store that is opened on the folder without the document. -/
  others : ∀ (lookup : UpdateLookup) (c : Call), ¬ c.Concerns lookup u →
    ((c.answer lookup).exec s d).1 =
      afresh dir extension (c.answer lookup) (d.drop (placeOf extension q u))

section Run

variable (hdot : '.' ∉ extension.toList) (htmp : extension ≠ "tmp")
  (hslash : '/' ∉ extension.toList)

theorem twins_of_fresh (h : Settled dir extension q s d) (hu : Unreadable extension q u d) :
    Twins dir extension q u s ⟨dir, extension, {}⟩ d (d.drop (placeOf extension q u)) := by
  obtain ⟨b, hb, -⟩ := hu.bytes
  obtain ⟨mode, stamp, hx⟩ := bytesAt_eq_some_iff.mp hb
  have hdrop := without_drop (placeOf extension q u) d
  exact ⟨h, settled_of_fresh (hdrop.plainFolder h.works.folder hx), hu, hdrop⟩

include hdot htmp hslash

theorem get?_of_breaksOff (h : Settled dir extension q s d) (hu : Unreadable extension q u d)
    (hb : (c.answer lookup).BreaksOff s d d') :
    d'.get? (placeOf extension q u) = d.get? (placeOf extension q u) := by
  have hstage := (stage_of_call (invariant_settled hdot htmp) hslash h lookup c).anywhere d' hb
  by_cases hc : c.Concerns lookup u
  · rw [eq_of_stage_of_concerns hdot hu hc hstage]
  · exact get?_of_stage hdot htmp hc hstage

theorem spares_of_settled (h : Settled dir extension q s d) (hu : Unreadable extension q u d) :
    Spares dir extension q u s d where
  document _ _ _ hb := get?_of_breaksOff hdot htmp hslash h hu hb
  refused _ _ _ hrefused := ⟨answer_of_refused hrefused, refusal_of_admitted hrefused⟩
  fails _ _ hadmitted hinto := answer_of_runsInto hdot h hu hadmitted hinto
  list := by
    have hat := h.works.folderAt hdot
    obtain ⟨-, hmem⟩ := values_of_shows (shows_refreshed hat h.current)
    refine ⟨_, congrArg Prod.fst (h.exec_list hdot), fun t ht => ?_⟩
    rintro rfl
    obtain ⟨fault, hfault⟩ := shown_of_unreadable hu h.works.extension_eq
    have hshown := (hmem t).mp ht
    simp [hfault] at hshown
  others lookup c hc := by
    have htwins := twins_of_fresh h hu
    have hfolder := htwins.right.works.folder
    rw [afresh, run_openAt_of_folder extension hfolder.leads hfolder.folder]
    exact (htwins.agrees_call hdot htmp hslash hc).answer

theorem Twins.call_left (h : Twins dir extension q u s s' d d') (hc : c.Concerns lookup u) :
    Twins dir extension q u ((c.answer lookup).exec s d).2.1 s'
      ((c.answer lookup).exec s d).2.2 d' := by
  have hstage := stage_of_call (invariant_settled hdot htmp) hslash h.left lookup c
  have hsame := eq_of_stage_of_concerns hdot h.document hc
    (hstage.anywhere _ (breaksOff_end _ s d))
  refine ⟨hstage.after, h.right, ?_, ?_⟩
  · rw [hsame]
    exact h.document
  · rw [hsame]
    exact h.disk

theorem Twins.call_both (h : Twins dir extension q u s s' d d') (hc : ¬ c.Concerns lookup u) :
    Twins dir extension q u ((c.answer lookup).exec s d).2.1 ((c.answer lookup).exec s' d').2.1
      ((c.answer lookup).exec s d).2.2 ((c.answer lookup).exec s' d').2.2 where
  left := (stage_of_call (invariant_settled hdot htmp) hslash h.left lookup c).after
  right := (stage_of_call (invariant_settled hdot htmp) hslash h.right lookup c).after
  document := h.document.of_get?
    (get?_of_breaksOff hdot htmp hslash h.left h.document (breaksOff_end _ s d))
  disk := (h.agrees_call hdot htmp hslash hc).disk

theorem Twins.carriedOut (h : Twins dir extension q u s s' d d')
    (calls : List (UpdateLookup × Call)) :
    let w := DirectoryStore.carriedOut calls s d
    let w' := DirectoryStore.carriedOut (calls.filter fun c => ¬ c.2.Concerns c.1 u) s' d'
    w.2.get? (placeOf extension q u) = d.get? (placeOf extension q u) ∧
      Twins dir extension q u w.1 w'.1 w.2 w'.2 := by
  induction calls generalizing s s' d d' with
  | nil => exact ⟨rfl, h⟩
  | cons call calls ih =>
    obtain ⟨lookup, c⟩ := call
    have hkept := get?_of_breaksOff hdot htmp hslash h.left h.document
      (breaksOff_end (c.answer lookup) s d)
    by_cases hc : c.Concerns lookup u
    · obtain ⟨hget, htwins⟩ := ih (h.call_left hdot htmp hslash hc)
      rw [List.filter_cons_of_neg (by simpa using hc)]
      exact ⟨hget.trans hkept, htwins⟩
    · obtain ⟨hget, htwins⟩ := ih (h.call_both hdot htmp hslash hc)
      rw [List.filter_cons_of_pos (by simpa using hc)]
      exact ⟨hget.trans hkept, htwins⟩

end Run

/-- A store is opened on a folder with a document that it cannot read, and answers some calls. The
document is then as it was, and all goes on as in a run in which the document does not exist and the
calls that concern it are left out. -/
theorem spares_after_calls (hdot : '.' ∉ extension.toList) (hslash : '/' ∉ extension.toList)
    (htmp : extension ≠ "tmp") (hopen : (openAt dir extension).run d₀ = (.ok s, d))
    (hfolder : PlainFolder dir d q) (hu : Unreadable extension q u d)
    (calls : List (UpdateLookup × Call)) :
    let w := carriedOut calls s d
    let w' := carriedOut (calls.filter fun c => ¬ c.2.Concerns c.1 u) s
      (d.drop (placeOf extension q u))
    w.2.get? (placeOf extension q u) = d.get? (placeOf extension q u) ∧
      Spares dir extension q u w.1 w.2 ∧ Without (placeOf extension q u) w.2 w'.2 ∧
      ∀ (lookup : UpdateLookup) (c : Call), ¬ c.Concerns lookup u →
        ((c.answer lookup).exec w.1 w.2).1 = ((c.answer lookup).exec w'.1 w'.2).1 := by
  obtain rfl := eq_of_openAt hopen
  have htwins := twins_of_fresh (settled_of_fresh hfolder) hu
  obtain ⟨hget, hafter⟩ := htwins.carriedOut hdot htmp hslash calls
  refine ⟨hget, spares_of_settled hdot htmp hslash hafter.left hafter.document, hafter.disk, ?_⟩
  intro lookup c hc
  exact (hafter.agrees_call hdot htmp hslash hc).answer

theorem unreadable_sample : Unreadable "html" [] "u" sampleDisk :=
  ⟨⟨by decide, by decide⟩, [0xFF], rfl, rfl⟩

/-- Neither under its own name nor by way of another can the document be replaced. -/
theorem spares_sample :
    let w := carriedOut [(.incomingName, .create ⟨"u", "U"⟩), (.routeName, .update "a" ⟨"u", "U"⟩),
      (.routeName, .update "a" ⟨"b", "B"⟩), (.incomingName, .delete "u")] (rootStore 1) sampleDisk
    w.2.get? [encode "u.html"] = some (.file [0xFF] 0o644 0) ∧
      (Catalog.list.exec w.1 w.2).1 = .ok [⟨"b", "B"⟩] ∧
      Spares (rootStore 1).dir "html" [] "u" w.1 w.2 := by
  obtain ⟨hget, hspares, -⟩ := spares_after_calls (by decide) (by decide) (by decide)
    (run_openAt_of_folder "html" plainFolder_sample.leads plainFolder_sample.folder)
    plainFolder_sample unreadable_sample [(.incomingName, .create ⟨"u", "U"⟩),
      (.routeName, .update "a" ⟨"u", "U"⟩), (.routeName, .update "a" ⟨"b", "B"⟩),
      (.incomingName, .delete "u")]
  exact ⟨hget, rfl, hspares⟩

end DirectoryStore

end MailMerge
