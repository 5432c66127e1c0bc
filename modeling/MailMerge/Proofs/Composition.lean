import MailMerge.Envelope
import MailMerge.Proofs.Seam
import MailMerge.Proofs.Store.Naming

/-! # What a request comes to

A request fails for the first of six reasons, or an envelope is made of it. The rules are stated
one by one, each with what must hold for it to be the one that counts; exactly one of them applies
to a request, and the store matters only to those that come after the look-up.
-/

namespace MailMerge

open StoreM

/-- `v` is given, and it is not blank. -/
def Supplied (value : Option String) (v : String) : Prop := value = some v ∧ isBlank v = false

/-- Nothing is given, or only white space. -/
def Missing (value : Option String) : Prop := ∀ v, ¬ Supplied value v

section Fields

variable {field v : String} {value : Option String} {e : TemplateError}

theorem Supplied.eq {w : String} (hv : Supplied value v) (hw : Supplied value w) : v = w :=
  Option.some.inj (hv.1.symm.trans hw.1)

theorem requireValue_eq_ok_iff : requireValue field value = .ok v ↔ Supplied value v := by
  unfold requireValue Supplied
  rcases value with _ | w
  · simp
  · by_cases hw : isBlank w = true
    · simp only [hw, if_true, reduceCtorEq, Option.some.injEq, false_iff, not_and]
      rintro rfl
      simp [hw]
    · simp only [hw, Bool.false_eq_true, if_false, Except.ok.injEq, Option.some.injEq]
      constructor
      · rintro rfl
        exact ⟨rfl, Bool.eq_false_iff.mpr hw⟩
      · exact And.left

theorem requireValue_eq_error_iff : requireValue field value = .error e ↔
    Missing value ∧ e = .badRequest field "is required" := by
  cases hvalue : requireValue field value with
  | ok v =>
    have hv := requireValue_eq_ok_iff.mp hvalue
    simp only [reduceCtorEq, false_iff, not_and]
    intro hmissing
    exact absurd hv (hmissing v)
  | error e' =>
    have he : e' = .badRequest field "is required" := by
      unfold requireValue at hvalue
      split at hvalue
      · split at hvalue
        · exact (Except.error.inj hvalue).symm
        · simp at hvalue
      · exact (Except.error.inj hvalue).symm
    have hmissing : Missing value := by
      intro v hv
      rw [requireValue_eq_ok_iff.mpr hv] at hvalue
      simp at hvalue
    subst he
    simp [hmissing, eq_comm]

theorem supplied_of_checkAddress (h : checkAddress value = .ok v) : Supplied value v := by
  unfold checkAddress at h
  cases hvalue : requireValue recipientField value with
  | error e => simp [hvalue, bind, Except.bind] at h
  | ok a =>
    simp only [hvalue, bind, Except.bind] at h
    split at h
    · exact requireValue_eq_ok_iff.mp (hvalue.trans h)
    · simp at h

/-- A request names the template of this name, or none and this is the protected one. -/
def Resolves (given : Option String) (name : String) : Prop :=
  Supplied given name ∨ Missing given ∧ name = defaultName

theorem resolves_iff {given : Option String} {name : String} :
    Resolves given name ↔ name = resolveName given := by
  unfold Resolves resolveName
  rcases given with _ | n
  · simp [Supplied, Missing]
  · by_cases hn : isBlank n = true
    · simp only [hn, if_true]
      constructor
      · rintro (⟨heq, hblank⟩ | ⟨-, rfl⟩)
        · rw [← Option.some.inj heq, hn] at hblank
          simp at hblank
        · rfl
      · rintro rfl
        refine .inr ⟨?_, rfl⟩
        rintro v ⟨heq, hblank⟩
        rw [← Option.some.inj heq, hn] at hblank
        simp at hblank
    · simp only [hn]
      have hsupplied : Supplied (some n) n := ⟨rfl, Bool.eq_false_iff.mpr hn⟩
      constructor
      · rintro (hv | ⟨hmissing, -⟩)
        · exact hv.eq hsupplied
        · exact absurd hsupplied (hmissing n)
      · rintro rfl
        exact .inl hsupplied

end Fields

/-- The recipient and the title of a request are given and in order. -/
structure Accepted (request : EmailRequest) (address title : String) : Prop where
  recipient : Supplied request.recipient address
  address : checkAddress request.recipient = .ok address
  title : Supplied request.title title

/-- What a request comes to where `get` answers the look-ups of templates. -/
inductive Composed (required : List Placeholder) (sender : Sender) (request : EmailRequest)
    (get : String → Except TemplateError Template) : Except TemplateError Envelope → Prop
  | noRecipient (h : Missing request.recipient) :
    Composed required sender request get (.error (.badRequest "Email" "is required"))
  | noTitle {address : String} (ha : Supplied request.recipient address)
    (h : Missing request.title) :
    Composed required sender request get (.error (.badRequest "Title" "is required"))
  | badAddress {address title : String} {e : TemplateError}
    (ha : Supplied request.recipient address) (ht : Supplied request.title title)
    (h : checkAddress request.recipient = .error e) :
    Composed required sender request get (.error e)
  | noTemplate {address title name : String} {e : TemplateError}
    (hr : Accepted request address title) (hn : Resolves request.templateName name)
    (h : get name = .error e) : Composed required sender request get (.error e)
  | refused {address title name : String} {t : Template} {e : TemplateError}
    (hr : Accepted request address title) (hn : Resolves request.templateName name)
    (ht : get name = .ok t) (h : renderTemplate required t request.fragments = .error e) :
    Composed required sender request get (.error e)
  | sent {address title name html : String} {t : Template}
    (hr : Accepted request address title) (hn : Resolves request.templateName name)
    (ht : get name = .ok t) (h : renderTemplate required t request.fragments = .ok html) :
    Composed required sender request get (.ok {
      toAddress := address
      subject := title
      html := substitute t.html request.fragments
      fromName := sender.name
      fromEmail := sender.email
      templateName := name })

/-- What a request comes to if `answer` is the answer to the look-up of its template. -/
def outcome (required : List Placeholder) (sender : Sender) (request : EmailRequest)
    (answer : Except TemplateError Template) : Except TemplateError Envelope := do
  let _ ← requireValue recipientField request.recipient
  let subject ← requireValue titleField request.title
  let toAddress ← checkAddress request.recipient
  let t ← answer
  let html ← renderTemplate required t request.fragments
  return {
    toAddress, subject, html
    fromName := sender.name
    fromEmail := sender.email
    templateName := t.name }

section

variable {required : List Placeholder} {sender : Sender} {request : EmailRequest}
  {out : Except TemplateError Envelope}

/-- Of the store nothing counts but its answer to one look-up. -/
theorem exec_compose {σ : Type} [TemplateStore σ] (s : σ) (d : Disk) :
    ((compose required sender request).exec s d).1 = outcome required sender request
      ((TemplateStore.get (resolveName request.templateName)).exec s d).1 := by
  simp only [compose, renderRequest, outcome, exec_bind, exec_ofExcept]
  cases requireValue recipientField request.recipient with
  | error e => rfl
  | ok _ =>
    cases requireValue titleField request.title with
    | error e => rfl
    | ok title =>
      cases checkAddress request.recipient with
      | error e => rfl
      | ok address =>
        simp only [followUp_ok, exec_bind, exec_ofExcept]
        rcases (TemplateStore.get (resolveName request.templateName)).exec s d with
          ⟨e | t, s', d'⟩
        · rfl
        · simp only [followUp_ok, exec_bind, exec_ofExcept]
          show _ = (renderTemplate required t request.fragments >>= fun html => _)
          cases renderTemplate required t request.fragments with
          | error e => rfl
          | ok html => rfl

variable {get : String → Except TemplateError Template}

/-- Each rule tells the outcome. -/
theorem outcome_of_composed (hget : ∀ name t, get name = .ok t → t.name = name)
    (h : Composed required sender request get out) :
    outcome required sender request (get (resolveName request.templateName)) = out := by
  have hfirst : ∀ {address}, Supplied request.recipient address →
      requireValue recipientField request.recipient = .ok address :=
    fun ha => requireValue_eq_ok_iff.mpr ha
  have hsecond : ∀ {title}, Supplied request.title title →
      requireValue titleField request.title = .ok title :=
    fun ht => requireValue_eq_ok_iff.mpr ht
  unfold outcome
  cases h with
  | noRecipient h =>
    rw [requireValue_eq_error_iff.mpr ⟨h, rfl⟩]
    rfl
  | noTitle ha h =>
    rw [hfirst ha, requireValue_eq_error_iff.mpr ⟨h, rfl⟩]
    rfl
  | badAddress ha ht h =>
    rw [hfirst ha, hsecond ht, h]
    rfl
  | noTemplate hr hn h =>
    rw [hfirst hr.recipient, hsecond hr.title, hr.address,
      ← resolves_iff.mp hn, h]
    rfl
  | refused hr hn ht h =>
    rw [hfirst hr.recipient, hsecond hr.title, hr.address,
      ← resolves_iff.mp hn, ht]
    show (renderTemplate required _ request.fragments >>= fun html => _) = _
    rw [h]
    rfl
  | sent hr hn ht h =>
    rw [hfirst hr.recipient, hsecond hr.title, hr.address,
      ← resolves_iff.mp hn, ht]
    show (renderTemplate required _ request.fragments >>= fun html => _) = _
    obtain ⟨-, -, rfl⟩ := renderTemplate_eq_ok_iff.mp h
    rw [h, ← hget _ _ ht]
    rfl

/-- A rule applies to every request. -/
theorem exists_composed (required : List Placeholder) (sender : Sender) (request : EmailRequest)
    (get : String → Except TemplateError Template) :
    ∃ out, Composed required sender request get out := by
  cases hrecipient : requireValue recipientField request.recipient with
  | error e => exact ⟨_, .noRecipient (requireValue_eq_error_iff.mp hrecipient).1⟩
  | ok address =>
    have ha := requireValue_eq_ok_iff.mp hrecipient
    cases htitle : requireValue titleField request.title with
    | error e => exact ⟨_, .noTitle ha (requireValue_eq_error_iff.mp htitle).1⟩
    | ok title =>
      have ht := requireValue_eq_ok_iff.mp htitle
      cases haddress : checkAddress request.recipient with
      | error e => exact ⟨_, .badAddress ha ht haddress⟩
      | ok address =>
        have hr : Accepted request address title := ⟨supplied_of_checkAddress haddress, haddress, ht⟩
        have hn := resolves_iff.mpr (rfl : resolveName request.templateName = _)
        cases hget : get (resolveName request.templateName) with
        | error e => exact ⟨_, .noTemplate hr hn hget⟩
        | ok t =>
          cases hhtml : renderTemplate required t request.fragments with
          | error e => exact ⟨_, .refused hr hn hget hhtml⟩
          | ok html => exact ⟨_, .sent hr hn hget hhtml⟩

/-- The recipient or the title is missing, or the address is not in order. -/
def Faulty (request : EmailRequest) : Prop :=
  Missing request.recipient ∨ Missing request.title ∨
    ∃ e, checkAddress request.recipient = .error e

/-- A faulty request fails before the look-up, whose answer then does not matter. -/
theorem outcome_eq_of_faulty (h : Faulty request) (answer answer' : Except TemplateError Template) :
    outcome required sender request answer = outcome required sender request answer' := by
  unfold outcome
  cases hrecipient : requireValue recipientField request.recipient with
  | error e => rfl
  | ok _ =>
    cases htitle : requireValue titleField request.title with
    | error e => rfl
    | ok title =>
      cases haddress : checkAddress request.recipient with
      | error e => rfl
      | ok address =>
        rcases h with hmissing | hmissing | ⟨e, he⟩
        · exact absurd (requireValue_eq_ok_iff.mp hrecipient) (hmissing _)
        · exact absurd (requireValue_eq_ok_iff.mp htitle) (hmissing _)
        · simp [haddress] at he

end

/-- What composing answers is told by the one rule that applies: the first reason to fail, or else
the envelope. For a faulty request it does not depend on the store. -/
theorem compose_eq_iff_composed {s : Store} (hs : s.Arises) (required : List Placeholder)
    (sender : Sender) (request : EmailRequest) (d : Disk) :
    (∀ out, ((compose required sender request).exec s d).1 = out ↔
        Composed required sender request
          (fun name => ((TemplateStore.get (σ := Store) name).exec s d).1) out) ∧
      (Faulty request → ∀ (s' : Store) (d' : Disk),
        ((compose required sender request).exec s' d').1 =
          ((compose required sender request).exec s d).1) := by
  have hnamed := Store.named_of_arises hs
  have hget : ∀ name t, ((TemplateStore.get (σ := Store) name).exec s d).1 = .ok t →
      t.name = name := fun name t ht => Store.keepsNames.name_of_get hnamed ht
  constructor
  · intro out
    rw [exec_compose]
    constructor
    · rintro rfl
      obtain ⟨out, hout⟩ := exists_composed required sender request
        fun name => ((TemplateStore.get (σ := Store) name).exec s d).1
      rw [outcome_of_composed hget hout]
      exact hout
    · exact outcome_of_composed hget
  · intro hfaulty s' d'
    rw [exec_compose, exec_compose]
    exact outcome_eq_of_faulty hfaulty _ _

/-- A blank name stands for the protected template, while a title keeps its white space. -/
theorem compose_sample :
    ((compose defaultRequired ⟨"N", "n@x.org"⟩
        { recipient := some "a@b.org", title := some " T ", templateName := some " "
          fragments := { body := some "B" } }).exec
        (Store.memory (.ofList [⟨defaultName, "<p>%%EMAIL_BODY%%</p>"⟩])) Disk.empty).1 =
      .ok ⟨"a@b.org", " T ", "<p>B</p>", "N", "n@x.org", defaultName⟩ := by
  let t : Template := ⟨defaultName, "<p>%%EMAIL_BODY%%</p>"⟩
  let f : Fragments := { body := some "B" }
  have hfault : AddressFault.of? "a@b.org" = none := by decide +kernel
  have haddress : checkAddress (some "a@b.org") = .ok "a@b.org" := by
    have hvalue : requireValue recipientField (some "a@b.org") = .ok "a@b.org" :=
      requireValue_eq_ok_iff.mpr ⟨rfl, by decide⟩
    simp only [checkAddress, hvalue, bind, Except.bind, hfault]
  have hrender : renderTemplate defaultRequired t f = .ok "<p>B</p>" :=
    renderTemplate_eq_ok_iff.mpr ⟨checkRequired_eq_ok_iff.mpr (by decide), rfl, by decide⟩
  have hhtml : substitute t.html f = "<p>B</p>" := by decide
  rw [← hhtml]
  refine ((compose_eq_iff_composed (.memory [t]) defaultRequired _ _ Disk.empty).1 _).mpr
    (.sent (t := t) ⟨⟨rfl, by decide⟩, haddress, rfl, by decide⟩ (resolves_iff.mpr ?_) ?_ hrender)
  · rfl
  · rfl

end MailMerge
