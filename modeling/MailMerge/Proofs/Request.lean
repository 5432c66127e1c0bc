import MailMerge.Proofs.Json.Reading
import MailMerge.Proofs.Json.Record

/-! # Requests and their members

The members of a request are read in two passes, those of its own first and the values of
placeholders from what was set aside. Together they come to one pass over all fields. So a request
is told by its members in any order and under any of their names, no field may have two members, and
members without a field tell nothing.
-/

namespace MailMerge

open Json

/-- A field that a request does not share with fragments. -/
inductive OwnField
  | recipient
  | title
  | templateName
  deriving DecidableEq

inductive RequestField
  | own (f : OwnField)
  | fragment (p : Placeholder)
  deriving DecidableEq

section Values

variable {d : Doc} {v : Option String} {room : Nat}

theorem unexpected_eq_error {α : Type} (d : Doc) (expected : String) :
    ∃ e, d.unexpected (α := α) expected = .error e := by
  unfold Doc.unexpected
  split <;> exact ⟨_, rfl⟩

theorem isMeaningful_of_optionalText (h : optionalText d = .ok v) : d.isMeaningful room = true := by
  have hfail (hread : optionalText d = some <$> d.unexpected (α := String) "a string") :
      d.isMeaningful room = true := by
    obtain ⟨e, he⟩ := unexpected_eq_error (α := String) d "a string"
    rw [hread, he] at h
    cases h
  cases d with
  | null => rfl
  | text s =>
    cases s with
    | none => exact hfail rfl
    | some s => rfl
  | _ => exact hfail rfl

mutual

theorem isWhole_of_isMeaningful (d : Doc) (room : Nat) (h : d.isMeaningful room = true) :
    d.isWhole = true := by
  cases d with
  | array items => exact isWhole_of_items items _ (Bool.and_eq_true_iff.mp h).2
  | object members => exact isWhole_of_members members _ (Bool.and_eq_true_iff.mp h).2
  | broken => cases h
  | _ => rfl

theorem isWhole_of_items (items : Items) (room : Nat) (h : items.isMeaningful room = true) :
    items.isWhole = true := by
  cases items with
  | closed => rfl
  | cut => cases h
  | cons head tail =>
    obtain ⟨hhead, htail⟩ := Bool.and_eq_true_iff.mp h
    rw [Items.isWhole, isWhole_of_isMeaningful head room hhead, isWhole_of_items tail room htail]
    rfl

theorem isWhole_of_members (members : Members) (room : Nat)
    (h : members.isMeaningful room = true) : members.isWhole = true := by
  cases members with
  | closed => rfl
  | cut => cases h
  | cons name value tail =>
    obtain ⟨hvalue, htail⟩ := Bool.and_eq_true_iff.mp h
    rw [Members.isWhole, isWhole_of_isMeaningful value room (Bool.and_eq_true_iff.mp hvalue).2,
      isWhole_of_members tail room htail]
    rfl

end

end Values

namespace RequestField

def spellings : RequestField → List String
  | own .recipient => ["recipient", "email", "to"]
  | own .title => ["title", "subject"]
  | own .templateName => ["template_name", "templateName"]
  | fragment .header => ["header"]
  | fragment .body => ["body"]
  | fragment .footer => ["footer"]
  | fragment .correspondentName => ["correspondent_name", "correspondentName"]
  | fragment .senderName => ["sender_name", "senderName"]

def all : List RequestField :=
  [own .recipient, own .title, own .templateName] ++ Placeholder.all.map fragment

def ofKey? (key : String) : Option RequestField := all.find? fun f => f.spellings.contains key

def toOwn? : RequestField → Option OwnField
  | own f => some f
  | fragment _ => none

def toFragment? : RequestField → Option Placeholder
  | own _ => none
  | fragment p => some p

def own? (key : String) : Option OwnField := (ofKey? key).bind toOwn?

def fragment? (key : String) : Option Placeholder := (ofKey? key).bind toFragment?

variable {key : String} {f : RequestField}

theorem mem_all (f : RequestField) : f ∈ all := by
  rcases f with f | p
  · cases f <;> decide
  · cases p <;> decide

theorem ofKey?_eq_some_iff : ofKey? key = some f ↔ key ∈ f.spellings := by
  constructor
  · intro h
    have hspells := List.find?_some h
    exact List.contains_iff_mem.mp hspells
  · have hall : ∀ f ∈ all, ∀ key ∈ f.spellings, ofKey? key = some f := by decide
    exact hall f (mem_all f) key

theorem toOwn?_eq_some_iff {g : OwnField} : f.toOwn? = some g ↔ f = own g := by
  cases f <;> simp [toOwn?]

theorem toFragment?_eq_some_iff {p : Placeholder} : f.toFragment? = some p ↔ f = fragment p := by
  cases f <;> simp [toFragment?]

theorem own?_eq_some_iff {g : OwnField} : own? key = some g ↔ key ∈ (own g).spellings := by
  simp [own?, Option.bind_eq_some_iff, toOwn?_eq_some_iff, ofKey?_eq_some_iff]

theorem fragment?_eq_some_iff {p : Placeholder} :
    fragment? key = some p ↔ key ∈ (fragment p).spellings := by
  simp [fragment?, Option.bind_eq_some_iff, toFragment?_eq_some_iff, ofKey?_eq_some_iff]

end RequestField

def EmailRequest.get? (r : EmailRequest) : RequestField → Option String
  | .own .recipient => r.recipient
  | .own .title => r.title
  | .own .templateName => r.templateName
  | .fragment p => r.fragments.get? p

theorem EmailRequest.ext_get? {r r' : EmailRequest} (h : r.get? = r'.get?) : r = r' := by
  cases r
  cases r'
  have hfragments := Fragments.ext_get? fun p => congrFun h (.fragment p)
  have hrecipient := congrFun h (.own .recipient)
  have htitle := congrFun h (.own .title)
  have htemplateName := congrFun h (.own .templateName)
  simp only [get?] at *
  subst hfragments hrecipient htitle htemplateName
  rfl

namespace OwnField

def all : List OwnField := [recipient, title, templateName]

def slot : OwnField → Slot RequestDraft
  | recipient => RequestDraft.slots[0]
  | title => RequestDraft.slots[1]
  | templateName => RequestDraft.slots[2]

def put (f : OwnField) (v : Option String) (r : RequestDraft) : RequestDraft :=
  match f with
  | recipient => { r with request := { r.request with recipient := v } }
  | title => { r with request := { r.request with title := v } }
  | templateName => { r with request := { r.request with templateName := v } }

theorem map_slot : all.map slot = RequestDraft.slots := rfl

theorem put_keeps (f : OwnField) (v : Option String) (r : RequestDraft) :
    (f.put v r).aside = r.aside ∧ (f.put v r).request.fragments = r.request.fragments := by
  cases f <;> exact ⟨rfl, rfl⟩

theorem takesTexts : TakesTexts all slot put RequestDraft.setAside RequestField.own?
    (fun d => d.isMeaningful RequestDraft.room) (fun r f => r.request.get? (.own f)) where
  complete f := by cases f <;> decide
  spelled key f := by
    rw [RequestField.own?_eq_some_iff]
    cases f <;> rfl
  optional f := by cases f <;> rfl
  read f d r := by cases f <;> rfl
  get?_put f v r := funext fun g => by cases f <;> cases g <;> rfl
  skipped key d r hd := ⟨_, if_pos hd, rfl⟩
  refused key d r hd := ⟨_, if_neg (Bool.eq_false_iff.mp hd)⟩

end OwnField

namespace Placeholder

def slot (p : Placeholder) : Slot Fragments where
  name := p.key
  aliases := p.keyAliases
  read d f := do return f.set p (← optionalText d)

theorem map_slot : all.map slot = Fragments.slots := rfl

theorem takesTexts : TakesTexts all slot (fun p v f => f.set p v) skip RequestField.fragment?
    Doc.isWhole Fragments.get? where
  complete := mem_all
  spelled key p := by
    rw [RequestField.fragment?_eq_some_iff]
    cases p <;> rfl
  optional p := rfl
  read p d f := rfl
  get?_put p v f := funext fun q => f.get?_set p q v
  skipped key d f hd := ⟨_, if_pos hd, rfl⟩
  refused key d f hd := ⟨_, if_neg (Bool.eq_false_iff.mp hd)⟩

end Placeholder

section Passes

variable {ms : List Member}

/-- The members that are not for a request's own fields. -/
def asideOf (ms : List Member) : List (String × Doc) :=
  ms.filterMap fun m =>
    m.1.bind fun key => if RequestField.own? key = none then some (key, m.2) else none

theorem asideOf_cons_aside {key : String} {d : Doc} (hkey : RequestField.own? key = none) :
    asideOf ((some key, d) :: ms) = (key, d) :: asideOf ms :=
  List.filterMap_cons_some (if_pos hkey)

theorem asideOf_cons_own {key : String} {d : Doc} {f : OwnField}
    (hkey : RequestField.own? key = some f) : asideOf ((some key, d) :: ms) = asideOf ms :=
  List.filterMap_cons_none (if_neg (by simp [hkey]))

/-- The first pass sets members aside in their order, and takes no fragments. -/
theorem aside_of_intoRecord {names : List String} {r r' : RequestDraft}
    (h : (Members.ofPairs ms).intoRecord (OwnField.all.map OwnField.slot) RequestDraft.setAside
      names r = .ok r') :
    r'.aside.reverse = r.aside.reverse ++ asideOf ms ∧
      r'.request.fragments = r.request.fragments := by
  induction ms generalizing names r with
  | nil =>
    rw [Members.ofPairs, Members.intoRecord, OwnField.takesTexts.missing_slot] at h
    cases h
    exact ⟨(List.append_nil _).symm, rfl⟩
  | cons m ms ih =>
    obtain ⟨key, d⟩ := m
    cases key with
    | none => cases h
    | some key =>
      cases hkey : RequestField.own? key with
      | none =>
        obtain ⟨r₁, haside, hrest⟩ := (OwnField.takesTexts.intoRecord_unknown_iff hkey).mp h
        have hr₁ : r₁ = { r with aside := (key, d) :: r.aside } := by
          unfold RequestDraft.setAside at haside
          split at haside <;> cases haside
          rfl
        have htail := ih hrest
        rwa [hr₁, List.reverse_cons, List.append_assoc, List.singleton_append,
          ← asideOf_cons_aside hkey] at htail
      | some f =>
        obtain ⟨-, v, -, hrest⟩ := (OwnField.takesTexts.intoRecord_field_iff hkey).mp h
        have htail := ih hrest
        rwa [(f.put_keeps v r).1, (f.put_keeps v r).2, ← asideOf_cons_own hkey] at htail

/-- Members fill fields in two passes: a request's own fields first, then placeholders from what was
set aside. -/
def FillsInTurn (seen : List RequestField) (ms : List Member)
    (before after : RequestField → Option String) : Prop :=
  Fills (·.isMeaningful RequestDraft.room) (seen.filterMap RequestField.toOwn?)
    (headed RequestField.own? ms) (fun f => before (.own f)) (fun f => after (.own f)) ∧
  Fills Doc.isWhole (seen.filterMap RequestField.toFragment?)
    (headed RequestField.fragment? ((asideOf ms).map Member.named))
    (fun p => before (.fragment p)) (fun p => after (.fragment p))

namespace FillsInTurn

variable {seen : List RequestField} {before after : RequestField → Option String} {key : String}
  {d : Doc}

theorem nil_iff : FillsInTurn seen [] before after ↔ after = before := by
  simp only [FillsInTurn, headed, asideOf, List.filterMap_nil, List.map_nil, Fills.nil_iff]
  constructor
  · rintro ⟨hown, hfragment⟩
    funext f
    cases f with
    | own f => exact congrFun hown f
    | fragment p => exact congrFun hfragment p
  · rintro rfl
    exact ⟨rfl, rfl⟩

theorem not_cons_broken : ¬ FillsInTurn seen ((none, d) :: ms) before after :=
  fun h => Fills.not_cons_broken h.1

theorem cons_unknown_iff (hkey : RequestField.ofKey? key = none) :
    FillsInTurn seen ((some key, d) :: ms) before after ↔
      d.isMeaningful RequestDraft.room = true ∧ FillsInTurn seen ms before after := by
  have hown : RequestField.own? key = none := by simp [RequestField.own?, hkey]
  have hfragment : RequestField.fragment? key = none := by simp [RequestField.fragment?, hkey]
  rw [FillsInTurn, asideOf_cons_aside hown, List.map_cons, Member.named, headed_cons_unknown hown,
    headed_cons_unknown hfragment, Fills.cons_unknown_iff, Fills.cons_unknown_iff]
  constructor
  · rintro ⟨⟨hd, hfirst⟩, -, hsecond⟩
    exact ⟨hd, hfirst, hsecond⟩
  · rintro ⟨hd, hfirst, hsecond⟩
    exact ⟨⟨hd, hfirst⟩, isWhole_of_isMeaningful d _ hd, hsecond⟩

/-- A member for a field is taken by one of the passes and leaves the other as it is. -/
theorem cons_field_iff {f : RequestField} (hkey : RequestField.ofKey? key = some f) :
    FillsInTurn seen ((some key, d) :: ms) before after ↔ f ∉ seen ∧ ∃ v,
      optionalText d = .ok v ∧
        FillsInTurn (f :: seen) ms (fun g => if g = f then v else before g) after := by
  cases f with
  | own f =>
    have hown : RequestField.own? key = some f := RequestField.own?_eq_some_iff.mpr
      (RequestField.ofKey?_eq_some_iff.mp hkey)
    have hseen : f ∈ seen.filterMap RequestField.toOwn? ↔ .own f ∈ seen := by
      simp [List.mem_filterMap, RequestField.toOwn?_eq_some_iff]
    simp only [FillsInTurn, asideOf_cons_own hown, headed_cons_field hown, Fills.cons_field_iff,
      hseen, List.filterMap_cons, RequestField.toOwn?, RequestField.toFragment?,
      RequestField.own.injEq, reduceCtorEq, if_false, ← and_assoc, exists_and_right]
  | fragment p =>
    have hown : RequestField.own? key = none := by
      simp [RequestField.own?, hkey, RequestField.toOwn?]
    have hfragment : RequestField.fragment? key = some p :=
      RequestField.fragment?_eq_some_iff.mpr (RequestField.ofKey?_eq_some_iff.mp hkey)
    have hseen : p ∈ seen.filterMap RequestField.toFragment? ↔ .fragment p ∈ seen := by
      simp [List.mem_filterMap, RequestField.toFragment?_eq_some_iff]
    simp only [FillsInTurn, asideOf_cons_aside hown, List.map_cons, Member.named,
      headed_cons_unknown hown, headed_cons_field hfragment, Fills.cons_unknown_iff,
      Fills.cons_field_iff, hseen, List.filterMap_cons, RequestField.toOwn?,
      RequestField.toFragment?, RequestField.fragment.injEq, reduceCtorEq, if_false]
    constructor
    · rintro ⟨⟨-, hfirst⟩, hfree, v, hv, hsecond⟩
      exact ⟨hfree, v, hv, hfirst, hsecond⟩
    · rintro ⟨hfree, v, hv, hfirst, hsecond⟩
      exact ⟨⟨isMeaningful_of_optionalText hv, hfirst⟩, hfree, v, hv, hsecond⟩

end FillsInTurn

/-- Two passes, one after the other, are one pass over all fields. -/
theorem fills_iff_inTurn (seen : List RequestField)
    (before after : RequestField → Option String) :
    Fills (·.isMeaningful RequestDraft.room) seen (headed RequestField.ofKey? ms) before after ↔
      FillsInTurn seen ms before after := by
  induction ms generalizing seen before with
  | nil => rw [headed, List.map_nil, Fills.nil_iff, FillsInTurn.nil_iff]
  | cons m ms ih =>
    obtain ⟨key, d⟩ := m
    cases key with
    | none => exact iff_of_false Fills.not_cons_broken FillsInTurn.not_cons_broken
    | some key =>
      cases hkey : RequestField.ofKey? key with
      | none =>
        rw [headed_cons_unknown hkey, Fills.cons_unknown_iff, FillsInTurn.cons_unknown_iff hkey, ih]
      | some f =>
        rw [headed_cons_field hkey, Fills.cons_field_iff, FillsInTurn.cons_field_iff hkey]
        simp only [ih]

end Passes

namespace EmailRequest

variable {ms ms' : List Member} {s s' : String} {r r' : EmailRequest}

/-- The members tell the request: its texts are theirs, and no field has two of them. -/
def Told (ms : List Member) (r : EmailRequest) : Prop :=
  Fills (·.isMeaningful RequestDraft.room) [] (headed RequestField.ofKey? ms) (fun _ => none) r.get?

theorem ofDoc_eq_ok_iff : ofDoc (.object (.ofPairs ms)) = .ok r ↔ Told ms r := by
  have hfirst := OwnField.takesTexts.intoRecord_iff ms [] {} fun f => r.get? (.own f)
  have hsecond := Placeholder.takesTexts.intoRecord_iff ((asideOf ms).map Member.named) [] {}
    r.fragments.get?
  have hown : (fun f => ({} : RequestDraft).request.get? (.own f)) = fun _ => none := by
    funext f
    cases f <;> rfl
  have hfragment : ({} : Fragments).get? = fun _ => none := funext Fragments.get?_empty
  rw [hown] at hfirst
  rw [hfragment] at hsecond
  rw [Told, fills_iff_inTurn, FillsInTurn]
  refine Iff.trans ?_ (and_congr hfirst hsecond)
  simp only [ofDoc, RequestDraft.finish, bind_eq_ok_iff, ← OwnField.map_slot,
    ← Placeholder.map_slot, List.map_nil]
  constructor
  · rintro ⟨draft, hdraft, fragments, hfragments, hr⟩
    cases hr
    obtain ⟨haside, -⟩ := aside_of_intoRecord hdraft
    rw [haside, Members.ofList_eq_ofPairs] at hfragments
    exact ⟨⟨draft, hdraft, funext fun f => by cases f <;> rfl⟩, fragments, hfragments, rfl⟩
  · rintro ⟨⟨draft, hdraft, htexts⟩, fragments, hfragments, hvalues⟩
    obtain ⟨haside, -⟩ := aside_of_intoRecord hdraft
    refine ⟨draft, hdraft, fragments, ?_, ?_⟩
    · rw [haside, Members.ofList_eq_ofPairs]
      exact hfragments
    · refine congrArg Except.ok (ext_get? (funext fun f => ?_))
      cases f with
      | own f =>
        have htext : draft.request.get? (.own f) = r.get? (.own f) := congrFun htexts f
        cases f <;> exact htext
      | fragment p => exact congrFun hvalues p

/-- The text is an object with these members, in this order. -/
def Lists (s : String) (ms : List Member) : Prop :=
  ∃ g w g', IsGap g ∧ IsGap g' ∧ s.toList = g ++ (w ++ g') ∧ Spells (.object (.ofPairs ms)) w

theorem lists_of_compact (hs : s.toList = (Doc.object (.ofPairs ms)).compact)
    (h : (Doc.object (.ofPairs ms)).isTextual = true) : Lists s ms := by
  refine ⟨[], _, [], nofun, nofun, ?_, spells_compact _ h⟩
  rw [hs, List.nil_append, List.append_nil]

theorem ofJson_eq_ofDoc (h : Lists s ms) : ofJson s = ofDoc (.object (.ofPairs ms)) := by
  obtain ⟨g, w, g', hg, hg', hs, hw⟩ := h
  exact decode_of_complete (ofString_of_spells hg hw hg' hs)

theorem ofJson_eq_ok_iff (h : Lists s ms) : ofJson s = .ok r ↔ Told ms r := by
  rw [ofJson_eq_ofDoc h, ofDoc_eq_ok_iff]

theorem Told.unique (h : Told ms r) (h' : Told ms r') : r = r' :=
  ext_get? (Fills.unique h h')

/-- The same member, or one for the same field under another of its names. -/
inductive Respelled : Member → Member → Prop
  | refl (m : Member) : Respelled m m
  | rename {f : RequestField} {key key' : String} (hkey : key ∈ f.spellings)
    (hkey' : key' ∈ f.spellings) (d : Doc) : Respelled (some key, d) (some key', d)

/-- The same members in another order, and for the same fields under other names. -/
inductive Rearranged : List Member → List Member → Prop
  | nil : Rearranged [] []
  | cons {m m' : Member} {ms ms' : List Member} (h : Respelled m m') (hrest : Rearranged ms ms') :
    Rearranged (m :: ms) (m' :: ms')
  | swap (a b : Member) (ms : List Member) : Rearranged (a :: b :: ms) (b :: a :: ms)
  | trans {ms₁ ms₂ ms₃ : List Member} (h : Rearranged ms₁ ms₂) (h' : Rearranged ms₂ ms₃) :
    Rearranged ms₁ ms₃

theorem Respelled.headed_cons {m m' : Member} (h : Respelled m m') (ms : List Member) :
    headed RequestField.ofKey? (m :: ms) = headed RequestField.ofKey? (m' :: ms) := by
  cases h with
  | refl => rfl
  | rename hkey hkey' d =>
    rw [headed_cons_field (RequestField.ofKey?_eq_some_iff.mpr hkey),
      headed_cons_field (RequestField.ofKey?_eq_some_iff.mpr hkey')]

theorem Rearranged.headed_perm (h : Rearranged ms ms') :
    (headed RequestField.ofKey? ms).Perm (headed RequestField.ofKey? ms') := by
  induction h with
  | nil => exact .nil
  | cons h _ ih =>
    rw [h.headed_cons]
    exact ih.cons _
  | swap a b ms => exact .swap _ _ _
  | trans _ _ ih ih' => exact ih.trans ih'

theorem told_iff_of_rearranged (h : Rearranged ms ms') : Told ms r ↔ Told ms' r :=
  ⟨fun htold => Fills.perm htold h.headed_perm, fun htold => Fills.perm htold h.headed_perm.symm⟩

/-- No two members are for one field, whatever their values. -/
theorem not_told_of_sublist {f : RequestField} {key key' : String} {d d' : Doc}
    (hkey : key ∈ f.spellings) (hkey' : key' ∈ f.spellings)
    (hsub : [(some key, d), (some key', d')].Sublist ms) : ¬ Told ms r := by
  intro htold
  have hpair : (headed RequestField.ofKey? [(some key, d), (some key', d')]).Pairwise _ :=
    htold.once.sublist (hsub.map _)
  rw [headed_cons_field (RequestField.ofKey?_eq_some_iff.mpr hkey),
    headed_cons_field (RequestField.ofKey?_eq_some_iff.mpr hkey')] at hpair
  exact (List.pairwise_cons.mp hpair).1 _ List.mem_cons_self f rfl rfl

def known (ms : List Member) : List Member :=
  ms.filter fun m => (m.1.bind RequestField.ofKey?).isSome

theorem Told.known (h : Told ms r) : Told (known ms) r := by
  refine Fills.of_sublist h (List.filter_sublist.map _) fun e he i hi => ?_
  obtain ⟨m, hm, rfl⟩ := List.mem_map.mp he
  have hfield : m.1.bind RequestField.ofKey? = some i := Heading.of_eq_field_iff.mp hi
  exact List.mem_map_of_mem (List.mem_filter.mpr ⟨hm, by rw [hfield]; rfl⟩)

/-- A request is read from the members of its text in any order and under any of their names. Two
members for one field are refused, and the members without a field have no part in the request. -/
theorem ofJson_unordered (h : Lists s ms) :
    (∀ s' ms', Lists s' ms' → Rearranged ms ms' → ∀ r, ofJson s = .ok r ↔ ofJson s' = .ok r) ∧
    (∀ (f : RequestField) (key key' : String) (d d' : Doc), key ∈ f.spellings →
      key' ∈ f.spellings → [(some key, d), (some key', d')].Sublist ms →
        ∃ e, ofJson s = .error e) ∧
    (∀ s' r, Lists s' (known ms) → ofJson s = .ok r → ofJson s' = .ok r) ∧
    (∀ s' ms' r r', Lists s' ms' → Rearranged (known ms) (known ms') → ofJson s = .ok r →
      ofJson s' = .ok r' → r = r') := by
  refine ⟨?order, ?twice, ?without, ?unknown⟩
  case order =>
    intro s' ms' h' hms r
    rw [ofJson_eq_ok_iff h, ofJson_eq_ok_iff h', told_iff_of_rearranged hms]
  case twice =>
    intro f key key' d d' hkey hkey' hsub
    cases hread : ofJson s with
    | error e => exact ⟨e, rfl⟩
    | ok r =>
      exact absurd ((ofJson_eq_ok_iff h).mp hread) (not_told_of_sublist hkey hkey' hsub)
  case without =>
    intro s' r h' hread
    exact (ofJson_eq_ok_iff h').mpr ((ofJson_eq_ok_iff h).mp hread).known
  case unknown =>
    intro s' ms' r r' h' hms hread hread'
    have htold := ((ofJson_eq_ok_iff h).mp hread).known
    have htold' := ((ofJson_eq_ok_iff h').mp hread').known
    exact ((told_iff_of_rearranged hms).mp htold).unique htold'

theorem ofJson_unordered_sample :
    Lists "\x7b\"to\":\"Ann\",\"note\":null,\"subject\":\"Hello\"\x7d"
      [(some "to", .ofString "Ann"), (some "note", .null), (some "subject", .ofString "Hello")] ∧
    ofJson "\x7b\"title\":\"Hello\",\"email\":\"Ann\",\"note\":null\x7d" =
      .ok { recipient := some "Ann", title := some "Hello" } := by
  have h : Lists "\x7b\"to\":\"Ann\",\"note\":null,\"subject\":\"Hello\"\x7d"
      [(some "to", .ofString "Ann"), (some "note", .null),
        (some "subject", .ofString "Hello")] := lists_of_compact (by decide) (by decide)
  have h' : Lists "\x7b\"title\":\"Hello\",\"email\":\"Ann\",\"note\":null\x7d"
      [(some "title", .ofString "Hello"), (some "email", .ofString "Ann"),
        (some "note", .null)] := lists_of_compact (by decide) (by decide)
  have hto : Respelled (some "to", .ofString "Ann") (some "email", .ofString "Ann") :=
    .rename (f := .own .recipient) (by decide) (by decide) _
  have hsubject : Respelled (some "subject", .ofString "Hello") (some "title", .ofString "Hello") :=
    .rename (f := .own .title) (by decide) (by decide) _
  have hms := (Rearranged.cons hto (.cons (.refl (some "note", .null)) (.cons hsubject .nil))).trans
    ((Rearranged.cons (.refl _) (.swap _ _ _)).trans (.swap _ _ _))
  have hread := (ofJson_eq_ofDoc h).trans
    (rfl : _ = Except.ok ({ recipient := some "Ann", title := some "Hello" } : EmailRequest))
  exact ⟨h, ((ofJson_unordered h).1 _ _ h' hms _).mp hread⟩

end EmailRequest

end MailMerge
