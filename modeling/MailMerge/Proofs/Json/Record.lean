import MailMerge.Wire.Request

/-! # Objects read into records of texts

Members are taken one by one, and each slot at most once. What comes of it is told here of the
members as a whole: no two of them are for one field, each that is for a field holds the text of the
field or null, and the fields without a member are as before.
-/

namespace MailMerge.Json

theorem bind_eq_ok_iff {α β : Type} {x : Decoded α} {f : α → Decoded β} {b : β} :
    x >>= f = .ok b ↔ ∃ a, x = .ok a ∧ f a = .ok b := by
  cases x with
  | error e => simp [bind, Except.bind]
  | ok a => simp [bind, Except.bind]

abbrev Member : Type := Option String × Doc

def Members.ofPairs : List Member → Members
  | [] => .closed
  | m :: ms => .cons m.1 m.2 (ofPairs ms)

def Member.named (m : String × Doc) : Member := (some m.1, m.2)

theorem Members.ofList_eq_ofPairs (ms : List (String × Doc)) :
    Members.ofList ms = .ofPairs (ms.map Member.named) := by
  induction ms with
  | nil => rfl
  | cons m ms ih => rw [Members.ofList, ih, List.map_cons, Members.ofPairs, Member.named]

/-- What the name of a member stands for where there are these fields. -/
inductive Heading (ι : Type)
  | broken
  | unknown
  | field (i : ι)

variable {ι ρ : Type} {field? : String → Option ι} {accepts : Doc → Bool}

def Heading.of (field? : String → Option ι) : Option String → Heading ι
  | none => .broken
  | some key =>
    match field? key with
    | none => .unknown
    | some i => .field i

def headed (field? : String → Option ι) (ms : List Member) : List (Heading ι × Doc) :=
  ms.map fun m => (Heading.of field? m.1, m.2)

theorem Heading.of_eq_field_iff {name : Option String} {i : ι} :
    Heading.of field? name = .field i ↔ name.bind field? = some i := by
  cases name with
  | none => simp [Heading.of]
  | some key => cases hkey : field? key <;> simp [Heading.of, hkey]

theorem headed_cons_field {key : String} {i : ι} (h : field? key = some i) (d : Doc)
    (ms : List Member) :
    headed field? ((some key, d) :: ms) = (.field i, d) :: headed field? ms := by
  rw [headed, List.map_cons, Heading.of, h]
  rfl

theorem headed_cons_unknown {key : String} (h : field? key = none) (d : Doc) (ms : List Member) :
    headed field? ((some key, d) :: ms) = (.unknown, d) :: headed field? ms := by
  rw [headed, List.map_cons, Heading.of, h]
  rfl

/-- Members fill the fields that are not among those `seen`: the texts were the ones of `before`,
and they are now the ones of `after`. What is for no field only has to be acceptable. -/
structure Fills (accepts : Doc → Bool) (seen : List ι) (es : List (Heading ι × Doc))
    (before after : ι → Option String) : Prop where
  named : ∀ e ∈ es, e.1 ≠ .broken
  once : es.Pairwise fun a b => ∀ i, a.1 = .field i → b.1 ≠ .field i
  free : ∀ e ∈ es, ∀ i ∈ seen, e.1 ≠ .field i
  given : ∀ e ∈ es, ∀ i, e.1 = .field i → optionalText e.2 = .ok (after i)
  kept : ∀ i, (∀ e ∈ es, e.1 ≠ .field i) → after i = before i
  accepted : ∀ e ∈ es, e.1 = .unknown → accepts e.2 = true

namespace Fills

variable {seen : List ι} {es es' : List (Heading ι × Doc)} {before after after' : ι → Option String}
  {d : Doc} {i : ι}

theorem perm (h : Fills accepts seen es before after) (hperm : es.Perm es') :
    Fills accepts seen es' before after where
  named e he := h.named e (hperm.mem_iff.mpr he)
  once := (hperm.pairwise_iff fun hab i hb ha => hab i ha hb).mp h.once
  free e he := h.free e (hperm.mem_iff.mpr he)
  given e he := h.given e (hperm.mem_iff.mpr he)
  kept i hi := h.kept i fun e he => hi e (hperm.mem_iff.mp he)
  accepted e he := h.accepted e (hperm.mem_iff.mpr he)

theorem unique (h : Fills accepts seen es before after) (h' : Fills accepts seen es before after') :
    after = after' := by
  funext i
  rcases Classical.em (∃ e ∈ es, e.1 = .field i) with ⟨e, he, hi⟩ | hnone
  · exact Except.ok.inj ((h.given e he i hi).symm.trans (h'.given e he i hi))
  · have hno : ∀ e ∈ es, e.1 ≠ .field i := fun e he hi => hnone ⟨e, he, hi⟩
    rw [h.kept i hno, h'.kept i hno]

theorem of_sublist (h : Fills accepts seen es before after) (hsub : es'.Sublist es)
    (hfields : ∀ e ∈ es, ∀ i, e.1 = .field i → e ∈ es') :
    Fills accepts seen es' before after where
  named e he := h.named e (hsub.mem he)
  once := h.once.sublist hsub
  free e he := h.free e (hsub.mem he)
  given e he := h.given e (hsub.mem he)
  kept i hi := h.kept i fun e he heq => hi e (hfields e he i heq) heq
  accepted e he := h.accepted e (hsub.mem he)

theorem nil_iff : Fills accepts seen [] before after ↔ after = before := by
  constructor
  · exact fun h => funext fun i => h.kept i nofun
  · rintro rfl
    exact ⟨nofun, .nil, nofun, nofun, fun _ _ => rfl, nofun⟩

theorem not_cons_broken : ¬ Fills accepts seen ((.broken, d) :: es) before after :=
  fun h => h.named _ List.mem_cons_self rfl

theorem cons_unknown_iff : Fills accepts seen ((.unknown, d) :: es) before after ↔
    accepts d = true ∧ Fills accepts seen es before after := by
  constructor
  · intro h
    refine ⟨h.accepted _ List.mem_cons_self rfl, ?_⟩
    exact
      { named := fun e he => h.named e (List.mem_cons_of_mem _ he)
        once := (List.pairwise_cons.mp h.once).2
        free := fun e he => h.free e (List.mem_cons_of_mem _ he)
        given := fun e he => h.given e (List.mem_cons_of_mem _ he)
        kept := fun i hi => h.kept i (List.forall_mem_cons.mpr ⟨nofun, hi⟩)
        accepted := fun e he => h.accepted e (List.mem_cons_of_mem _ he) }
  · rintro ⟨hd, h⟩
    exact
      { named := List.forall_mem_cons.mpr ⟨nofun, h.named⟩
        once := List.pairwise_cons.mpr ⟨fun _ _ _ => nofun, h.once⟩
        free := List.forall_mem_cons.mpr ⟨nofun, h.free⟩
        given := List.forall_mem_cons.mpr ⟨nofun, h.given⟩
        kept := fun i hi => h.kept i (List.forall_mem_cons.mp hi).2
        accepted := List.forall_mem_cons.mpr ⟨fun _ => hd, h.accepted⟩ }

/-- A member for a field fills it, and then it is taken. -/
theorem cons_field_iff [DecidableEq ι] :
    Fills accepts seen ((.field i, d) :: es) before after ↔ i ∉ seen ∧ ∃ v,
      optionalText d = .ok v ∧
        Fills accepts (i :: seen) es (fun j => if j = i then v else before j) after := by
  constructor
  · intro h
    obtain ⟨hfirst, honce⟩ := List.pairwise_cons.mp h.once
    have htaken : ∀ e ∈ es, e.1 ≠ .field i := fun e he => hfirst e he i rfl
    refine ⟨fun hi => h.free _ List.mem_cons_self i hi rfl, after i,
      h.given _ List.mem_cons_self i rfl, ?_⟩
    exact
      { named := fun e he => h.named e (List.mem_cons_of_mem _ he)
        once := honce
        free := fun e he => List.forall_mem_cons.mpr
          ⟨htaken e he, h.free e (List.mem_cons_of_mem _ he)⟩
        given := fun e he => h.given e (List.mem_cons_of_mem _ he)
        kept := fun j hj => by
          split
          · rw [‹j = i›]
          · rename_i hne
            refine h.kept j (List.forall_mem_cons.mpr ⟨fun heq => hne ?_, hj⟩)
            exact (Heading.field.inj heq).symm
        accepted := fun e he => h.accepted e (List.mem_cons_of_mem _ he) }
  · rintro ⟨hseen, v, hv, h⟩
    have htaken : ∀ e ∈ es, e.1 ≠ .field i := fun e he => h.free e he i List.mem_cons_self
    have hafter : after i = v := by simpa using h.kept i htaken
    exact
      { named := List.forall_mem_cons.mpr ⟨nofun, h.named⟩
        once := List.pairwise_cons.mpr
          ⟨fun e he j hj => Heading.field.inj hj ▸ htaken e he, h.once⟩
        free := List.forall_mem_cons.mpr
          ⟨fun j hj heq => hseen (Heading.field.inj heq ▸ hj),
            fun e he j hj => h.free e he j (List.mem_cons_of_mem _ hj)⟩
        given := List.forall_mem_cons.mpr
          ⟨fun j hj => by rw [← Heading.field.inj hj, hafter, hv], h.given⟩
        kept := fun j hj => by
          obtain ⟨hne, hrest⟩ := List.forall_mem_cons.mp hj
          have hne : j ≠ i := fun heq => hne (heq ▸ rfl)
          rw [h.kept j hrest, if_neg hne]
        accepted := List.forall_mem_cons.mpr ⟨nofun, h.accepted⟩ }

end Fills

theorem Slot.answersTo_iff {f : Slot ρ} {key : String} :
    f.answersTo key = true ↔ key ∈ f.name :: f.aliases := by
  rw [Slot.answersTo, Bool.or_eq_true, beq_iff_eq, List.contains_iff_mem, List.mem_cons,
    eq_comm (a := key)]

/-- How a record is read with one slot for each of the fields `is`. What `put` puts into a field is
an optional text, and `get?` tells the texts of a record; what is for no field goes to `other`, which
takes what is acceptable and changes no text. -/
structure TakesTexts [DecidableEq ι] (is : List ι) (slot : ι → Slot ρ)
    (put : ι → Option String → ρ → ρ) (other : String → Doc → ρ → Decoded ρ)
    (field? : String → Option ι) (accepts : Doc → Bool) (get? : ρ → ι → Option String) :
    Prop where
  complete : ∀ i, i ∈ is
  spelled : ∀ key i, field? key = some i ↔ key ∈ (slot i).name :: (slot i).aliases
  optional : ∀ i, (slot i).required = false
  read : ∀ i d r, (slot i).read d r = (optionalText d).map fun v => put i v r
  get?_put : ∀ i v r, get? (put i v r) = fun j => if j = i then v else get? r j
  skipped : ∀ key d r, accepts d = true → ∃ r', other key d r = .ok r' ∧ get? r' = get? r
  refused : ∀ key d r, accepts d = false → ∃ e, other key d r = .error e

namespace TakesTexts

variable [DecidableEq ι] {is : List ι} {slot : ι → Slot ρ} {put : ι → Option String → ρ → ρ}
  {other : String → Doc → ρ → Decoded ρ} {get? : ρ → ι → Option String} {ms : List Member}
  {names : List String} {key : String} {d : Doc} {r r' : ρ}
  (h : TakesTexts is slot put other field? accepts get?)

include h

theorem find?_slot (key : String) : Slot.find? (is.map slot) key = (field? key).map slot := by
  have hanswers : ∀ i, (slot i).answersTo key = true ↔ field? key = some i := fun i =>
    Slot.answersTo_iff.trans (h.spelled key i).symm
  rw [Slot.find?, List.find?_map]
  cases hfound : is.find? ((fun f => f.answersTo key) ∘ slot) with
  | some i =>
    have hi := List.find?_some hfound
    rw [(hanswers i).mp hi]
  | none =>
    have hnone : field? key = none := by
      refine Option.eq_none_iff_forall_ne_some.mpr fun i hi => ?_
      exact List.find?_eq_none.mp hfound i (h.complete i) ((hanswers i).mpr hi)
    rw [hnone]

theorem name_injective {i j : ι} (heq : (slot i).name = (slot j).name) : i = j := by
  have hi := (h.spelled (slot i).name i).mpr List.mem_cons_self
  have hj := (h.spelled (slot i).name j).mpr (heq ▸ List.mem_cons_self)
  exact Option.some.inj (hi.symm.trans hj)

theorem missing_slot (names : List String) : Slot.missing (is.map slot) names = .ok () := by
  have hnone : (is.map slot).find? (fun f => f.required && !names.contains f.name) = none := by
    refine List.find?_eq_none.mpr fun f hf => ?_
    obtain ⟨i, -, rfl⟩ := List.mem_map.mp hf
    simp [h.optional i]
  rw [Slot.missing, hnone]

theorem intoRecord_unknown_iff (hkey : field? key = none) :
    (Members.ofPairs ((some key, d) :: ms)).intoRecord (is.map slot) other names r = .ok r' ↔
      ∃ r₁, other key d r = .ok r₁ ∧
        (Members.ofPairs ms).intoRecord (is.map slot) other names r₁ = .ok r' := by
  rw [Members.ofPairs, Members.intoRecord, h.find?_slot, hkey]
  exact bind_eq_ok_iff

theorem intoRecord_field_iff {i : ι} (hkey : field? key = some i) :
    (Members.ofPairs ((some key, d) :: ms)).intoRecord (is.map slot) other names r = .ok r' ↔
      (slot i).name ∉ names ∧ ∃ v, optionalText d = .ok v ∧
        (Members.ofPairs ms).intoRecord (is.map slot) other ((slot i).name :: names) (put i v r) =
          .ok r' := by
  rw [Members.ofPairs, Members.intoRecord, h.find?_slot, hkey]
  by_cases hi : (slot i).name ∈ names
  · simp [hi, bind, Except.bind, throw, throwThe, MonadExceptOf.throw]
  · cases hd : optionalText d <;> simp [hi, h.read, hd, Except.map, bind, Except.bind]

/-- What comes of the members one after the other is what they come to as a whole. -/
theorem intoRecord_iff (ms : List Member) (seen : List ι) (r : ρ) (after : ι → Option String) :
    (∃ r', (Members.ofPairs ms).intoRecord (is.map slot) other (seen.map fun i => (slot i).name) r =
        .ok r' ∧ get? r' = after) ↔ Fills accepts seen (headed field? ms) (get? r) after := by
  induction ms generalizing seen r with
  | nil =>
    rw [headed, List.map_nil, Fills.nil_iff]
    simp only [Members.ofPairs, Members.intoRecord, h.missing_slot]
    constructor
    · rintro ⟨r', hr, rfl⟩
      rw [Except.ok.inj hr]
    · rintro rfl
      exact ⟨r, rfl, rfl⟩
  | cons m ms ih =>
    obtain ⟨key, d⟩ := m
    cases key with
    | none =>
      constructor
      · rintro ⟨r', hr, -⟩
        cases hr
      · intro hfills
        exact absurd hfills Fills.not_cons_broken
    | some key =>
      cases hkey : field? key with
      | none =>
        simp only [h.intoRecord_unknown_iff hkey]
        rw [headed_cons_unknown hkey, Fills.cons_unknown_iff]
        cases hd : accepts d with
        | false =>
          obtain ⟨e, he⟩ := h.refused key d r hd
          simp [he]
        | true =>
          obtain ⟨r₁, hr₁, hget⟩ := h.skipped key d r hd
          simp [hr₁, ih seen r₁, hget]
      | some i =>
        have hseen : (slot i).name ∈ seen.map (fun i => (slot i).name) ↔ i ∈ seen := by
          rw [List.mem_map]
          constructor
          · rintro ⟨j, hj, heq⟩
            exact h.name_injective heq ▸ hj
          · exact fun hi => ⟨i, hi, rfl⟩
        rw [headed_cons_field hkey, Fills.cons_field_iff]
        simp only [h.intoRecord_field_iff hkey, hseen, ← h.get?_put, ← ih (i :: seen),
          List.map_cons]
        constructor
        · rintro ⟨r', ⟨hfree, v, hv, hrest⟩, hafter⟩
          exact ⟨hfree, v, hv, r', hrest, hafter⟩
        · rintro ⟨hfree, v, hv, r', hrest, hafter⟩
          exact ⟨r', ⟨hfree, v, hv, hrest⟩, hafter⟩

end TakesTexts

end MailMerge.Json
