import MailMerge.Proofs.Seam

/-! # What a rendering is refused for

The checks go through the placeholders in one order, whatever the order is in which some of them are
required: first those without a value, then those whose value holds a marker. A value that passes is
left alone by every substitution, since a token is a marker.
-/

namespace MailMerge

/-- In the order of `Placeholder.all`, `p` is the first placeholder with `P`. -/
structure IsFirst (P : Placeholder → Prop) (p : Placeholder) : Prop where
  holds : P p
  le : ∀ q, P q → p.rank ≤ q.rank

namespace IsFirst

variable {P Q : Placeholder → Prop} {p : Placeholder}

theorem congr (h : ∀ q, P q ↔ Q q) : IsFirst P p ↔ IsFirst Q p := by
  rw [funext fun q => propext (h q)]

theorem iff_append : IsFirst P p ↔
    P p ∧ ∃ before after, Placeholder.all = before ++ p :: after ∧ ∀ q ∈ before, ¬ P q := by
  have hsorted : Placeholder.all.Pairwise fun p q => p.rank < q.rank := by decide
  constructor
  · rintro ⟨hp, hle⟩
    obtain ⟨before, after, hall⟩ := List.append_of_mem p.mem_all
    refine ⟨hp, before, after, hall, fun q hmem hq => ?_⟩
    have hlt := (List.pairwise_append.mp (hall ▸ hsorted)).2.2 q hmem p List.mem_cons_self
    exact absurd (hle q hq) (Nat.not_le.mpr hlt)
  · rintro ⟨hp, before, after, hall, hbefore⟩
    refine ⟨hp, fun q hq => ?_⟩
    have hafter := (List.pairwise_append.mp (hall ▸ hsorted)).2.1
    rcases List.mem_append.mp (hall ▸ q.mem_all) with hmem | hmem
    · exact absurd hq (hbefore q hmem)
    · rcases List.mem_cons.mp hmem with rfl | hmem
      · exact Nat.le_refl _
      · exact Nat.le_of_lt ((List.pairwise_cons.mp hafter).1 q hmem)

end IsFirst

namespace Placeholder

variable {p : Placeholder}

theorem find?_all_eq_some_iff {P : Placeholder → Bool} :
    all.find? P = some p ↔ IsFirst (P · = true) p := by
  rw [List.find?_eq_some_iff_append, IsFirst.iff_append]
  simp only [Bool.not_eq_true', Bool.not_eq_true]

theorem findSome?_all_eq_some_iff {α : Type} {g : Placeholder → Option α} {a : α} :
    all.findSome? g = some a ↔ ∃ p, IsFirst (fun q => (g q).isSome = true) p ∧ g p = some a := by
  simp only [List.findSome?_eq_some_iff, IsFirst.iff_append, Bool.not_eq_true,
    Option.isSome_eq_false_iff, Option.isNone_iff_eq_none]
  constructor
  · rintro ⟨before, p, after, hall, hp, hbefore⟩
    exact ⟨p, ⟨by rw [hp]; rfl, before, after, hall, hbefore⟩, hp⟩
  · rintro ⟨p, ⟨-, before, after, hall, hbefore⟩, hp⟩
    exact ⟨before, p, after, hall, hp, hbefore⟩

end Placeholder

section Checks

variable {required : List Placeholder} {t : Template} {f : Fragments} {p : Placeholder}
  {e : TemplateError} {v : String}

/-- A value is asked for and not given: `p` is required, its token is written in the document, and
what is supplied for it, if anything, is white space. -/
structure Lacks (required : List Placeholder) (t : Template) (f : Fragments) (p : Placeholder) :
    Prop where
  required : p ∈ required
  written : p.tokenChars <:+: t.html.toList
  blank : ∀ v, f.get? p = some v → ∀ c ∈ v.toList, isSpace c = true

/-- The value that is supplied for `p` holds a marker. -/
def Marked (f : Fragments) (p : Placeholder) : Prop :=
  ∃ v w, f.get? p = some v ∧ IsMarker w ∧ w <:+: v.toList

theorem lacks_iff : Lacks required t f p ↔
    (required.contains p && t.contains p && f.isBlankAt p) = true := by
  have hblank : f.isBlankAt p = true ↔
      ∀ v, f.get? p = some v → ∀ c ∈ v.toList, isSpace c = true := by
    unfold Fragments.isBlankAt
    cases f.get? p with
    | none => simp
    | some v => simp [isBlank_iff]
  rw [Bool.and_eq_true, Bool.and_eq_true, List.contains_iff_mem, Template.contains, occursIn_iff,
    hblank]
  exact ⟨fun h => ⟨⟨h.required, h.written⟩, h.blank⟩, fun h => ⟨h.1.1, h.1.2, h.2⟩⟩

theorem checkRequired_eq_error_iff : checkRequired required t f = .error e ↔
    ∃ p, IsFirst (Lacks required t f) p ∧ e = .valueRequired p := by
  simp only [IsFirst.congr fun q => lacks_iff (p := q), ← Placeholder.find?_all_eq_some_iff]
  unfold checkRequired
  generalize Placeholder.all.find? _ = found
  cases found with
  | none => simp
  | some p => simp [eq_comm]

theorem checkRequired_eq_ok_iff_not_lacks :
    checkRequired required t f = .ok () ↔ ∀ p, ¬ Lacks required t f p := by
  simp only [checkRequired_eq_ok_iff, lacks_iff, Bool.and_eq_true, List.contains_iff_mem, not_and,
    Bool.not_eq_true, and_imp]

theorem findMarker_isSome_iff :
    (findMarker v).isSome = true ↔ ∃ w, IsMarker w ∧ w <:+: v.toList := by
  rw [← Bool.not_eq_false, Option.isSome_eq_false_iff, Option.isNone_iff_eq_none,
    findMarker_eq_none_iff]
  simp only [Classical.not_forall, Classical.not_not, exists_prop]

theorem marked_iff : Marked f p ↔ ((f.get? p).bind findMarker).isSome = true := by
  unfold Marked
  cases f.get? p with
  | none => simp
  | some v => simp [findMarker_isSome_iff]

theorem findSome?_toList {α : Type} (h : Placeholder → String → Option α) :
    (f.toList.findSome? fun e => h e.1 e.2) =
      Placeholder.all.findSome? fun p => (f.get? p).bind (h p) := by
  unfold Fragments.toList
  induction Placeholder.all with
  | nil => rfl
  | cons p rest ih =>
    rw [List.filterMap_cons, List.findSome?_cons]
    cases f.get? p with
    | none => exact ih
    | some v => simp only [Option.map_some, List.findSome?_cons, Option.bind_some, ih]

theorem checkMisuse_eq_error_iff : checkMisuse f = .error e ↔
    ∃ p v m k, IsFirst (Marked f) p ∧ f.get? p = some v ∧ IsFirstMarker m.toList k v.toList ∧
      e = .unexpanded p.label m := by
  have hmarked : ∀ p, Marked f p ↔ ((f.get? p).bind fun v =>
      (findMarker v).map fun m => (p, m.1)).isSome = true := by
    intro p
    rw [marked_iff]
    cases f.get? p with
    | none => rfl
    | some v => simp
  have hsearch : checkMisuse f = .error e ↔ ∃ q m, (f.toList.findSome? fun e =>
      (findMarker e.2).map fun m => (e.1, m.1)) = some (q, m) ∧ e = .unexpanded q.label m := by
    unfold checkMisuse
    generalize f.toList.findSome? _ = found
    cases found with
    | none => simp
    | some e' =>
      obtain ⟨q, m⟩ := e'
      simp [eq_comm, and_assoc]
  simp only [hsearch, findSome?_toList fun p v => (findMarker v).map fun m => (p, m.1),
    Placeholder.findSome?_all_eq_some_iff, ← IsFirst.congr hmarked, ← findMarker_eq_some_iff]
  constructor
  · rintro ⟨q, m, ⟨p, hfirst, hfound⟩, rfl⟩
    obtain ⟨v, hv, hm⟩ := Option.bind_eq_some_iff.mp hfound
    obtain ⟨⟨m', k⟩, hmarker, heq⟩ := Option.map_eq_some_iff.mp hm
    obtain ⟨rfl, rfl⟩ := Prod.mk.inj heq
    exact ⟨p, v, m', k, hfirst, hv, hmarker, rfl⟩
  · rintro ⟨p, v, m, k, hfirst, hv, hmarker, rfl⟩
    exact ⟨p, m, ⟨p, hfirst, by simp [hv, hmarker]⟩, rfl⟩

theorem checkMisuse_eq_ok_iff_not_marked : checkMisuse f = .ok () ↔ ∀ p, ¬ Marked f p := by
  rw [checkMisuse_eq_ok_iff]
  constructor
  · rintro h p ⟨v, w, hv, hw, hinfix⟩
    exact h p v hv w hw hinfix
  · intro h p v hv w hw hinfix
    exact h p ⟨v, w, hv, hw, hinfix⟩

theorem exists_error_of_marked (h : Marked f p) :
    ∃ (q : Placeholder) (m : String), q.rank ≤ p.rank ∧
      checkMisuse f = .error (.unexpanded q.label m) := by
  cases hcheck : checkMisuse f with
  | ok => exact absurd h (checkMisuse_eq_ok_iff_not_marked.mp hcheck p)
  | error e =>
    obtain ⟨q, v, m, k, hfirst, -, -, rfl⟩ := checkMisuse_eq_error_iff.mp hcheck
    exact ⟨q, m, hfirst.le p h, rfl⟩

end Checks

section Substitution

variable {v : String}

theorem substitute_eq_self_iff :
    (∀ g, substitute v g = v) ↔ ∀ p : Placeholder, ¬ p.tokenChars <:+: v.toList :=
  Template.render_eq_html_iff (t := ⟨"", v⟩)

/-- In a text that some values change, a marker is found, and none of the tokens in the text starts
before it. -/
theorem exists_findMarker_of_changed {g : Fragments} (h : substitute v g ≠ v) :
    ∃ m k, findMarker v = some (m, k) ∧ ∀ (p : Placeholder) j,
      WrittenAt p.tokenChars j v.toList → k ≤ j := by
  cases hfound : findMarker v with
  | none =>
    have hnone : ∀ p : Placeholder, ¬ p.tokenChars <:+: v.toList :=
      fun p => findMarker_eq_none_iff.mp hfound _ p.isMarker_tokenChars
    exact absurd (substitute_eq_self_iff.mpr hnone g) h
  | some found =>
    obtain ⟨m, k⟩ := found
    have hfirst := findMarker_eq_some_iff.mp hfound
    exact ⟨m, k, rfl, fun p j hj => hfirst.le _ j p.isMarker_tokenChars hj⟩

/-- The check for markers and substitution agree on what a token is. A text that some values change
holds a marker, at or before its first token, and values that supply such a text are refused. Values
that pass the check supply texts that no values change. -/
theorem misuse_covers_substitution :
    (∀ v, (∃ g, substitute v g ≠ v) →
      (∃ m k, findMarker v = some (m, k) ∧ ∀ (p : Placeholder) j,
        WrittenAt p.tokenChars j v.toList → k ≤ j) ∧
      ∀ (f : Fragments) p, f.get? p = some v → ∃ (q : Placeholder) (m : String), q.rank ≤ p.rank ∧
        checkMisuse f = .error (.unexpanded q.label m)) ∧
    ∀ (f : Fragments), checkMisuse f = .ok () → ∀ p v, f.get? p = some v →
      ∀ g, substitute v g = v := by
  have hrefused : ∀ (v : String) g (f : Fragments) p, substitute v g ≠ v → f.get? p = some v →
      ∃ (q : Placeholder) (m : String), q.rank ≤ p.rank ∧
        checkMisuse f = .error (.unexpanded q.label m) := by
    intro v g f p hchanged hv
    obtain ⟨m, k, hfound, -⟩ := exists_findMarker_of_changed hchanged
    exact exists_error_of_marked (marked_iff.mpr (by simp [hv, hfound]))
  constructor
  · rintro v ⟨g, hchanged⟩
    exact ⟨exists_findMarker_of_changed hchanged, fun f p hv => hrefused v g f p hchanged hv⟩
  · intro f hcheck p v hv g
    refine Classical.byContradiction fun hchanged => ?_
    obtain ⟨q, m, -, herror⟩ := hrefused v g f p hchanged hv
    rw [hcheck] at herror
    cases herror

end Substitution

section Law

variable {required : List Placeholder} {t : Template} {f : Fragments} {e : TemplateError}
  {out : Except TemplateError String}

/-- What comes of a rendering. A value that lacks is told before one that is marked, and of several
the first is told. -/
inductive Verdict (required : List Placeholder) (t : Template) (f : Fragments) :
    Except TemplateError String → Prop
  | lacking {p} (first : IsFirst (Lacks required t f) p) :
      Verdict required t f (.error (.valueRequired p))
  | marked {p v m k} (none_lacks : ∀ q, ¬ Lacks required t f q) (first : IsFirst (Marked f) p)
      (supplied : f.get? p = some v) (leftmost : IsFirstMarker m.toList k v.toList) :
      Verdict required t f (.error (.unexpanded p.label m))
  | filled (none_lacks : ∀ q, ¬ Lacks required t f q) (none_marked : ∀ q, ¬ Marked f q) :
      Verdict required t f (.ok (substitute t.html f))

theorem renderTemplate_eq_error_iff : renderTemplate required t f = .error e ↔
    checkRequired required t f = .error e ∨
      checkRequired required t f = .ok () ∧ checkMisuse f = .error e := by
  unfold renderTemplate
  rcases checkRequired required t f with e' | ⟨⟩
  · simp [bind, Except.bind]
  · rcases checkMisuse f with e' | ⟨⟩
    · simp [bind, Except.bind]
    · simp [bind, Except.bind, pure, Except.pure]

theorem renderTemplate_eq_iff_verdict :
    renderTemplate required t f = out ↔ Verdict required t f out := by
  constructor
  · intro h
    cases out with
    | ok html =>
      obtain ⟨hrequired, hmisuse, rfl⟩ := renderTemplate_eq_ok_iff.mp h
      exact .filled (checkRequired_eq_ok_iff_not_lacks.mp hrequired)
        (checkMisuse_eq_ok_iff_not_marked.mp hmisuse)
    | error e =>
      rcases renderTemplate_eq_error_iff.mp h with hrequired | ⟨hrequired, hmisuse⟩
      · obtain ⟨p, hfirst, rfl⟩ := checkRequired_eq_error_iff.mp hrequired
        exact .lacking hfirst
      · obtain ⟨p, v, m, k, hfirst, hv, hm, rfl⟩ := checkMisuse_eq_error_iff.mp hmisuse
        exact .marked (checkRequired_eq_ok_iff_not_lacks.mp hrequired) hfirst hv hm
  · intro h
    cases h with
    | lacking first =>
      exact renderTemplate_eq_error_iff.mpr (.inl (checkRequired_eq_error_iff.mpr ⟨_, first, rfl⟩))
    | marked none_lacks first supplied leftmost =>
      exact renderTemplate_eq_error_iff.mpr (.inr
        ⟨checkRequired_eq_ok_iff_not_lacks.mpr none_lacks,
          checkMisuse_eq_error_iff.mpr ⟨_, _, _, _, first, supplied, leftmost, rfl⟩⟩)
    | filled none_lacks none_marked =>
      exact renderTemplate_eq_ok_iff.mpr ⟨checkRequired_eq_ok_iff_not_lacks.mpr none_lacks,
        checkMisuse_eq_ok_iff_not_marked.mpr none_marked, rfl⟩

theorem exists_valueRequired_iff : (∃ p, renderTemplate required t f = .error (.valueRequired p)) ↔
    ∃ p, Lacks required t f p := by
  constructor
  · rintro ⟨p, h⟩
    cases renderTemplate_eq_iff_verdict.mp h with
    | lacking first => exact ⟨p, first.holds⟩
  · rintro ⟨p, hp⟩
    cases hcheck : checkRequired required t f with
    | ok => exact absurd hp (checkRequired_eq_ok_iff_not_lacks.mp hcheck p)
    | error e =>
      obtain ⟨q, -, rfl⟩ := checkRequired_eq_error_iff.mp hcheck
      exact ⟨q, renderTemplate_eq_error_iff.mpr (.inl hcheck)⟩

theorem exists_unexpanded_iff :
    (∃ field m, renderTemplate required t f = .error (.unexpanded field m)) ↔
      (∀ p, ¬ Lacks required t f p) ∧ ∃ p, Marked f p := by
  constructor
  · rintro ⟨field, m, h⟩
    cases renderTemplate_eq_iff_verdict.mp h with
    | marked none_lacks first => exact ⟨none_lacks, _, first.holds⟩
  · rintro ⟨hnone, p, hp⟩
    obtain ⟨q, m, -, hcheck⟩ := exists_error_of_marked hp
    exact ⟨q.label, m, renderTemplate_eq_error_iff.mpr
      (.inr ⟨checkRequired_eq_ok_iff_not_lacks.mpr hnone, hcheck⟩)⟩

/-- The verdict takes the required placeholders as a set. A rendering is refused for a value that
lacks if there is one; else for a marker if some value holds one, also a value whose token is not in
the document; and is else the document with its tokens filled in. Of several values the first in the
order of the placeholders is told, and of several markers in it the leftmost. -/
theorem renderTemplate_decides (required : List Placeholder) (t : Template) (f : Fragments) :
    (∀ required' : List Placeholder, (∀ p, p ∈ required' ↔ p ∈ required) →
      renderTemplate required' t f = renderTemplate required t f) ∧
    (∀ out, renderTemplate required t f = out ↔ Verdict required t f out) ∧
    ((∃ p, renderTemplate required t f = .error (.valueRequired p)) ↔
      ∃ p, Lacks required t f p) ∧
    ((∃ field m, renderTemplate required t f = .error (.unexpanded field m)) ↔
      (∀ p, ¬ Lacks required t f p) ∧ ∃ p, Marked f p) ∧
    ((∃ html, renderTemplate required t f = .ok html) ↔
      (∀ p, ¬ Lacks required t f p) ∧ ∀ p, ¬ Marked f p) := by
  refine ⟨?_, fun out => renderTemplate_eq_iff_verdict, exists_valueRequired_iff,
    exists_unexpanded_iff, ?_⟩
  · intro required' hsame
    have hcheck : checkRequired required' t f = checkRequired required t f := by
      unfold checkRequired
      simp only [List.contains_eq_mem, hsame]
    unfold renderTemplate
    rw [hcheck]
  · constructor
    · rintro ⟨html, h⟩
      cases renderTemplate_eq_iff_verdict.mp h with
      | filled none_lacks none_marked => exact ⟨none_lacks, none_marked⟩
    · rintro ⟨hlacks, hmarked⟩
      exact ⟨_, renderTemplate_eq_iff_verdict.mpr (.filled hlacks hmarked)⟩

/-- The body is asked for before the marker in the header is told, although it comes after it. -/
example : renderTemplate [.senderName, .body, .senderName] ⟨"t", "%%EMAIL_BODY%%"⟩
    { header := some "%%EMAIL_X%%", body := some " " } = .error (.valueRequired .body) := by
  rfl

end Law

end MailMerge
