import MailMerge.Proofs.Dependence
import MailMerge.Proofs.Marker

/-! # Tokens in a rendered email

An email is put together from the literals of a document and the values between them. No token is
written inside one of these pieces, so one that is written in the email lies across a seam.
-/

namespace MailMerge

/-- Where `w` is written in a text put together from pieces, and in none of the pieces, two of them
meet inside `w`. -/
theorem exists_seam {chunks : List (List Char)} {w x y : List Char} (hw : w ≠ [])
    (hchunks : ∀ c ∈ chunks, ¬ w <:+: c) (h : chunks.flatten = x ++ w ++ y) :
    ∃ before after, chunks = before ++ after ∧ x.length < before.flatten.length ∧
      before.flatten.length < (x ++ w).length := by
  induction chunks generalizing x with
  | nil =>
    have hnil := (List.append_eq_nil_iff.mp h.symm).1
    exact absurd (List.append_eq_nil_iff.mp hnil).2 hw
  | cons c cs ih =>
    rw [List.flatten_cons] at h
    have hc : c <+: x ++ w ++ y := ⟨cs.flatten, h⟩
    rcases Nat.lt_or_ge x.length c.length with hlt | hle
    · have hend : c.length < (x ++ w).length := by
        refine Nat.not_le.mp fun hlong => ?_
        obtain ⟨b, hb⟩ := List.prefix_of_prefix_length_le (List.prefix_append _ y) hc hlong
        exact hchunks c List.mem_cons_self ⟨x, b, hb⟩
      exact ⟨[c], cs, rfl, by simpa using hlt, by simpa using hend⟩
    · have hx : x <+: x ++ w ++ y := ⟨w ++ y, (List.append_assoc _ _ _).symm⟩
      obtain ⟨x', rfl⟩ := List.prefix_of_prefix_length_le hc hx hle
      simp only [List.append_assoc, List.append_cancel_left_eq] at h
      obtain ⟨before, after, rfl, hstart, hend⟩ :=
        ih (fun c hc => hchunks c (List.mem_cons_of_mem _ hc)) (by rw [h, List.append_assoc])
      refine ⟨c :: before, after, rfl, ?_, ?_⟩
      · simpa using hstart
      · simpa [Nat.add_assoc] using hend

namespace Segmentation

variable {parts : List (List Char × Placeholder)} {last : List Char} {f : Fragments}

/-- The pieces of an email: the literals of the document and, between them, the values that take
the places of its tokens. -/
def chunks (f : Fragments) (s : Segmentation) : List (List Char) :=
  (s.parts.flatMap fun e => [e.1, (f.textFor e.2).toList]) ++ [s.last]

theorem flatten_chunks (f : Fragments) (s : Segmentation) : (s.chunks f).flatten = s.fill f := by
  obtain ⟨parts, last⟩ := s
  induction parts with
  | nil => simp [chunks, fill]
  | cons e rest ih =>
    simp only [chunks, fill, Fragments.textFor, List.flatMap_cons, List.flatten_append,
      List.append_assoc] at ih ⊢
    rw [ih]
    simp

theorem tokenAt_of_written {text : List Char} {p : Placeholder} {x y : List Char}
    (h : x ++ p.tokenChars ++ y = text) (rest : List Char) :
    x.length < text.length ∧ TokenAt (text ++ rest) x.length := by
  have hpos := List.length_pos_iff.mpr p.tokenChars_ne_nil
  subst h
  constructor
  · simp only [List.length_append]
    omega
  · refine ⟨p, ?_⟩
    rw [List.append_assoc, List.append_assoc, List.drop_left]
    exact List.prefix_append _ _

theorem not_infix_literal (h : FirstTaken parts last) {e : List Char × Placeholder}
    (he : e ∈ parts) (p : Placeholder) : ¬ p.tokenChars <:+: e.1 := by
  induction parts with
  | nil => simp at he
  | cons e' rest ih =>
    obtain ⟨hhead, hrest⟩ := h
    rcases List.mem_cons.mp he with rfl | he
    · rintro ⟨x, y, heq⟩
      obtain ⟨hlt, htoken⟩ := tokenAt_of_written heq (e.2.tokenChars ++ covered rest ++ last)
      refine hhead x.length hlt ?_
      simpa using htoken
    · exact ih hrest he

theorem not_infix_last (h : FirstTaken parts last) (p : Placeholder) :
    ¬ p.tokenChars <:+: last := by
  induction parts with
  | nil =>
    rintro ⟨x, y, heq⟩
    have htoken := (tokenAt_of_written heq []).2
    rw [List.append_nil] at htoken
    exact h _ htoken
  | cons e rest ih => exact ih h.2

/-- No token is written inside a piece of an email whose values hold no marker. -/
theorem not_infix_of_mem_chunks {s : Segmentation} (h : FirstTaken s.parts s.last)
    (hf : checkMisuse f = .ok ()) {c : List Char} (hc : c ∈ s.chunks f) (p : Placeholder) :
    ¬ p.tokenChars <:+: c := by
  simp only [chunks, List.mem_append, List.mem_flatMap, List.mem_cons, List.not_mem_nil,
    or_false] at hc
  rcases hc with ⟨e, he, rfl | rfl⟩ | rfl
  · exact not_infix_literal h he p
  · cases hv : f.get? e.2 with
    | none =>
      simp only [Fragments.textFor, hv, Option.getD_none]
      intro hinfix
      exact p.tokenChars_ne_nil (List.infix_nil.mp hinfix)
    | some v =>
      simp only [Fragments.textFor, hv, Option.getD_some]
      exact checkMisuse_eq_ok_iff.mp hf e.2 v hv _ p.isMarker_tokenChars
  · exact not_infix_last h p

end Segmentation

theorem renderTemplate_eq_ok_iff {required : List Placeholder} {t : Template} {f : Fragments}
    {html : String} : renderTemplate required t f = .ok html ↔
      checkRequired required t f = .ok () ∧ checkMisuse f = .ok () ∧ t.render f = html := by
  unfold renderTemplate
  rcases checkRequired required t f with e | ⟨⟩
  · simp [bind, Except.bind]
  · rcases checkMisuse f with e | ⟨⟩
    · simp [bind, Except.bind]
    · simp [bind, Except.bind, pure, Except.pure]

namespace Template

variable {t : Template}

theorem render_eq_html (h : ∀ p : Placeholder, ¬ p.tokenChars <:+: t.html.toList)
    (f : Fragments) : t.render f = t.html := by
  have hparts : t.segmentation.parts = [] := by
    refine List.eq_nil_iff_forall_not_mem.mpr fun e he => ?_
    have hdepends : t.DependsOn e.2 := dependsOn_iff_mem.mpr (List.mem_map_of_mem he)
    have hcontains := contains_iff_dependsOn_or.mpr (.inl hdepends)
    exact h e.2 (occursIn_iff.mp hcontains)
  have htext := t.text_segmentation
  refine String.toList_injective ?_
  rw [toList_render, ← htext, hparts]
  simp [Segmentation.fill, hparts]

/-- Rendering leaves a document as it is, whatever the values are, if no token is written in it, and
only then. -/
theorem render_eq_html_iff :
    (∀ f, t.render f = t.html) ↔ ∀ p : Placeholder, ¬ p.tokenChars <:+: t.html.toList := by
  constructor
  · intro h p hp
    have hsame : ∀ q, ¬ t.DependsOn q := by
      rintro q ⟨f, v, w, hne⟩
      exact hne ((h _).trans (h _).symm)
    rcases contains_iff_dependsOn_or.mp (occursIn_iff.mpr hp) with hdepends | ⟨i, -, s, hs, hends⟩
    · exact hsame p hdepends
    · obtain ⟨q, j, hq, -⟩ := hends
      rw [eq_segmentation_of_cuts hs] at hq
      exact hsame q (dependsOn_iff_mem.mpr (Segmentation.exists_takesAt_iff.mp ⟨j, hq⟩))
  · intro h f
    exact render_eq_html h f

/-- A token that is written in a rendered email lies inside no literal of the document and inside no
value: two of these pieces meet within it. To render the email again changes nothing, whatever the
values are, exactly if there is no such token. -/
theorem seam_in_token {required : List Placeholder} {f : Fragments} {html : String}
    (h : renderTemplate required t f = .ok html) :
    ∃ s : Segmentation, s.Cuts t.html.toList ∧ html.toList = (s.chunks f).flatten ∧
      (∀ (p : Placeholder) (x y : List Char), html.toList = x ++ p.tokenChars ++ y →
        ∃ before after, s.chunks f = before ++ after ∧ x.length < before.flatten.length ∧
          before.flatten.length < (x ++ p.tokenChars).length) ∧
      ((∀ g, (Template.mk t.name html).render g = html) ↔
        ∀ p : Placeholder, ¬ p.tokenChars <:+: html.toList) := by
  obtain ⟨-, hmisuse, rfl⟩ := renderTemplate_eq_ok_iff.mp h
  have htext : (t.render f).toList = (t.segmentation.chunks f).flatten := by
    rw [toList_render, Segmentation.flatten_chunks]
  refine ⟨t.segmentation, ?_, htext, ?_, render_eq_html_iff⟩
  · exact Segmentation.cuts_iff_firstTaken.mpr ⟨t.text_segmentation, t.firstTaken_segmentation⟩
  · intro p x y hxy
    have hchunks : ∀ c ∈ t.segmentation.chunks f, ¬ p.tokenChars <:+: c := by
      intro c hc
      exact Segmentation.not_infix_of_mem_chunks t.firstTaken_segmentation hmisuse hc p
    exact exists_seam p.tokenChars_ne_nil hchunks (htext.symm.trans hxy)

/-- Where no token arises at a seam, the email stays as it is when it is rendered again. -/
theorem render_again_sample :
    let t : Template := ⟨"t", "<p>%%EMAIL_BODY%%</p>"⟩
    renderTemplate defaultRequired t { body := some "B" } = .ok "<p>B</p>" ∧
      ∀ g, (Template.mk "t" "<p>B</p>").render g = "<p>B</p>" := by
  intro t
  have hrender : renderTemplate defaultRequired t { body := some "B" } = .ok "<p>B</p>" :=
    renderTemplate_eq_ok_iff.mpr ⟨checkRequired_eq_ok_iff.mpr (by decide), rfl, by decide⟩
  obtain ⟨s, -, -, -, hagain⟩ := seam_in_token hrender
  refine ⟨hrender, hagain.mpr fun p hp => ?_⟩
  have hnone : occursIn p.tokenChars "<p>B</p>".toList = false := by cases p <;> decide
  rw [occursIn_iff.mpr hp] at hnone
  exact absurd hnone (by decide)

/-- A value that is missing joins the literals around its token, and they make a token. -/
theorem token_at_seam :
    let t : Template := ⟨"t", "%%EMAIL_BO%%EMAIL_HEADER%%DY%%"⟩
    renderTemplate defaultRequired t {} = .ok "%%EMAIL_BODY%%" ∧
      Placeholder.body.tokenChars <:+: "%%EMAIL_BODY%%".toList ∧
      (Template.mk "t" "%%EMAIL_BODY%%").render { body := some "B" } ≠ "%%EMAIL_BODY%%" := by
  intro t
  refine ⟨renderTemplate_eq_ok_iff.mpr ⟨?_, rfl, ?_⟩, occursIn_iff.mp ?_, ?_⟩
  · exact checkRequired_eq_ok_iff.mpr (by decide)
  · decide
  · decide
  · decide

end Template

end MailMerge
