import MailMerge.Proofs.Yaml.Block
import MailMerge.Proofs.Yaml.Quoted

/-! # Styles of written texts

What the style of a text tells about the text, and what is written in each style: printable
characters, which begin with a token.
-/

namespace MailMerge.Yaml

variable {c : Char} {cs : List Char} {indent : Nat}

theorem of_style_plain (h : Style.of cs = .plain) :
    looksTyped cs = false ∧ isPlainAllowed cs = true := by
  unfold Style.of at h
  split at h
  · split at h <;> exact nomatch h
  · split at h
    · rename_i hplain
      simpa using hplain
    · split at h <;> exact nomatch h

theorem of_style_single (h : Style.of cs = .single) : '\n' ∉ cs ∧ isSingleAllowed cs = true := by
  unfold Style.of at h
  split at h
  · split at h <;> exact nomatch h
  · rename_i hline
    split at h
    · exact nomatch h
    · split at h
      · rename_i hsingle
        exact ⟨by simpa using hline, hsingle⟩
      · exact nomatch h

theorem of_style_block (h : Style.of cs = .block) : '\n' ∈ cs ∧ isBlockAllowed cs = true := by
  unfold Style.of at h
  split at h
  · rename_i hline
    split at h
    · rename_i hblock
      exact ⟨by simpa using hline, hblock⟩
    · exact nomatch h
  · split at h
    · exact nomatch h
    · split at h <;> exact nomatch h

theorem printable_of_not_needsEscapes (h : needsEscapes cs = false) :
    ∀ c ∈ cs, isPrintable c = true := by
  simp only [needsEscapes, Bool.or_eq_false_iff] at h
  exact fun c hc => by simpa using List.any_eq_false.mp h.2 c hc

theorem not_needsEscapes_of_plain (h : isPlainAllowed cs = true) : needsEscapes cs = false := by
  simp only [isPlainAllowed, Bool.not_eq_true', Bool.or_eq_false_iff] at h
  exact h.1.1.1.2

theorem isSingle_of_isSingleAllowed (h : isSingleAllowed cs = true) (hline : '\n' ∉ cs) :
    IsSingle cs := by
  simp only [isSingleAllowed, Bool.not_eq_true', Bool.or_eq_false_iff] at h
  have hescapes := h.1
  simp only [needsEscapes, Bool.or_eq_false_iff] at hescapes
  exact ⟨printable_of_not_needsEscapes h.1, hline, hescapes.1, h.2⟩

theorem not_needsEscapes_of_block (h : isBlockAllowed cs = true) : needsEscapes cs = false := by
  simp only [isBlockAllowed, Bool.not_eq_true', Bool.or_eq_false_iff] at h
  exact h.1

theorem printable_spaces : ∀ c ∈ spaces indent, isPrintable c = true := by
  intro c hc
  rw [mem_spaces hc]
  decide

theorem printable_append {ds : List Char} (hcs : ∀ c ∈ cs, isPrintable c = true)
    (hds : ∀ c ∈ ds, isPrintable c = true) : ∀ c ∈ cs ++ ds, isPrintable c = true :=
  List.forall_mem_append.mpr ⟨hcs, hds⟩

theorem printable_writeSingle (fresh : Bool) (h : ∀ c ∈ cs, isPrintable c = true) :
    ∀ c ∈ writeSingle indent fresh cs, isPrintable c = true := by
  have hindent (fresh : Bool) : ∀ c ∈ (if fresh then spaces indent else []),
      isPrintable c = true := by
    cases fresh
    · simp
    · exact printable_spaces
  induction cs generalizing fresh with
  | nil => exact printable_append (hindent fresh) (by decide)
  | cons c cs ih =>
    obtain ⟨hc, hcs⟩ := List.forall_mem_cons.mp h
    rw [writeSingle]
    split
    · exact List.forall_mem_cons.mpr ⟨hc, ih true hcs⟩
    · split
      · exact List.forall_mem_cons.mpr ⟨hc, ih fresh hcs⟩
      · refine printable_append (printable_append (hindent fresh) ?_) (ih false hcs)
        split <;> simp [hc]

theorem printable_write (size n : Nat) :
    ∀ c ∈ Hexadecimal.write Hexadecimal.upper size n, isPrintable c = true := by
  have hdigit : ∀ k < 16, isPrintable (Hexadecimal.upper k) = true := by decide
  induction size generalizing n with
  | zero => simp [Hexadecimal.write]
  | succ size ih =>
    rw [Hexadecimal.write]
    exact printable_append (ih _) (by simpa using hdigit _ (Nat.mod_lt _ (by decide)))

theorem printable_escapeChar (c : Char) : ∀ d ∈ escapeChar c, isPrintable d = true := by
  have hslash : isPrintable '\\' = true := by decide
  rcases escapeChar_cases c with ⟨letter, heq, -, hletter, -⟩ | ⟨heq, hprint, -⟩ |
    ⟨mark, size, heq, hmark, -⟩
  · rw [heq]
    simp [hslash, hletter]
  · rw [heq]
    simpa using hprint
  · have hmark : isPrintable mark = true := by
      simp only [List.mem_cons, Prod.mk.injEq, List.not_mem_nil, or_false] at hmark
      rcases hmark with ⟨rfl, -⟩ | ⟨rfl, -⟩ | ⟨rfl, -⟩ <;> decide
    rw [heq]
    exact List.forall_mem_cons.mpr ⟨hslash, List.forall_mem_cons.mpr ⟨hmark, printable_write _ _⟩⟩

theorem printable_blockSigns (cs : List Char) : ∀ c ∈ blockSigns cs, isPrintable c = true := by
  rw [blockSigns_eq]
  cases isIndented cs <;> cases Chomp.of cs <;> decide

theorem printable_writeLines (fresh : Bool) (h : ∀ c ∈ cs, isPrintable c = true) :
    ∀ c ∈ writeLines indent fresh cs, isPrintable c = true := by
  induction cs generalizing fresh with
  | nil => simp [writeLines]
  | cons c cs ih =>
    obtain ⟨hc, hcs⟩ := List.forall_mem_cons.mp h
    rw [writeLines]
    split
    · exact List.forall_mem_cons.mpr ⟨hc, ih true hcs⟩
    · refine printable_append ?_ (List.forall_mem_cons.mpr ⟨hc, ih false hcs⟩)
      split
      · exact printable_spaces
      · simp

/-- Whatever a text holds, it is written in printable characters. -/
theorem printable_writeText (indent : Nat) (s : String) :
    ∀ c ∈ writeText indent s, isPrintable c = true := by
  have hline : ∀ c ∈ ['\n'], isPrintable c = true := by decide
  rw [writeText]
  cases hstyle : Style.of s.toList with
  | plain =>
    exact printable_append (printable_of_not_needsEscapes
      (not_needsEscapes_of_plain (of_style_plain hstyle).2)) hline
  | single =>
    have hprint := (isSingle_of_isSingleAllowed (of_style_single hstyle).2
      (of_style_single hstyle).1).printable
    exact printable_append
      (List.forall_mem_cons.mpr ⟨by decide, printable_writeSingle false hprint⟩)
      hline
  | double =>
    refine printable_append (List.forall_mem_cons.mpr ⟨by decide, fun c hc => ?_⟩) (by decide)
    obtain ⟨d, -, hd⟩ := List.mem_flatMap.mp hc
    exact printable_escapeChar d c hd
  | block =>
    have hprint := printable_of_not_needsEscapes
      (not_needsEscapes_of_block (of_style_block hstyle).2)
    refine printable_append (printable_append (printable_append (printable_append (by decide)
      (printable_blockSigns _)) hline) (printable_writeLines true hprint)) ?_
    split
    · simp
    · exact hline

theorem ne_nil_of_style_plain (h : Style.of cs = .plain) : cs ≠ [] := by
  rintro rfl
  exact absurd (of_style_plain h).1 (by decide)

theorem ne_nil_of_style_block (h : Style.of cs = .block) : cs ≠ [] := by
  rintro rfl
  exact absurd (of_style_block h).1 (by simp)

theorem startsToken_writeText (indent : Nat) (s : String) (rest : List Char) :
    startsToken (writeText indent s ++ rest) = true := by
  rw [writeText]
  cases hstyle : Style.of s.toList with
  | plain =>
    have hplain := isPlain_of_isPlainAllowed (of_style_plain hstyle).2
    have hprint := printable_of_not_needsEscapes
      (not_needsEscapes_of_plain (of_style_plain hstyle).2)
    obtain ⟨c, cs, hcs⟩ := List.exists_cons_of_ne_nil (ne_nil_of_style_plain hstyle)
    rw [hcs] at hplain hprint ⊢
    have hgap := hplain.head_gap c rfl
    have hhash : c ≠ '#' := fun hc => hplain.head_hash (by rw [hc]; rfl)
    have hmark : c ≠ byteOrderMark := ne_of_isPrintable (hprint c List.mem_cons_self) (by decide)
    simp [startsToken, hgap, hhash, hmark]
  | single => rfl
  | double => rfl
  | block => rfl

end MailMerge.Yaml
