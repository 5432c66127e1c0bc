import MailMerge.Json.Decode
import MailMerge.Json.Printer
import MailMerge.Proofs.Json.Grammar
import MailMerge.Proofs.Text.Hexadecimal

/-! # JSON read back

A document that holds no numbers is written as the grammar has it, so reading gives it back. A text
is written character by character, and each of them is one unit.
-/

namespace MailMerge.Json

section Texts

variable {us : List Nat} {w : List Char}

theorem spellsUnits_quoteChar (c : Char) (h : SpellsUnits us w) :
    SpellsUnits (c.toNat :: us) (quoteChar c ++ w) := by
  unfold quoteChar
  split
  · rename_i hescape
    rcases hescape with rfl | rfl <;> exact .escape rfl h
  · rename_i hplain
    obtain ⟨hquote, hslash⟩ := not_or.mp hplain
    split
    · exact .escape (‹c = _› ▸ rfl) h
    split
    · exact .escape (‹c = _› ▸ rfl) h
    split
    · exact .escape (‹c = _› ▸ rfl) h
    split
    · exact .escape (‹c = _› ▸ rfl) h
    split
    · exact .escape (‹c = _› ▸ rfl) h
    split
    · have hlt : c.toNat < 16 ^ 4 := Nat.lt_trans ‹c.toNat < 0x20› (by decide)
      exact .code (Hexadecimal.read?_write_of_lt Hexadecimal.value?_lower hlt) h
    · exact .plain hquote hslash (Nat.not_lt.mp ‹¬ c.toNat < 0x20›) h

theorem spellsUnits_flatMap (cs : List Char) :
    SpellsUnits (cs.map Char.toNat) (cs.flatMap quoteChar) := by
  induction cs with
  | nil => exact .nil
  | cons c cs ih =>
    rw [List.map_cons, List.flatMap_cons]
    exact spellsUnits_quoteChar c ih

theorem not_isHalf (c : Char) : isLeading c.toNat = false ∧ isTrailing c.toNat = false := by
  have hvalid : c.toNat.isValidChar := c.valid
  simp only [isLeading, isTrailing, Bool.and_eq_false_iff, decide_eq_false_iff_not]
  rcases hvalid with h | ⟨h, -⟩ <;> omega

theorem joinUnits_map_toNat (cs : List Char) : joinUnits (cs.map Char.toNat) = some cs := by
  induction cs with
  | nil => rfl
  | cons c cs ih =>
    obtain ⟨hleading, htrailing⟩ := not_isHalf c
    cases cs with
    | nil => simp [joinUnits, hleading, htrailing]
    | cons d cs =>
      rw [List.map_cons, List.map_cons] at *
      rw [joinUnits, hleading, htrailing, ih]
      simp

theorem spellsText_quote (s : String) : SpellsText (some s) (quote s) := by
  have htext := SpellsText.mk (spellsUnits_flatMap s.toList)
  rwa [joinUnits_map_toNat, Option.map_some, String.ofList_toList] at htext

end Texts

section Documents

mutual

/-- No number and no break is a part of the document, and every text is one. -/
def Doc.isTextual : Doc → Bool
  | .null | .bool _ | .text (some _) => true
  | .array items => items.isTextual
  | .object members => members.isTextual
  | .number _ | .text none | .broken => false

def Items.isTextual : Items → Bool
  | .closed => true
  | .cut => false
  | .cons head tail => head.isTextual && tail.isTextual

def Members.isTextual : Members → Bool
  | .closed => true
  | .cut _ => false
  | .cons name value tail => name.isSome && value.isTextual && tail.isTextual

end

mutual

theorem spells_compact (d : Doc) (h : d.isTextual = true) : Spells d d.compact := by
  cases d with
  | null => exact .null
  | bool b =>
    cases b with
    | true => exact .yes
    | false => exact .no
  | number n => simp [Doc.isTextual] at h
  | text s =>
    cases s with
    | none => simp [Doc.isTextual] at h
    | some s => exact .text (spellsText_quote s)
  | array items =>
    rw [Doc.compact]
    rcases Classical.em (items = .closed) with rfl | hne
    · exact .emptyArray isGap_nil
    · obtain ⟨w, hw, hcompact⟩ := spellsItems_compact items h hne
      rw [hcompact]
      exact .array hw
  | object members =>
    rw [Doc.compact]
    rcases Classical.em (members = .closed) with rfl | hne
    · exact .emptyObject isGap_nil
    · obtain ⟨w, hw, hcompact⟩ := spellsMembers_compact members h hne
      rw [hcompact]
      exact .object hw
  | broken => simp [Doc.isTextual] at h

theorem spellsItems_compact (items : Items) (h : items.isTextual = true) (hne : items ≠ .closed) :
    ∃ w, SpellsItems items w ∧
      ∀ first, items.compact first = (if first then [] else [',']) ++ (w ++ [']']) := by
  cases items with
  | closed => exact absurd rfl hne
  | cut => simp [Items.isTextual] at h
  | cons head tail =>
    obtain ⟨hhead, htail⟩ := Bool.and_eq_true_iff.mp h
    have hitem : SpellsItem head head.compact := by
      have hpadded := SpellsItem.mk isGap_nil (spells_compact head hhead) isGap_nil
      rwa [List.nil_append, List.append_nil] at hpadded
    rcases Classical.em (tail = .closed) with rfl | hne'
    · exact ⟨_, .last hitem, fun first => by simp [Items.compact]⟩
    · obtain ⟨w, hw, hcompact⟩ := spellsItems_compact tail htail hne'
      refine ⟨_, .cons hitem hw, fun first => ?_⟩
      rw [Items.compact, hcompact]
      simp

theorem spellsMembers_compact (members : Members) (h : members.isTextual = true)
    (hne : members ≠ .closed) :
    ∃ w, SpellsMembers members w ∧
      ∀ first, members.compact first = (if first then [] else [',']) ++ (w ++ ['\x7D']) := by
  cases members with
  | closed => exact absurd rfl hne
  | cut name => simp [Members.isTextual] at h
  | cons name value tail =>
    cases name with
    | none => simp [Members.isTextual] at h
    | some name =>
      obtain ⟨hvalue, htail⟩ := Bool.and_eq_true_iff.mp h
      have hmember : SpellsMember (some name) value (quote name ++ ':' :: value.compact) := by
        have hpadded := SpellsMember.mk isGap_nil (spellsText_quote name) isGap_nil
          (.mk isGap_nil (spells_compact value hvalue) isGap_nil)
        rwa [List.nil_append, List.nil_append, List.nil_append, List.append_nil] at hpadded
      rcases Classical.em (tail = .closed) with rfl | hne'
      · exact ⟨_, .last hmember, fun first => by simp [Members.compact]⟩
      · obtain ⟨w, hw, hcompact⟩ := spellsMembers_compact tail htail hne'
        refine ⟨_, .cons hmember hw, fun first => ?_⟩
        rw [Members.compact, hcompact]
        simp

end

/-- A written document is read back as a whole. -/
theorem ofString_print {d : Doc} (h : d.isTextual = true) :
    Document.ofString d.print = ⟨d, true⟩ := by
  refine ofString_of_spells isGap_nil (spells_compact d h) isGap_nil ?_
  rw [Doc.print, String.toList_ofList, List.nil_append, List.append_nil]

section Decode

variable {α : Type} {read : Doc → Decoded α} {d : Doc} {s : String}

/-- What comes of a text that is JSON is what comes of its document. -/
theorem decode_of_complete (h : Document.ofString s = ⟨d, true⟩) : decode read s = read d := by
  rw [decode, h]
  change (read d >>= fun a => pure a) = read d
  cases read d <;> rfl

theorem decode_print {a : α} (h : d.isTextual = true) (hread : read d = .ok a) :
    decode read d.print = .ok a :=
  (decode_of_complete (ofString_print h)).trans hread

end Decode

end Documents

end MailMerge.Json
