import MailMerge.Proofs.Yaml.Node
import MailMerge.Settings.Yaml

/-! # Settings read back

What is written of settings is read back as the same settings, whatever texts they hold.
-/

namespace MailMerge

open Yaml Yaml.Scanner

namespace Settings

variable {s : Settings} {dir : Option String} {z : Scanner} {tokens : List Token}
  {rest : List Char} {indents : List Nat}

def requiredWords (s : Settings) : List (List Char) :=
  s.requiredPlaceholders.map fun p => p.key.toList

theorem requiredWords_spec (s : Settings) :
    ∀ w ∈ s.requiredWords, w ≠ [] ∧ ∀ c ∈ w, isWordChar c = true := by
  intro w hw
  obtain ⟨p, -, rfl⟩ := List.mem_map.mp hw
  cases p <;> decide

theorem yamlPlaceholders_eq (ps : List Placeholder) :
    yamlPlaceholders ps =
      if ps.isEmpty then [' ', '[', ']', '\n']
      else '\n' :: (ps.map fun p => p.key.toList).flatMap fun w => '-' :: ' ' :: (w ++ ['\n']) := by
  rw [yamlPlaceholders, List.flatMap_map]
  rfl

theorem run_placeholders
    (h : Ready ("required_placeholders".toList ++
      ':' :: (yamlPlaceholders s.requiredPlaceholders ++ rest)) 0 tokens [0] z)
    (hrest : startsToken rest = true) :
    ∃ z', Run z z' ∧ Ready rest 0 (tokens ++ ([.key, .scalar true "required_placeholders".toList,
      .value] ++ wordTokens s.requiredWords)) [0] z' := by
  have hgap : startsGap (yamlPlaceholders s.requiredPlaceholders ++ rest) = true := by
    rw [yamlPlaceholders_eq]
    split <;> rfl
  obtain ⟨line, hkey⟩ := run_key h (by decide) (by decide) (by decide) hgap (by simp)
  rw [yamlPlaceholders_eq] at hkey
  have hspec := s.requiredWords_spec
  cases hps : s.requiredPlaceholders with
  | nil =>
    rw [hps] at hkey
    obtain ⟨z', hrun, hready⟩ := @run_empty rest line 22 0
      (tokens ++ [.key, .scalar true "required_placeholders".toList, .value]) [] 0 (by omega) hrest
    refine ⟨z', hkey.trans hrun, ?_⟩
    simpa [requiredWords, hps, wordTokens, closing_top, closed_top] using hready
  | cons p ps =>
    have hstart : startsToken ((s.requiredWords.flatMap fun w => '-' :: ' ' :: (w ++ ['\n'])) ++
        rest) = true := by
      rw [requiredWords, hps]
      rfl
    rw [hps, if_neg (by simp), ← hps] at hkey
    obtain ⟨z', hrun, hready⟩ := run_items hspec hrest (@ready_line _ line 22 0
      (tokens ++ [.key, .scalar true "required_placeholders".toList, .value]) [0] false hstart)
    refine ⟨z', hkey.trans hrun, ?_⟩
    have hwords : wordTokens s.requiredWords =
        s.requiredWords.flatMap fun w => [.blockEntry, .scalar true w] := by
      rw [wordTokens, requiredWords, hps]
      rfl
    rw [hwords]
    simpa [closing_top] using hready

theorem run_top {key : List Char} {v : String}
    (h : Ready (key ++ ':' :: ' ' :: (writeText 2 v ++ rest)) 0 tokens indents z)
    (hkey : ∀ c ∈ key, isWordChar c = true) (hne : key ≠ []) (hlength : key.length ≤ keyLimit)
    (hindents : indents = [] ∨ indents = [0]) (hrest : startsToken rest = true) :
    ∃ z', Run z z' ∧ Ready rest 0 (tokens ++ (opening 0 indents ++ entryTokens key v)) [0] z' := by
  have hle : ∀ n, indents.head? = some n → n ≤ 0 := by
    rcases hindents with rfl | rfl <;> simp
  have hopened : opened 0 indents = [0] := by rcases hindents with rfl | rfl <;> rfl
  obtain ⟨z', hrun, hready⟩ := run_entry (k := 0) h hkey hne hlength hle (Nat.le_refl 0) hrest
  refine ⟨z', hrun, ?_⟩
  simpa [hopened, closing_top, closed_top] using hready

theorem run_sender
    (h : Ready ("sender".toList ++ ':' :: '\n' :: (spaces 2 ++ ("name".toList ++
      ':' :: ' ' :: (writeText 4 s.sender.name ++ (spaces 2 ++ ("email".toList ++
        ':' :: ' ' :: writeText 4 s.sender.email)))))) 0 tokens [0] z) :
    ∃ z', Run z z' ∧ Ready [] 0 (tokens ++ ([.key, .scalar true "sender".toList, .value,
      .blockMapping] ++ (entryTokens "name".toList s.sender.name ++
        (entryTokens "email".toList s.sender.email ++ [.blockEnd])))) [0] z' := by
  let opens : List Token := tokens ++ [.key, .scalar true "sender".toList, .value]
  let named : List Token := opens ++ (.blockMapping :: entryTokens "name".toList s.sender.name)
  obtain ⟨line, hkey⟩ := run_key h (by decide) (by decide) (by decide) rfl (by simp)
  have hline := @ready_line ("name".toList ++ ':' :: ' ' :: (writeText 4 s.sender.name ++
    (spaces 2 ++ ("email".toList ++ ':' :: ' ' :: writeText 4 s.sender.email)))) line 7 2 opens [0]
    false rfl
  rw [show closing 2 [0] = [] from rfl, show closed 2 [0] = [0] from rfl, List.append_nil] at hline
  obtain ⟨z₁, hname, hready₁⟩ := run_entry (k := 2) hline (by decide) (by decide) (by decide)
    (by simp) (Nat.le_refl 2) rfl
  have hready₁ : Ready ("email".toList ++ ':' :: ' ' :: (writeText 4 s.sender.email ++ (spaces 0 ++
      []))) 2 named [2, 0] z₁ := by
    have hclosing : closing 2 (opened 2 [0]) = [] := rfl
    have hclosed : closed 2 (opened 2 [0]) = [2, 0] := rfl
    have hopening : opening 2 [0] = [.blockMapping] := rfl
    rw [hclosing, hclosed, hopening, List.append_nil] at hready₁
    simpa [named, show spaces 0 = [] from rfl] using hready₁
  obtain ⟨z₂, hemail, hready₂⟩ := run_entry hready₁ (by decide) (by decide) (by decide) (by simp)
    (Nat.zero_le 2) rfl
  refine ⟨z₂, hkey.trans (hname.trans hemail), ?_⟩
  have hclosing : closing 0 (opened 2 [2, 0]) = [.blockEnd] := rfl
  have hclosed : closed 0 (opened 2 [2, 0]) = [0] := rfl
  have hopening : opening 2 [2, 0] = [] := rfl
  rw [hclosing, hclosed, hopening, List.nil_append] at hready₂
  simpa [named, opens] using hready₂

/-- The text of settings from the extension on. -/
def yamlText (s : Settings) : List Char :=
  "template_extension".toList ++ ':' :: ' ' :: (writeText 2 s.templateExtension ++
    ("required_placeholders".toList ++ ':' :: (yamlPlaceholders s.requiredPlaceholders ++
      ("update_lookup".toList ++ ':' :: ' ' :: (writeText 2 s.updateLookup.key ++
        ("sender".toList ++ ':' :: '\n' :: (spaces 2 ++ ("name".toList ++ ':' :: ' ' ::
          (writeText 4 s.sender.name ++ (spaces 2 ++ ("email".toList ++ ':' :: ' ' ::
            writeText 4 s.sender.email)))))))))))

def yamlTokens (s : Settings) : List Token :=
  entryTokens "template_extension".toList s.templateExtension ++
    ([.key, .scalar true "required_placeholders".toList, .value] ++
      (wordTokens s.requiredWords ++
        (entryTokens "update_lookup".toList s.updateLookup.key ++
          ([.key, .scalar true "sender".toList, .value, .blockMapping] ++
            (entryTokens "name".toList s.sender.name ++
              (entryTokens "email".toList s.sender.email ++ [.blockEnd]))))))

theorem run_yamlText (h : Ready s.yamlText 0 tokens indents z)
    (hindents : indents = [] ∨ indents = [0]) :
    ∃ z', Run z z' ∧ Ready [] 0 (tokens ++ (opening 0 indents ++ s.yamlTokens)) [0] z' := by
  obtain ⟨z₁, hextension, hready₁⟩ := run_top h (by decide) (by decide) (by decide) hindents rfl
  obtain ⟨z₂, hrequired, hready₂⟩ := run_placeholders hready₁ rfl
  obtain ⟨z₃, hlookup, hready₃⟩ := run_top hready₂ (by decide) (by decide) (by decide) (.inr rfl)
    rfl
  obtain ⟨z₄, hsender, hready₄⟩ := run_sender hready₃
  refine ⟨z₄, hextension.trans (hrequired.trans (hlookup.trans hsender)), ?_⟩
  have hopening : opening 0 [0] = [] := rfl
  simpa [yamlTokens, hopening] using hready₄

def dirText (dir : Option String) : List Char :=
  (dir.map fun v => "templates_dir".toList ++ ':' :: ' ' :: writeText 2 v).getD []

def dirTokens (dir : Option String) : List Token :=
  (dir.map (entryTokens "templates_dir".toList)).getD []

theorem yamlEntry_append (indent : Nat) (key v : String) (rest : List Char) :
    yamlEntry indent key v ++ rest =
      spaces indent ++ (key.toList ++ ':' :: ' ' :: (writeText (indent + 2) v ++ rest)) := by
  simp [yamlEntry]

theorem yamlEntry_eq (indent : Nat) (key v : String) :
    yamlEntry indent key v =
      spaces indent ++ (key.toList ++ ':' :: ' ' :: writeText (indent + 2) v) := by
  simp [yamlEntry]

theorem toYaml?_eq (hdir : s.templatesDir = dir.map Path.ofString) :
    s.toYaml? = some (String.ofList (dirText dir ++ s.yamlText)) := by
  have hrequired (r : List Char) : "required_placeholders:".toList ++ r =
      "required_placeholders".toList ++ ':' :: r := by simp
  have hsender (r : List Char) : "sender:\n".toList ++ r = "sender".toList ++ ':' :: '\n' :: r := by
    simp
  have htext (before : List Char) :
      before ++ yamlEntry 0 "template_extension" s.templateExtension ++
      "required_placeholders:".toList ++ yamlPlaceholders s.requiredPlaceholders ++
      yamlEntry 0 "update_lookup" s.updateLookup.key ++ "sender:\n".toList ++
      yamlEntry 2 "name" s.sender.name ++ yamlEntry 2 "email" s.sender.email =
        before ++ s.yamlText := by
    simp only [List.append_assoc]
    rw [hsender, hrequired, yamlEntry_append, yamlEntry_append, yamlEntry_append, yamlEntry_eq]
    rfl
  rw [toYaml?, hdir]
  cases dir with
  | none => exact congrArg (fun text => some (String.ofList text)) (htext [])
  | some v =>
    show ((Path.ofString v).text?.map (yamlEntry 0 "templates_dir")).bind _ = _
    rw [Path.text?_ofString, Option.map_some, Option.bind_some, yamlEntry_eq]
    exact congrArg (fun text => some (String.ofList text)) (htext _)

theorem printable_yamlPlaceholders (ps : List Placeholder) :
    ∀ c ∈ yamlPlaceholders ps, isPrintable c = true := by
  have hkey : ∀ p : Placeholder, ∀ c ∈ '-' :: ' ' :: (p.key.toList ++ ['\n']),
      isPrintable c = true := by
    intro p
    cases p <;> decide
  rw [yamlPlaceholders]
  split
  · decide
  · refine List.forall_mem_cons.mpr ⟨by decide, fun c hc => ?_⟩
    obtain ⟨p, -, hp⟩ := List.mem_flatMap.mp hc
    exact hkey p c (by simpa using hp)

theorem printable_text (dir : Option String) (s : Settings) :
    ∀ c ∈ dirText dir ++ s.yamlText, isPrintable c = true := by
  have hdir : ∀ c ∈ dirText dir, isPrintable c = true := by
    cases dir with
    | none => simp [dirText]
    | some v =>
      rw [dirText, Option.map_some, Option.getD_some]
      refine printable_append (by decide) (List.forall_mem_cons.mpr ⟨by decide, ?_⟩)
      exact List.forall_mem_cons.mpr ⟨by decide, printable_writeText 2 v⟩
  have hcons {c : Char} {cs : List Char} (hc : isPrintable c = true)
      (hcs : ∀ c ∈ cs, isPrintable c = true) : ∀ d ∈ c :: cs, isPrintable d = true :=
    List.forall_mem_cons.mpr ⟨hc, hcs⟩
  have hentry {key rest : List Char} {indent : Nat} {v : String}
      (hkey : ∀ c ∈ key, isPrintable c = true) (hrest : ∀ c ∈ rest, isPrintable c = true) :
      ∀ c ∈ key ++ ':' :: ' ' :: (writeText indent v ++ rest), isPrintable c = true :=
    printable_append hkey (hcons (by decide) (hcons (by decide)
      (printable_append (printable_writeText indent v) hrest)))
  apply printable_append hdir
  apply hentry (by decide)
  apply printable_append (by decide)
  apply hcons (by decide)
  apply printable_append (printable_yamlPlaceholders _)
  apply hentry (by decide)
  apply printable_append (by decide)
  apply hcons (by decide)
  apply hcons (by decide)
  apply printable_append printable_spaces
  apply hentry (by decide)
  apply printable_append printable_spaces
  apply printable_append (by decide)
  apply hcons (by decide)
  apply hcons (by decide)
  exact printable_writeText _ _

theorem run_text (dir : Option String) (h : Ready (dirText dir ++ s.yamlText) 0 [] [] z) :
    ∃ z', Run z z' ∧ Ready [] 0 (.blockMapping :: (dirTokens dir ++ s.yamlTokens)) [0] z' := by
  cases dir with
  | none => exact run_yamlText h (.inl rfl)
  | some v =>
    have htext : dirText (some v) ++ s.yamlText =
        "templates_dir".toList ++ ':' :: ' ' :: (writeText 2 v ++ s.yamlText) := by
      rw [dirText, Option.map_some, Option.getD_some, List.append_assoc, List.cons_append,
        List.cons_append]
    rw [htext] at h
    obtain ⟨z₁, hdir, hready₁⟩ := run_top h (by decide) (by decide) (by decide) (.inl rfl) rfl
    obtain ⟨z₂, hrun, hready₂⟩ := run_yamlText hready₁ (.inr rfl)
    exact ⟨z₂, hdir.trans hrun, hready₂⟩

theorem startsToken_text (dir : Option String) (s : Settings) :
    startsToken (dirText dir ++ s.yamlText) = true := by
  cases dir <;> rfl

theorem tokens?_text (dir : Option String) (s : Settings) :
    tokens? (dirText dir ++ s.yamlText) =
      some (.blockMapping :: (dirTokens dir ++ (s.yamlTokens ++ [.blockEnd]))) := by
  rw [tokens?_of_run (printable_text dir s) (startsToken_text dir s) fun z hz => run_text dir hz]
  simp

def textEntry {α : Type} (key : String) (v : String) (entries : Entries α) : Entries α :=
  .cons (.scalar {} true key.toList) (.scalar {} (isWrittenPlain v) v.toList) entries

def yamlEntries {α : Type} (s : Settings) : Entries α :=
  textEntry "template_extension" s.templateExtension
    (.cons (.scalar {} true "required_placeholders".toList)
      (.sequence {} (wordItems s.requiredWords))
      (textEntry "update_lookup" s.updateLookup.key
        (.cons (.scalar {} true "sender".toList)
          (.mapping {} (textEntry "name" s.sender.name (textEntry "email" s.sender.email .nil)))
          .nil)))

def allEntries {α : Type} (dir : Option String) (s : Settings) : Entries α :=
  match dir with
  | none => s.yamlEntries
  | some v => textEntry "templates_dir" v s.yamlEntries

section Reading

variable {handles : Handles} {key : String} {v : String} {ts ts' : List Token}
  {entries : Entries (List Char)}

theorem readsEntries_text (h : ReadsEntries handles ts entries ts') :
    ReadsEntries handles (entryTokens key.toList v ++ ts) (textEntry key v entries) ts' :=
  readsEntries_cons readsValue_scalar h

theorem readsEntries_yaml (s : Settings) :
    ReadsEntries handles (s.yamlTokens ++ [.blockEnd]) s.yamlEntries [] := by
  have hsender : ReadsEntries handles (entryTokens "name".toList s.sender.name ++
      (entryTokens "email".toList s.sender.email ++ [.blockEnd, .blockEnd]))
        (textEntry "name" s.sender.name (textEntry "email" s.sender.email .nil)) [.blockEnd] :=
    readsEntries_text (readsEntries_text readsEntries_nil)
  rw [yamlTokens]
  simp only [List.append_assoc, List.cons_append, List.nil_append]
  refine readsEntries_text (readsEntries_cons (readsValue_words (by simp)) (readsEntries_text
    (readsEntries_cons (readsValue_mapping hsender ?_) readsEntries_nil)))
  simp
  omega

theorem readsEntries_all (dir : Option String) (s : Settings) :
    ReadsEntries handles (dirTokens dir ++ (s.yamlTokens ++ [.blockEnd])) (allEntries dir s)
      [] := by
  cases dir with
  | none => exact readsEntries_yaml s
  | some v => exact readsEntries_text (readsEntries_yaml s)

end Reading

theorem link_textEntry {key v : String} {entries : Entries (List Char)} {entries' : Entries Nat}
    (h : entries.link = pure entries') :
    (textEntry key v entries).link = pure (textEntry key v entries') :=
  link_cons (link_scalar _ _) h

theorem link_allEntries (dir : Option String) (s : Settings) :
    (allEntries dir s).link = pure (allEntries dir s) := by
  have hsender : (textEntry "name" s.sender.name (textEntry "email" s.sender.email .nil)).link =
      pure (textEntry "name" s.sender.name (textEntry "email" s.sender.email .nil)) :=
    link_textEntry (link_textEntry link_nil)
  have hyaml : s.yamlEntries.link = pure s.yamlEntries :=
    link_textEntry (link_cons (link_sequence (link_wordItems _)) (link_textEntry
      (link_cons (link_mapping hsender) link_nil)))
  cases dir with
  | none => exact hyaml
  | some v => exact link_textEntry hyaml

/-- The text of settings holds a mapping of their entries. -/
theorem document?_text (dir : Option String) (s : Settings) :
    document? (String.ofList (dirText dir ++ s.yamlText)) =
      some (some (.mapping {} (allEntries dir s))) := by
  refine document?_of_tokens? ?_ (readsEntries_all dir s) (link_allEntries dir s)
  rw [String.toList_ofList, tokens?_text]

section Decoding

variable {root : Node Nat} {ρ : Type} {slots : List (Slot ρ)} {seen : List String}
  {draft draft' : ρ} {slot : Slot ρ} {key : String} {value : Node Nat} {entries : Entries Nat}

theorem toText_scalar (plain : Bool) (v : String) :
    root.toText (.scalar {} plain v.toList) = some v := by
  show some (String.ofList v.toList) = some v
  rw [String.ofList_toList]

theorem toOption_scalar (v : String) :
    root.toOption (.scalar {} (isWrittenPlain v) v.toList) = some (some v) := by
  have hnull : (isWrittenPlain v && isNull v.toList) = false := by
    cases hplain : isWrittenPlain v with
    | false => rfl
    | true =>
      have htyped := (of_style_plain (of_decide_eq_true hplain)).1
      simp only [looksTyped, Bool.or_eq_false_iff] at htyped
      simp [htyped]
  show (if _ then _ else _) = _
  simp [hnull]

theorem toVariant_scalar {α : Type} (ofKey? : String → Option α) (plain : Bool) (v : String) :
    root.toVariant ofKey? (.scalar {} plain v.toList) = ofKey? v := by
  show ofKey? (String.ofList v.toList) = ofKey? v
  rw [String.ofList_toList]

theorem toList_placeholders (ps : List Placeholder) :
    root.toList (root.toVariant Placeholder.ofKey?)
      (.sequence {} (wordItems (ps.map fun p => p.key.toList))) = some ps := by
  show Node.itemsToList (root.toVariant Placeholder.ofKey?) (wordItems _) = some ps
  induction ps with
  | nil => rfl
  | cons p ps ih =>
    have hkey : Placeholder.ofKey? p.key = some p := by cases p <;> decide
    show Node.itemsToList _ (.cons (.scalar {} true p.key.toList) (wordItems _)) = _
    rw [Node.itemsToList, toVariant_scalar, hkey, ih]
    rfl

theorem entriesToRecord_cons (hslot : slots.find? (fun f => f.name == key) = some slot)
    (hseen : key ∉ seen) (hread : slot.read value draft = some draft') :
    root.entriesToRecord slots seen draft (.cons (.scalar {} true key.toList) value entries) =
      root.entriesToRecord slots (key :: seen) draft' entries := by
  rw [Node.entriesToRecord, toText_scalar]
  simp [hslot, hseen, hread]

end Decoding

theorem ofNode_sender (root : Node Nat) (sender : Sender) :
    Sender.ofNode root (.mapping {} (textEntry "name" sender.name
      (textEntry "email" sender.email .nil))) = some sender := by
  let slots := Sender.nodeSlots root
  have hrecord : root.toRecord slots {} (.mapping {} (textEntry "name" sender.name
      (textEntry "email" sender.email .nil))) = some (sender, ["email", "name"]) := calc
    _ = root.entriesToRecord slots [] {} (textEntry "name" sender.name
          (textEntry "email" sender.email .nil)) := rfl
    _ = root.entriesToRecord slots ["name"] { name := sender.name }
          (textEntry "email" sender.email .nil) :=
        entriesToRecord_cons rfl (by decide) (by simp [toText_scalar])
    _ = root.entriesToRecord slots ["email", "name"] sender .nil :=
        entriesToRecord_cons rfl (by decide) (by simp [toText_scalar])
  rw [Sender.ofNode, hrecord]
  rfl

theorem entriesToRecord_yaml (root : Node Nat) (s : Settings) {draft : Settings}
    {seen : List String} (hdraft : draft = { templatesDir := s.templatesDir })
    (hseen : ∀ key ∈ seen, key = "templates_dir") :
    ∃ seen', root.entriesToRecord (nodeSlots root) seen draft s.yamlEntries = some (s, seen') := by
  let slots := nodeSlots root
  have hunseen {key : String} {before : List String} (hbefore : key ∉ before)
      (hkey : key ≠ "templates_dir") : key ∉ before ++ seen := by
    rw [List.mem_append, not_or]
    exact ⟨hbefore, fun h => hkey (hseen key h)⟩
  have hrequired : root.toList (root.toVariant Placeholder.ofKey?)
      (.sequence {} (wordItems s.requiredWords)) = some s.requiredPlaceholders :=
    toList_placeholders s.requiredPlaceholders
  have hlookup : UpdateLookup.ofKey? s.updateLookup.key = some s.updateLookup := by
    cases s.updateLookup <;> decide
  let seen₁ := ["template_extension"] ++ seen
  let seen₂ := ["required_placeholders", "template_extension"] ++ seen
  let seen₃ := ["update_lookup", "required_placeholders", "template_extension"] ++ seen
  let draft₁ := { draft with templateExtension := s.templateExtension }
  let draft₂ := { draft₁ with requiredPlaceholders := s.requiredPlaceholders }
  let draft₃ := { draft₂ with updateLookup := s.updateLookup }
  let senderEntries : Entries Nat :=
    textEntry "name" s.sender.name (textEntry "email" s.sender.email .nil)
  let lookupEntries : Entries Nat := textEntry "update_lookup" s.updateLookup.key
    (.cons (.scalar {} true "sender".toList) (.mapping {} senderEntries) .nil)
  refine ⟨"sender" :: seen₃, ?_⟩
  calc root.entriesToRecord slots seen draft s.yamlEntries
    _ = root.entriesToRecord slots seen₁ draft₁ (.cons (.scalar {} true
          "required_placeholders".toList) (.sequence {} (wordItems s.requiredWords))
            lookupEntries) :=
        entriesToRecord_cons rfl (@hunseen _ [] (by decide) (by decide))
          (by simp [toText_scalar, draft₁])
    _ = root.entriesToRecord slots seen₂ draft₂ lookupEntries :=
        entriesToRecord_cons rfl (hunseen (by decide) (by decide)) (by simp [hrequired, draft₂])
    _ = root.entriesToRecord slots seen₃ draft₃ (.cons (.scalar {} true "sender".toList)
          (.mapping {} senderEntries) .nil) :=
        entriesToRecord_cons rfl (hunseen (by decide) (by decide))
          (by simp [toVariant_scalar, hlookup, draft₃])
    _ = root.entriesToRecord slots ("sender" :: seen₃) s .nil :=
        entriesToRecord_cons rfl (hunseen (by decide) (by decide))
          (by simp [senderEntries, ofNode_sender, draft₃, draft₂, draft₁, hdraft])
    _ = some (s, "sender" :: seen₃) := rfl

theorem toRecord_allEntries (root : Node Nat) (dir : Option String) (s : Settings)
    (hdir : s.templatesDir = dir.map Path.ofString) :
    ∃ seen,
      root.toRecord (nodeSlots root) {} (.mapping {} (allEntries dir s)) = some (s, seen) := by
  show ∃ seen, root.entriesToRecord (nodeSlots root) [] {} (allEntries dir s) = _
  cases dir with
  | none => exact entriesToRecord_yaml root s (by rw [hdir]; rfl) nofun
  | some v =>
    have hfirst : root.entriesToRecord (nodeSlots root) [] {} (allEntries (some v) s) =
        root.entriesToRecord (nodeSlots root) ["templates_dir"]
          { templatesDir := some (Path.ofString v) } s.yamlEntries :=
      entriesToRecord_cons rfl (by decide) (by simp [toOption_scalar])
    rw [hfirst]
    exact entriesToRecord_yaml root s (by rw [hdir]; rfl) (by simp)

theorem exists_dir_of_toYaml? {text : String} (h : s.toYaml? = some text) :
    ∃ dir : Option String, s.templatesDir = dir.map Path.ofString := by
  rw [toYaml?] at h
  cases hfolder : s.templatesDir with
  | none => exact ⟨none, rfl⟩
  | some p =>
    rw [hfolder] at h
    cases hp : p.text? with
    | none =>
      simp [hp] at h
    | some v => exact ⟨some v, congrArg some (Path.ofString_of_text? hp).symm⟩

/-- What is written of settings is read as these settings. -/
theorem ofYaml?_toYaml? {text : String} (h : s.toYaml? = some text) : ofYaml? text = some s := by
  obtain ⟨dir, hdir⟩ := exists_dir_of_toYaml? h
  obtain ⟨seen, hrecord⟩ := toRecord_allEntries (.mapping {} (allEntries dir s)) dir s hdir
  rw [toYaml?_eq hdir, Option.some.injEq] at h
  rw [← h, ofYaml?, document?_text]
  show (Node.toRecord _ _ _ _).bind _ = _
  rw [hrecord]
  rfl

end Settings

end MailMerge
