import MailMerge.Proofs.Yaml.Token
import MailMerge.Yaml.Decode

/-! # Documents of written settings

The tokens of an entry are read as an entry, whatever follows them, and without anchors linking
changes nothing. So a mapping of texts, lists of words and mappings is read as it was written.
-/

namespace MailMerge.Yaml

variable {handles : Handles} {fuel : Nat} {plain : Bool} {text key : List Char}
  {ts ts' ts'' : List Token} {value : Node (List Char)} {entries : Entries (List Char)}
  {words : List (List Char)}

def entryStops : List Token := [.key, .value, .blockEnd]

/-- The tokens are read as this value of a key, with fuel for each of them. -/
def ReadsValue (handles : Handles) (ts : List Token) (value : Node (List Char))
    (ts' : List Token) : Prop :=
  ts'.length ≤ ts.length ∧ ∀ fuel, ts.length + 2 ≤ fuel →
    readBlockNode handles fuel true entryStops ts = some (value, ts')

def ReadsEntries (handles : Handles) (ts : List Token) (entries : Entries (List Char))
    (ts' : List Token) : Prop :=
  ∀ fuel, ts.length ≤ fuel → readBlockEntries handles fuel ts = some (entries, ts')

theorem readNode_scalar {block indentless : Bool} :
    readNode handles (fuel + 1) block indentless (.scalar plain text :: ts) =
      some (.scalar {} plain text, ts) := by
  simp [readNode, readProps]

theorem readBlockNode_scalar {indentless : Bool} {stops : List Token}
    (hstops : .scalar plain text ∉ stops) :
    readBlockNode handles (fuel + 2) indentless stops (.scalar plain text :: ts) =
      some (.scalar {} plain text, ts) := by
  rw [readBlockNode, if_neg (by simpa [nextIsOneOf] using hstops), readNode_scalar]

theorem readsValue_scalar : ReadsValue handles (.scalar plain text :: ts)
    (.scalar {} plain text) ts := by
  refine ⟨by simp, fun fuel hfuel => ?_⟩
  obtain ⟨fuel, rfl⟩ : ∃ n, fuel = n + 2 := ⟨fuel - 2, by simp at hfuel; omega⟩
  exact readBlockNode_scalar (by simp [entryStops])

def wordItems {α : Type} (words : List (List Char)) : Items α :=
  words.foldr (fun w items => .cons (.scalar {} true w) items) .nil

theorem readIndentless_words {t : Token} (ht : t ≠ .blockEntry)
    (hfuel : 2 * words.length + 1 ≤ fuel) :
    readIndentless handles fuel
        (words.flatMap (fun w => [.blockEntry, .scalar true w]) ++ t :: ts) =
      some (wordItems words, t :: ts) := by
  induction words generalizing fuel with
  | nil =>
    obtain ⟨fuel, rfl⟩ : ∃ n, fuel = n + 1 := ⟨fuel - 1, by omega⟩
    rw [List.flatMap_nil, List.nil_append, readIndentless]
    · rfl
    · intro ts' h
      exact ht (List.cons.inj h).1
  | cons w words ih =>
    rw [List.length_cons] at hfuel
    obtain ⟨fuel, rfl⟩ : ∃ n, fuel = n + 3 := ⟨fuel - 3, by omega⟩
    rw [List.flatMap_cons, List.append_assoc, List.cons_append, List.cons_append, List.nil_append,
      readIndentless, readBlockNode_scalar (by simp)]
    simp only [Option.bind_eq_bind, Option.bind_some]
    rw [ih (by omega)]
    rfl

def wordTokens (words : List (List Char)) : List Token :=
  if words.isEmpty then [.flowSequence, .flowSequenceEnd]
  else words.flatMap fun w => [.blockEntry, .scalar true w]

theorem length_wordItems (words : List (List Char)) :
    (words.flatMap fun w => [Token.blockEntry, .scalar true w]).length = 2 * words.length := by
  induction words with
  | nil => rfl
  | cons w words ih =>
    rw [List.flatMap_cons, List.length_append, ih, List.length_cons]
    simp
    omega

theorem readsValue_words {t : Token} (ht : t ≠ .blockEntry) :
    ReadsValue handles (wordTokens words ++ t :: ts) (.sequence {} (wordItems words))
      (t :: ts) := by
  refine ⟨by simp, fun fuel hfuel => ?_⟩
  cases words with
  | nil =>
    obtain ⟨fuel, rfl⟩ : ∃ n, fuel = n + 3 :=
      ⟨fuel - 3, by simp [wordTokens] at hfuel; omega⟩
    rw [readBlockNode, if_neg (by simp [nextIsOneOf, wordTokens, entryStops])]
    simp [wordTokens, readNode, readProps, readFlowItems, wordItems]
  | cons w words =>
    rw [wordTokens, if_neg (by simp)] at hfuel ⊢
    rw [List.length_append, length_wordItems, List.length_cons (a := t)] at hfuel
    obtain ⟨fuel, rfl⟩ : ∃ n, fuel = n + 2 := ⟨fuel - 2, by omega⟩
    rw [readBlockNode, if_neg (by simp [nextIsOneOf, entryStops])]
    have hitems := @readIndentless_words handles fuel ts (w :: words) t ht (by omega)
    simp only [List.flatMap_cons, List.cons_append, List.nil_append, readNode, readProps,
      Option.bind_eq_bind, Option.bind_some, if_true] at hitems ⊢
    rw [hitems]
    rfl

theorem readsEntries_nil : ReadsEntries handles (.blockEnd :: ts) .nil ts := by
  intro fuel hfuel
  obtain ⟨fuel, rfl⟩ : ∃ n, fuel = n + 1 := ⟨fuel - 1, by simp at hfuel; omega⟩
  rw [readBlockEntries]

theorem readsEntries_cons (hvalue : ReadsValue handles ts value ts')
    (htail : ReadsEntries handles ts' entries ts'') :
    ReadsEntries handles (.key :: .scalar true key :: .value :: ts)
      (.cons (.scalar {} true key) value entries) ts'' := by
  intro fuel hfuel
  have hle := hvalue.1
  simp only [List.length_cons] at hfuel
  obtain ⟨fuel, rfl⟩ : ∃ n, fuel = n + 3 := ⟨fuel - 3, by omega⟩
  have hkey : readBlockNode handles (fuel + 2) true entryStops (.scalar true key :: .value :: ts) =
      some (.scalar {} true key, .value :: ts) := readBlockNode_scalar (by simp [entryStops])
  have hvalue := hvalue.2 (fuel + 2) (by omega)
  rw [entryStops] at hkey hvalue
  rw [readBlockEntries]
  simp only [hkey, hvalue, htail (fuel + 2) (by omega), Option.bind_eq_bind, Option.bind_some]
  rfl

theorem readsValue_mapping (h : ReadsEntries handles ts entries ts')
    (hle : ts'.length ≤ ts.length) :
    ReadsValue handles (.blockMapping :: ts) (.mapping {} entries) ts' := by
  refine ⟨by rw [List.length_cons]; omega, fun fuel hfuel => ?_⟩
  rw [List.length_cons] at hfuel
  obtain ⟨fuel, rfl⟩ : ∃ n, fuel = n + 2 := ⟨fuel - 2, by omega⟩
  rw [readBlockNode, if_neg (by simp [nextIsOneOf, entryStops])]
  simp only [readNode, readProps, h fuel (by omega), Option.bind_eq_bind, Option.bind_some, if_true]
  rfl

theorem readDocument_mapping (h : ReadsEntries Handles.standard ts entries []) :
    readDocument (.blockMapping :: ts) = some (some (.mapping {} entries), []) := by
  have hread := h (4 * (ts.length + 1) + 3) (by omega)
  simp only [readDocument, List.isEmpty_cons, Bool.false_eq_true, if_false, startsDocument,
    List.head?_cons, Option.any_some, Option.bind_eq_bind, Option.bind_some, Bool.false_and,
    List.length_cons, readNode, readProps, if_true, List.nil_append, hread]
  rfl

theorem link_scalar (plain : Bool) (text : List Char) :
    (Node.scalar {} plain text).link = pure (.scalar {} plain text) := by
  rw [Node.link]
  rfl

theorem link_wordItems (words : List (List Char)) :
    (wordItems words).link = pure (wordItems words) := by
  induction words with
  | nil => rw [wordItems, List.foldr_nil, Items.link]; rfl
  | cons w words ih =>
    show (Items.cons (.scalar {} true w) (wordItems words)).link = _
    rw [Items.link, link_scalar, ih]
    rfl

theorem link_sequence {items : Items (List Char)} {items' : Items Nat}
    (h : items.link = pure items') :
    (Node.sequence {} items).link = pure (.sequence {} items') := by
  rw [Node.link, h]
  rfl

theorem link_mapping {entries' : Entries Nat} (h : entries.link = pure entries') :
    (Node.mapping {} entries).link = pure (.mapping {} entries') := by
  rw [Node.link, h]
  rfl

theorem link_nil : (Entries.nil : Entries (List Char)).link = pure .nil := by
  rw [Entries.link]

theorem link_cons {value' : Node Nat} {entries' : Entries Nat} (hvalue : value.link = pure value')
    (hentries : entries.link = pure entries') :
    (Entries.cons (.scalar {} true key) value entries).link =
      pure (.cons (.scalar {} true key) value' entries') := by
  rw [Entries.link, link_scalar, hvalue, hentries]
  rfl

/-- A text with the tokens of a mapping holds that mapping. -/
theorem document?_of_tokens? {s : String} {entries' : Entries Nat}
    (htokens : tokens? s.toList = some (.blockMapping :: ts))
    (hread : ReadsEntries Handles.standard ts entries []) (hlink : entries.link = pure entries') :
    document? s = some (some (.mapping {} entries')) := by
  rw [document?, htokens]
  simp only [Option.bind_eq_bind, Option.bind_some, readDocument_mapping hread, List.all_nil,
    if_true, link_mapping hlink]
  rfl

end MailMerge.Yaml
