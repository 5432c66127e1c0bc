import MailMerge.Proofs.Marker
import MailMerge.Proofs.Text.Cutting
import MailMerge.Scan
import MailMerge.Substitution

/-! # Scans by bytes cut between characters

A scan looks for texts, and what is found of one in the bytes of another starts and ends between
two characters. Where nothing fits, the sign that is passed over is a character of one byte, and so
is each letter of a marker's word. Hence every round starts between two characters, cuts there and
ends there, no scan breaks off, and what it comes to is what reading the text by characters comes
to.
-/

namespace MailMerge

open Utf8

section Substitution

variable {f : Fragments} {cs front back : List Char}

/-- The characters of a document with every token replaced by the value of its placeholder. -/
def filled (f : Fragments) (cs : List Char) : List Char := (cut 0 cs).flatMap (Piece.fill f)

theorem encode_substitute (html : String) (f : Fragments) :
    encode (substitute html f) = ofChars (filled f html.toList) := encode_ofList _

theorem delimiter_prefix_tokenChars (p : Placeholder) : delimiter <+: p.tokenChars := by
  have hstart : delimiter <+: tokenStart := ⟨tokenStart.drop 2, rfl⟩
  rw [Placeholder.tokenChars, List.append_assoc]
  exact hstart.trans (List.prefix_append _ _)

theorem startOf?_eq_none_of_not_delimiter (h : ¬ delimiter <+: cs) :
    Placeholder.startOf? cs = none :=
  Placeholder.startOf?_eq_none_iff.mpr fun p hp => h ((delimiter_prefix_tokenChars p).trans hp)

theorem filled_cons {c : Char} (h : Placeholder.startOf? (c :: cs) = none) :
    filled f (c :: cs) = c :: filled f cs := by
  rw [filled, cut_of_startOf?_eq_none h]
  rfl

theorem filled_token {p : Placeholder} (h : Placeholder.startOf? (p.tokenChars ++ back) = some p) :
    filled f (p.tokenChars ++ back) = (f.textFor p).toList ++ filled f back := by
  rw [filled, cut_of_startOf?_eq_some h, List.drop_left]
  rfl

theorem filled_append (h : ∀ i < front.length, ¬ delimiter <+: (front ++ back).drop i) :
    filled f (front ++ back) = front ++ filled f back := by
  induction front with
  | nil => rfl
  | cons c front ih =>
    have hstart := startOf?_eq_none_of_not_delimiter (h 0 (Nat.succ_pos _))
    rw [List.drop_zero, List.cons_append] at hstart
    rw [List.cons_append, filled_cons hstart, ih, List.cons_append]
    intro i hi
    exact h (i + 1) (Nat.succ_lt_succ hi)

theorem filled_eq_self (h : ¬ delimiter <:+: cs) : filled f cs = cs := by
  have hcopy : filled f (cs ++ []) = cs ++ filled f [] := by
    refine filled_append fun i _ hp => ?_
    rw [List.append_nil] at hp
    exact h (hp.isInfix.trans (List.drop_suffix i cs).isInfix)
  simpa [filled] using hcopy

theorem tokenOf?_ofChars (cs : List Char) :
    Scan.tokenOf? (ofChars cs) = Placeholder.startOf? cs := by
  simp only [Scan.tokenOf?, Placeholder.startOf?, isPrefixOf_ofChars]

/-- Between two rounds: what has been written and what is still to be read, filled, make up the
filled document, and the rest starts between two characters. -/
def Scan.Progress.Upholds (s : Progress) (f : Fragments) (html : String) : Prop :=
  ∃ before cs, html.toList = before ++ cs ∧ s.rest = .behind before cs ∧
    s.written ++ ofChars (filled f cs) = encode (MailMerge.substitute html f)

variable {html : String} {s : Scan.Progress}

/-- A round that starts in front of a delimiter takes the token there, or one sign. -/
theorem succeeds_takeToken {before tail : List Char}
    (htext : html.toList = before ++ (delimiter ++ tail))
    (hrest : s.rest = .behind before (delimiter ++ tail))
    (hfilled : s.written ++ ofChars (filled f (delimiter ++ tail)) =
      encode (substitute html f)) :
    (Scan.takeToken f s).Succeeds html (Round.Leads
      (fun s' => s'.rest.bytes.length < s.rest.bytes.length ∧ s'.Upholds f html)
      (· = encode (substitute html f))) := by
  unfold Scan.takeToken
  rw [hrest, Stretch.bytes_behind, tokenOf?_ofChars]
  cases htoken : Placeholder.startOf? (delimiter ++ tail) with
  | some p =>
    obtain ⟨back, hback⟩ := Placeholder.startOf?_eq_some_iff.mp htoken
    rw [← hback] at htext hfilled htoken ⊢
    have hcut : html.toList = before ++ (p.tokenChars ++ back) ++ [] := by
      rw [List.append_nil, htext]
    refine (Cutting.succeeds_cutAt rfl rfl hcut).bind ?_
    rintro token ⟨-, htoken'⟩
    refine Cutting.succeeds_pure ⟨?_, before ++ p.tokenChars, back, ?_, htoken', ?_⟩
    · show token.back.bytes.length < _
      rw [htoken']
      exact length_ofChars_lt p.tokenChars_ne_nil
    · rw [htext, List.append_assoc]
    · rw [← hfilled, filled_token htoken, ofChars_append, ofChars_toList, List.append_assoc]
  | none =>
    have hsign : delimiter ++ tail = ['%'] ++ '%' :: tail := rfl
    have hone : filled f (delimiter ++ tail) = '%' :: filled f ('%' :: tail) := filled_cons htoken
    have hcut : html.toList = before ++ (['%'] ++ '%' :: tail) ++ [] := by
      rw [List.append_nil, htext, hsign]
    refine (Cutting.succeeds_cutAt rfl rfl hcut).bind ?_
    rintro sign ⟨-, hback⟩
    refine Cutting.succeeds_pure ⟨?_, before ++ ['%'], '%' :: tail, ?_, hback, ?_⟩
    · show sign.back.bytes.length < _
      rw [hback, hsign]
      exact length_ofChars_lt (List.cons_ne_nil _ _)
    · rw [htext, hsign, List.append_assoc]
    · rw [← hfilled, hone, List.append_assoc, ← ofChars_append]
      rfl

theorem succeeds_substituteRound (h : s.Upholds f html) :
    (Scan.substituteRound f s).Succeeds html (Round.Leads
      (fun s' => s'.rest.bytes.length < s.rest.bytes.length ∧ s'.Upholds f html)
      (· = encode (substitute html f))) := by
  obtain ⟨before, cs, htext, hrest, hfilled⟩ := h
  unfold Scan.substituteRound
  rw [hrest, Stretch.bytes_behind]
  rcases position?_ofChars_cases (show delimiter ≠ [] by decide) cs with
    ⟨hnone, hpos⟩ | ⟨front, tail, rfl, hfirst, hpos⟩
  · rw [hpos]
    refine Cutting.succeeds_pure ?_
    rw [← hfilled, filled_eq_self hnone]
    rfl
  · rw [hpos]
    have hcut : html.toList = before ++ (front ++ (delimiter ++ tail)) ++ [] := by
      rw [List.append_nil, htext]
    refine (Cutting.succeeds_cutAt rfl rfl hcut).bind ?_
    rintro literal ⟨hfront, hback⟩
    have htext' : html.toList = before ++ front ++ (delimiter ++ tail) := by
      rw [htext, List.append_assoc]
    have hfilled' : s.written ++ literal.front.bytes ++ ofChars (filled f (delimiter ++ tail)) =
        encode (substitute html f) := by
      rw [← hfilled, filled_append hfirst, hfront, Stretch.bytes_behind, ofChars_append,
        List.append_assoc]
    have hshorter : literal.back.bytes.length ≤ (ofChars (front ++ (delimiter ++ tail))).length := by
      rw [hback, Stretch.bytes_behind, ofChars_append front, List.length_append]
      exact Nat.le_add_left _ _
    refine (succeeds_takeToken htext' hback hfilled').mono fun r hr => ?_
    cases r with
    | answer b => exact hr
    | next s' => exact ⟨Nat.lt_of_lt_of_le hr.1 hshorter, hr.2⟩

theorem succeeds_substitute (f : Fragments) (html : String) :
    (Scan.substitute (encode html) f).Succeeds html (· = encode (substitute html f)) := by
  refine Cutting.succeeds_rounds (fun s => succeeds_substituteRound) ⟨[], html.toList, rfl, ?_, ?_⟩
  · rw [Stretch.behind, ofChars_toList]
    rfl
  · rw [encode_substitute]
    rfl

end Substitution

section Search

variable {text : String} {before front tail : List Char} {offset start : Nat}

theorem isMarkerByte_eq (c : Char) {x : UInt8} (hx : x ∈ String.utf8EncodeChar c) :
    Scan.isMarkerByte x = isMarkerLetter c := by
  have hbyte : Scan.isMarkerByte x = true ↔
      (0x41 ≤ x.toNat ∧ x.toNat ≤ 0x5A) ∨ x.toNat = 0x5F := by
    simp [Scan.isMarkerByte, UInt8.le_iff_toNat_le, ← UInt8.toNat_inj]
  have hletter : isMarkerLetter c = true ↔
      (0x41 ≤ c.toNat ∧ c.toNat ≤ 0x5A) ∨ c.toNat = 0x5F := by
    have hupper : c.isUpper = decide (65 ≤ c.val ∧ c.val ≤ 90) := rfl
    simp [isMarkerLetter, hupper, UInt32.le_iff_toNat_le, ← Char.toNat_inj]
  rw [Bool.eq_iff_iff, hbyte, hletter]
  rcases Nat.lt_or_ge x.toNat 128 with h | h
  · rw [(mem_utf8EncodeChar_iff h c).mp hx]
  · have hc := le_toNat_of_mem hx h
    omega

/-- A text that starts like a token starts with a marker if what follows is closed. -/
theorem Marker.startOf?_append (tail : List Char) : Marker.startOf? (tokenStart ++ tail) =
    if delimiter.isPrefixOf (tail.dropWhile isMarkerLetter) then
      some (tokenStart ++ tail.takeWhile isMarkerLetter ++ delimiter) else none := by
  have htail : tokenStart.isPrefixOf? (tokenStart ++ tail) = some tail :=
    isPrefixOf?_eq_some_iff.mpr rfl
  simp only [Marker.startOf?, htail]

theorem IsMarker.tokenStart_prefix {w : List Char} (hw : IsMarker w) : tokenStart <+: w := by
  obtain ⟨word, -, rfl⟩ := hw
  rw [List.append_assoc]
  exact List.prefix_append _ _

theorem Marker.findFrom_append
    (h : ∀ i < front.length, ¬ tokenStart <+: (front ++ tail).drop i) :
    Marker.findFrom offset (front ++ tail) =
      Marker.findFrom (offset + (ofChars front).length) tail := by
  induction front generalizing offset with
  | nil => rfl
  | cons c front ih =>
    have hstart : Marker.startOf? (c :: (front ++ tail)) = none :=
      Marker.startOf?_eq_none_iff.mpr fun w hw hp =>
        h 0 (Nat.succ_pos _) (hw.tokenStart_prefix.trans hp)
    have hrest : ∀ i < front.length, ¬ tokenStart <+: (front ++ tail).drop i :=
      fun i hi => h (i + 1) (Nat.succ_lt_succ hi)
    rw [List.cons_append, Marker.findFrom, hstart]
    show Marker.findFrom (offset + c.utf8Size) (front ++ tail) = _
    rw [ih hrest, ofChars_cons, List.length_append, String.length_utf8EncodeChar, Nat.add_assoc]

theorem Marker.findFrom_eq_none_of_not_tokenStart {cs : List Char} (h : ¬ tokenStart <:+: cs) :
    Marker.findFrom offset cs = none :=
  Marker.findFrom_eq_none_iff.mpr fun _ hw hinfix =>
    h (hw.tokenStart_prefix.isInfix.trans hinfix)

def firstMarker? (text : String) : Option Stretch :=
  (findMarker text).map fun m => ⟨m.2, encode m.1⟩

theorem firstMarker?_eq (text : String) : firstMarker? text =
    (Marker.findFrom 0 text.toList).map fun m => ⟨m.2, ofChars m.1⟩ := by
  rw [firstMarker?, findMarker, Option.map_map]
  simp only [Function.comp_def, encode_ofList]

theorem Marker.findFrom_of_startOf?_eq_some {cs w : List Char} (h : Marker.startOf? cs = some w) :
    Marker.findFrom offset cs = some (w, offset) := by
  cases cs with
  | nil => exact absurd h nofun
  | cons c cs => rw [Marker.findFrom, h]

/-- Between two rounds: the first marker of the text is that of what stands behind `offset`
bytes of it, and these end with a character. -/
def Scan.Searches (text : String) (offset : Nat) : Prop :=
  ∃ before cs, text.toList = before ++ cs ∧ offset = (ofChars before).length ∧
    Marker.findFrom offset cs = Marker.findFrom 0 text.toList

theorem firstMarker?_of_startOf?_eq_some {cs w : List Char} (hmarker : Marker.startOf? cs = some w)
    (hfind : Marker.findFrom start cs = Marker.findFrom 0 text.toList) :
    firstMarker? text = some ⟨start, ofChars w⟩ := by
  rw [firstMarker?_eq, ← hfind, Marker.findFrom_of_startOf?_eq_some hmarker]
  rfl

theorem searches_behind_sign {cs : List Char} (htext : text.toList = before ++ '%' :: cs)
    (hstart : start = (ofChars before).length) (hnone : Marker.startOf? ('%' :: cs) = none)
    (hfind : Marker.findFrom start ('%' :: cs) = Marker.findFrom 0 text.toList) :
    (encode text).length - (start + 1) < (encode text).length - start ∧
      Scan.Searches text (start + 1) := by
  have hbehind : (ofChars (before ++ ['%'])).length = start + 1 := by
    rw [hstart, ofChars_append, List.length_append]
    rfl
  have htext' : text.toList = (before ++ ['%']) ++ cs := by
    rw [htext, List.append_assoc, List.singleton_append]
  have hle : start + 1 ≤ (encode text).length := by
    rw [← ofChars_toList, htext', ofChars_append, List.length_append, hbehind]
    exact Nat.le_add_right _ _
  refine ⟨by omega, before ++ ['%'], cs, htext', hbehind.symm, ?_⟩
  rw [← hfind, Marker.findFrom, hnone]
  rfl

/-- A round that starts in front of a possible marker reads the marker, or leads behind one sign. -/
theorem succeeds_readMarker (htext : text.toList = before ++ (tokenStart ++ tail))
    (hstart : start = (ofChars before).length)
    (hfind : Marker.findFrom start (tokenStart ++ tail) = Marker.findFrom 0 text.toList) :
    (Scan.readMarker ⟨0, encode text⟩ start).Succeeds text (Round.Leads
      (fun offset => (encode text).length - offset < (encode text).length - start ∧
        Scan.Searches text offset)
      (· = firstMarker? text)) := by
  obtain ⟨word, hword⟩ : ∃ word, word = tail.takeWhile isMarkerLetter := ⟨_, rfl⟩
  obtain ⟨rest, hrest⟩ : ∃ rest, rest = tail.dropWhile isMarkerLetter := ⟨_, rfl⟩
  have htail : tail = word ++ rest := by
    rw [hword, hrest, List.takeWhile_append_dropWhile]
  have hlength : ((ofChars tail).takeWhile Scan.isMarkerByte).length = (ofChars word).length := by
    rw [takeWhile_ofChars (fun c x => isMarkerByte_eq c), hword]
  unfold Scan.readMarker
  have hopening : text.toList = (before ++ tokenStart) ++ tail := by
    rw [htext, List.append_assoc]
  refine (Cutting.succeeds_cutAt_whole hopening (by simp [hstart])).bind ?_
  rintro opening ⟨-, hback⟩
  have hmiddle : text.toList = (before ++ tokenStart) ++ (word ++ rest) ++ [] := by
    rw [List.append_nil, ← htail, hopening]
  refine (Cutting.succeeds_cutAt (hback.trans (by rw [htail])) (by rw [hback]; exact hlength)
    hmiddle).bind ?_
  rintro closing ⟨-, hclosing⟩
  rw [hback, hclosing, Stretch.bytes_behind, Stretch.bytes_behind, isPrefixOf_ofChars]
  have hmarker := Marker.startOf?_append tail
  rw [← hword, ← hrest] at hmarker
  split
  · rename_i hclosed
    rw [if_pos hclosed] at hmarker
    obtain ⟨after, rfl⟩ := List.isPrefixOf_iff_prefix.mp hclosed
    have hslice : text.toList = before ++ ((tokenStart ++ word ++ delimiter) ++ after) := by
      rw [htext, htail, List.append_assoc, List.append_assoc]
    have hend : start + (ofChars tokenStart).length +
        ((ofChars tail).takeWhile Scan.isMarkerByte).length + (ofChars delimiter).length =
          (ofChars (before ++ (tokenStart ++ word ++ delimiter))).length := by
      rw [hlength, hstart]
      simp only [ofChars_append, List.length_append, Nat.add_assoc]
    refine (Cutting.succeeds_slice hslice hstart hend).bind ?_
    rintro marker hm
    refine Cutting.succeeds_pure ?_
    show some marker = firstMarker? text
    rw [hm, firstMarker?_of_startOf?_eq_some hmarker hfind, hstart]
    rfl
  · rename_i hopen
    rw [if_neg hopen] at hmarker
    exact Cutting.succeeds_pure (searches_behind_sign htext hstart hmarker hfind)

theorem succeeds_markerRound (h : Scan.Searches text offset) :
    (Scan.markerRound ⟨0, encode text⟩ offset).Succeeds text (Round.Leads
      (fun offset' => (encode text).length - offset' < (encode text).length - offset ∧
        Scan.Searches text offset')
      (· = firstMarker? text)) := by
  obtain ⟨before, cs, htext, hoffset, hfind⟩ := h
  unfold Scan.markerRound
  refine (Cutting.succeeds_cutAt_whole htext hoffset).bind ?_
  rintro rest ⟨-, hrest⟩
  rw [hrest, Stretch.bytes_behind]
  rcases position?_ofChars_cases (show tokenStart ≠ [] by decide) cs with
    ⟨hnone, hpos⟩ | ⟨front, tail, rfl, hfirst, hpos⟩
  · rw [hpos]
    refine Cutting.succeeds_pure ?_
    show none = firstMarker? text
    rw [firstMarker?_eq, ← hfind, Marker.findFrom_eq_none_of_not_tokenStart hnone]
    rfl
  · rw [hpos]
    have htext' : text.toList = (before ++ front) ++ (tokenStart ++ tail) := by
      rw [htext, List.append_assoc]
    have hstart : offset + (ofChars front).length = (ofChars (before ++ front)).length := by
      rw [hoffset, ofChars_append, List.length_append]
    have hfind' : Marker.findFrom (offset + (ofChars front).length) (tokenStart ++ tail) =
        Marker.findFrom 0 text.toList := by
      rw [← Marker.findFrom_append hfirst, hfind]
    refine (succeeds_readMarker htext' hstart hfind').mono fun r hr => ?_
    cases r with
    | answer a => exact hr
    | next offset' => exact ⟨Nat.lt_of_lt_of_le hr.1 (by omega), hr.2⟩

theorem succeeds_findMarker (text : String) :
    (Scan.findMarker (encode text)).Succeeds text (· = firstMarker? text) :=
  Cutting.succeeds_rounds (fun _ => succeeds_markerRound) ⟨[], text.toList, rfl, rfl, rfl⟩

end Search

/-- Either scan of a text cuts it between its characters only, round after round: each cut leaves a
text on either side, so that no scan breaks off. What they come to is what reading the text by
characters comes to. -/
theorem scans_cut_between_characters (text : String) :
    (∀ f : Fragments,
      (Scan.substitute (encode text) f).result? = some (encode (substitute text f)) ∧
        ∀ c ∈ (Scan.substitute (encode text) f).cuts, c.Divides text) ∧
      (Scan.findMarker (encode text)).result? = some (firstMarker? text) ∧
        ∀ c ∈ (Scan.findMarker (encode text)).cuts, c.Divides text := by
  refine ⟨fun f => ?_, ?_⟩
  · obtain ⟨hcuts, b, hresult, rfl⟩ := succeeds_substitute f text
    exact ⟨hresult, hcuts⟩
  · obtain ⟨hcuts, m, hresult, rfl⟩ := succeeds_findMarker text
    exact ⟨hresult, hcuts⟩

/-- Two rounds for the placeholder: one passes a sign over, the other one takes the token. -/
example : (Scan.substitute (encode "é%%%EMAIL_BODY%%世") {}).cuts.map Cut.position =
    [2, 3, 3, 17] := by decide +kernel

/-- The first start is not closed, and the second one is that of a marker. -/
example : (Scan.findMarker (encode "%%EMAIL_é%%EMAIL_X%%")).cuts.map Cut.position =
    [0, 8, 8, 1, 18, 19, 21, 10] := by decide +kernel

end MailMerge
