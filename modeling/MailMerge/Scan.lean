import MailMerge.Fragments
import MailMerge.Text.Cutting
import MailMerge.Text.Search

/-! # Scanning a text by its bytes

The search for markers and the substitution of tokens, on a text that stays as it lies in memory.
Either scan goes round by round: it looks for the next sign of what it is after, cuts the text
there, and goes on behind it. No character is decoded, so nothing but the bytes that were looked at
keeps a cut from falling within one.
-/

namespace MailMerge.Scan

open Utf8 Cutting

/-- Substitution between two rounds: what has been written, and what is still to be read. -/
structure Progress where
  written : Bytes
  rest : Stretch

def tokenOf? (b : Bytes) : Option Placeholder :=
  Placeholder.all.find? fun p => (ofChars p.tokenChars).isPrefixOf b

/-- Takes the token that the rest of the document starts with, and writes its value. If it starts
with none, one sign is copied, so that the next round may find a token that starts with the second
one. -/
def takeToken (f : Fragments) (s : Progress) : Cutting (Round Progress Bytes) :=
  match tokenOf? s.rest.bytes with
  | some p => do
    let token ← cutAt s.rest (ofChars p.tokenChars).length
    return .next ⟨s.written ++ encode (f.textFor p), token.back⟩
  | none => do
    let sign ← cutAt s.rest 1
    return .next ⟨s.written ++ ofChars ['%'], sign.back⟩

/-- Copies what stands in front of the next delimiter, and goes on there. -/
def substituteRound (f : Fragments) (s : Progress) : Cutting (Round Progress Bytes) :=
  match position? (ofChars delimiter) s.rest.bytes with
  | none => return .answer (s.written ++ s.rest.bytes)
  | some pos => do
    let literal ← cutAt s.rest pos
    takeToken f ⟨s.written ++ literal.front.bytes, literal.back⟩

def substitute (html : Bytes) (f : Fragments) : Cutting Bytes :=
  rounds (·.rest.bytes.length) (substituteRound f) ⟨[], ⟨0, html⟩⟩

def isMarkerByte (b : UInt8) : Bool := (0x41 ≤ b && b ≤ 0x5A) || b == 0x5F

/-- Reads the marker that may start behind `start` bytes of the text, where the characters that
every token begins with have been found. If it is not closed, the next round looks behind the first
byte of it. -/
def readMarker (text : Stretch) (start : Nat) : Cutting (Round Nat (Option Stretch)) := do
  let wordStart := start + (ofChars tokenStart).length
  let opening ← cutAt text wordStart
  let length := (opening.back.bytes.takeWhile isMarkerByte).length
  let word ← cutAt opening.back length
  if (ofChars delimiter).isPrefixOf word.back.bytes then do
    let marker ← slice text start (wordStart + length + (ofChars delimiter).length)
    return .answer (some marker)
  else return .next (start + 1)

/-- Looks behind the first `offset` bytes of the text for the next place at which a marker may
start. -/
def markerRound (text : Stretch) (offset : Nat) : Cutting (Round Nat (Option Stretch)) := do
  let rest ← cutAt text offset
  match position? (ofChars tokenStart) rest.back.bytes with
  | none => return .answer none
  | some pos => readMarker text (offset + pos)

def findMarker (text : Bytes) : Cutting (Option Stretch) :=
  rounds (text.length - ·) (markerRound ⟨0, text⟩) 0

end MailMerge.Scan
