import MailMerge.Placeholder

/-! # Markers

A marker is anything shaped like a token, known or not: `%%EMAIL_`, capital letters and low
lines, `%%`. A value that still holds one was not expanded.
-/

namespace MailMerge

def isMarkerLetter (c : Char) : Bool := c.isUpper || c == '_'

namespace Marker

def startOf? (cs : List Char) : Option (List Char) :=
  match tokenStart.isPrefixOf? cs with
  | none => none
  | some tail =>
    let word := tail.takeWhile isMarkerLetter
    if delimiter.isPrefixOf (tail.dropWhile isMarkerLetter) then
      some (tokenStart ++ word ++ delimiter)
    else none

/-- The first marker of the text and the number of bytes before it. -/
def findFrom (offset : Nat) : List Char → Option (List Char × Nat)
  | [] => none
  | c :: cs =>
    match startOf? (c :: cs) with
    | some marker => some (marker, offset)
    | none => findFrom (offset + c.utf8Size) cs

end Marker

/-- The leftmost marker of a text, and its offset in bytes of the UTF-8 form. -/
def findMarker (s : String) : Option (String × Nat) :=
  (Marker.findFrom 0 s.toList).map fun m => (String.ofList m.1, m.2)

end MailMerge
