import MailMerge.Text.Alphanumeric
import MailMerge.Text.Split

/-! # Addresses

The form of a recipient address: a local part, one at sign, and a domain of at least two labels,
with no white space anywhere. `AddressFault.of?` names the first rule that a text breaks.
-/

namespace MailMerge

namespace Address

def localLimit : Nat := 64

def domainLimit : Nat := 254

def labelLimit : Nat := 63

def byteLength (cs : List Char) : Nat := cs.foldr (fun c n => c.utf8Size + n) 0

def atomSigns : List Char :=
  ['!', '#', '$', '%', '&', '\'', '*', '+', '-', '/', '=', '?', '^', '_', '\x60', '\x7B', '|',
    '\x7D', '~']

/-- The characters outside ASCII that the grammar names by code: two bytes as a pair, the upper
one from C2 to DF and the lower one from 80 to BF. -/
def isPaired (c : Char) : Bool :=
  let upper := c.toNat / 256
  let lower := c.toNat % 256
  decide (0xC2 ≤ upper) && decide (upper ≤ 0xDF) && decide (0x80 ≤ lower) && decide (lower ≤ 0xBF)

def isVisible (c : Char) : Bool := decide (0x21 ≤ c.toNat) && decide (c.toNat ≤ 0x7E)

def isAtomChar (c : Char) : Bool := isAlphanumeric c || atomSigns.contains c || isPaired c

def isQuotedChar (c : Char) : Bool := (isVisible c && c != '"' && c != '\\') || isPaired c

def isLiteralChar (c : Char) : Bool :=
  (isVisible c && c != '[' && c != '\\' && c != ']') || isPaired c

def isAtom (cs : List Char) : Bool := !cs.isEmpty && cs.all isAtomChar

def isDotAtom (cs : List Char) : Bool := (fields '.' cs).all isAtom

def isQuotedText : List Char → Bool
  | [] => true
  | '\\' :: c :: cs => isVisible c && isQuotedText cs
  | c :: cs => isQuotedChar c && isQuotedText cs

/-- What stands between `first` at the start and `last` at the end, if both are there. -/
def between? (first last : Char) (cs : List Char) : Option (List Char) :=
  match cs with
  | c :: rest => if c = first ∧ rest.getLast? = some last then some rest.dropLast else none
  | [] => none

/-- A local part: at most 64 bytes, and quoted or made of atoms. -/
def isLocal (cs : List Char) : Bool :=
  decide (byteLength cs ≤ localLimit) && cs.head? != some '<' &&
    match between? '"' '"' cs with
    | some inner => !inner.isEmpty && isQuotedText inner
    | none => isDotAtom cs

/-- A label of a domain name: an atom of at most 63 bytes that starts and ends with a letter or
digit. -/
def isLabel (cs : List Char) : Bool :=
  isAtom cs && decide (byteLength cs ≤ labelLimit) && cs.head?.any isAlphanumeric &&
    cs.getLast?.any isAlphanumeric

/-- A domain: at most 254 bytes, and in brackets or made of labels. -/
def isDomain (cs : List Char) : Bool :=
  decide (byteLength cs ≤ domainLimit) &&
    match between? '[' ']' cs with
    | some inner => inner.all isLiteralChar
    | none => (fields '.' cs).all isLabel

end Address

inductive AddressFault
  | blank
  | outerSpace
  | innerSpace
  | atSigns
  | noLocal
  | noDomain
  | noTopLevel
  | emptyLabel
  | malformed
  deriving DecidableEq, Repr

namespace AddressFault

open Address

def reason : AddressFault → String
  | blank => "is required"
  | outerSpace => "must not have leading or trailing whitespace"
  | innerSpace => "must not contain whitespace"
  | atSigns => "must contain exactly one '@'"
  | noLocal => "is missing the part before '@'"
  | noDomain => "is missing the domain"
  | noTopLevel => "domain must include a TLD (e.g., .com, .org)"
  | emptyLabel => "domain must not contain empty labels"
  | malformed => "is not a valid email address"

/-- The first rule that the parts of an address break. -/
def ofParts? (localPart domain : List Char) : Option AddressFault :=
  if localPart = [] then some noLocal
  else if domain = [] then some noDomain
  else if '.' ∉ domain then some noTopLevel
  else if [] ∈ fields '.' domain then some emptyLabel
  else if isLocal localPart && isDomain domain then none
  else some malformed

def of? (s : String) : Option AddressFault :=
  if isBlank s then some blank
  else if hasOuterSpace s then some outerSpace
  else if s.toList.any isSpace then some innerSpace
  else
    match fields '@' s.toList with
    | [localPart, domain] => ofParts? localPart domain
    | _ => some atSigns

end AddressFault

end MailMerge
