import MailMerge.Text.Split
import MailMerge.Text.Utf8

/-! # Paths

A path is a run of bytes, cut into names by slashes. Nothing is normalised: a path is shown as it
was put together.
-/

namespace MailMerge

structure Path where
  bytes : Bytes
  deriving DecidableEq, Repr, Inhabited

namespace Path

def slash : UInt8 := 0x2F

def ofString (s : String) : Path := ⟨Utf8.encode s⟩

/-- The path as a text; bytes that are no UTF-8 are shown as U+FFFD. -/
def display (p : Path) : String := Utf8.lossy p.bytes

def text? (p : Path) : Option String := Utf8.decode? p.bytes

def isAbsolute (p : Path) : Bool := p.bytes.head? == some slash

/-- The names between the slashes, in order; doubled and outer slashes give empty names. -/
def names (p : Path) : List Bytes := fields slash p.bytes

/-- `rest` read inside the folder `p`: one slash between them, and an absolute `rest` alone. -/
def join (p rest : Path) : Path :=
  if rest.isAbsolute || p.bytes.isEmpty then rest
  else if p.bytes.getLast? == some slash then ⟨p.bytes ++ rest.bytes⟩
  else ⟨p.bytes ++ slash :: rest.bytes⟩

def child (p : Path) (name : String) : Path := p.join (ofString name)

/-- The path without the slashes at its end; a path of slashes alone is kept. -/
def trimSlashes (p : Path) : Path :=
  let kept := (p.bytes.reverse.dropWhile (· == slash)).reverse
  if kept.isEmpty then p else ⟨kept⟩

def parent? (p : Path) : Option Path :=
  let trimmed := (p.bytes.reverse.dropWhile (· == slash)).reverse
  if trimmed.isEmpty then none
  else
    let above := (trimmed.reverse.dropWhile (· != slash)).reverse
    let kept := (above.reverse.dropWhile (· == slash)).reverse
    if kept.isEmpty && !above.isEmpty then some ⟨[slash]⟩ else some ⟨kept⟩

theorem display_ofString (s : String) : (ofString s).display = s := by
  simp [display, ofString]

theorem text?_ofString (s : String) : (ofString s).text? = some s := by
  simp [text?, ofString]

theorem ofString_of_text? {p : Path} {s : String} (h : p.text? = some s) : ofString s = p :=
  congrArg mk (Utf8.encode_of_decode? h)

end Path

end MailMerge
