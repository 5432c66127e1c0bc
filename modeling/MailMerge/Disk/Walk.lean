import MailMerge.Disk.Basic
import MailMerge.Disk.Fault
import MailMerge.Disk.Path

/-! # Walking a path

A path leads to a place: name by name from the root or from the folder that relative paths start
from, through symbolic links. The last name need not exist.
-/

namespace MailMerge

def nameLimit : Nat := 255

/-- The number of bytes from which on a path is too long. -/
def pathLimit : Nat := 4096

def linkLimit : Nat := 40

def selfName : Bytes := [0x2E]

def upName : Bytes := [0x2E, 0x2E]

namespace Disk

variable (d : Disk)

/-- Goes on from `p` by `names`. A link met on the way is left to `onward`, with the names that
are still to go; a link in last place is left to it only if `follow` is set. -/
def walkWith (follow : Bool) (onward : List Bytes → Place → Except Fault Place) :
    List Bytes → Place → Except Fault Place
  | [], p => .ok p
  | n :: rest, p =>
    match d.get? p with
    | none => .error .notFound
    | some (.folder _) =>
      if n = [] ∨ n = selfName then walkWith follow onward rest p
      else if n = upName then walkWith follow onward rest p.tail
      else if nameLimit < n.length then .error .nameTooLong
      else
        match d.get? (n :: p) with
        | none => if rest = [] then .ok (n :: p) else .error .notFound
        | some (.link target) =>
          if rest = [] ∧ follow = false then .ok (n :: p)
          else if target = [] then .error .notFound
          else
            onward (Path.names ⟨target⟩ ++ rest) (if Path.isAbsolute ⟨target⟩ then [] else p)
        | some _ => walkWith follow onward rest (n :: p)
    | some _ => .error .notFolder

def walk (follow : Bool) : (links : Nat) → List Bytes → Place → Except Fault Place
  | 0 => d.walkWith follow fun _ _ => .error .tooManyLinks
  | links + 1 => d.walkWith follow (walk follow links)

/-- The place that a path leads to. `follow` tells whether a link in last place is followed. -/
def resolve (follow : Bool) (p : Path) : Except Fault Place :=
  if 0 ∈ p.bytes then .error .zeroByte
  else if p.bytes = [] then .error .notFound
  else if pathLimit ≤ p.bytes.length then .error .nameTooLong
  else d.walk follow linkLimit p.names (if p.isAbsolute then [] else d.here)

end Disk

end MailMerge
