import MailMerge.CommandLine.Report

/-! # The program

The command line on the disk of the machine: every request is answered by the operating system.
-/

namespace MailMerge.Machine

open Disk

/-- Where a path leads, seen from the current folder. -/
def locate (p : Path) := do
  return (← IO.currentDir) / p.display

def magnitude (code : UInt32) : Nat := min code.toNat (0 - code).toNat

/-- The code of the operating system for a failure, and its text. -/
def codeOf : IO.Error → Nat × String
  | .noFileOrDirectory _ code text | .interrupted _ code text
  | .alreadyExists _ code text | .invalidArgument _ code text | .permissionDenied _ code text
  | .resourceExhausted _ code text | .inappropriateType _ code text | .noSuchThing _ code text
  | .otherError code text | .resourceBusy code text | .resourceVanished code text
  | .unsupportedOperation code text | .hardwareFault code text
  | .unsatisfiedConstraints code text | .illegalOperation code text | .protocolError code text
  | .timeExpired code text => (magnitude code, text)
  | .unexpectedEof => (0, "unexpected end of file")
  | .userError text => (0, text)

def faultOf (e : IO.Error) : Fault :=
  match codeOf e with
  | (2, _) => .notFound
  | (16, _) => .busy
  | (17, _) => .alreadyExists
  | (20, _) => .notFolder
  | (21, _) => .isFolder
  | (22, _) => .invalid
  | (36, _) => .nameTooLong
  | (39, _) => .notEmpty
  | (40, _) => .tooManyLinks
  | (code, text) => .other (text ++ " (os error " ++ toString code ++ ")")

/-- What the operating system answers, or the fault it reports. The empty path leads nowhere. -/
def asked {α : Type} (p : Path) (m : IO α) : IO (Except Fault α) := do
  if p.bytes.isEmpty then return .error .notFound
  if p.bytes.contains 0 then return .error .zeroByte
  match ← m.toBaseIO with
  | .ok a => return .ok a
  | .error e => return .error (faultOf e)

def infoOf (m : IO.FS.Metadata) : Info where
  isFile := m.type matches .file
  isFolder := m.type matches .dir
  stamp := m.modified.sec * 1000000000 + m.modified.nsec.toNat

def rightsOf (digit : Nat) : IO.AccessRight where
  read := digit / 4 % 2 == 1
  write := digit / 2 % 2 == 1
  execution := digit % 2 == 1

def answer : (r : Request) → IO r.Reply
  | .look p => asked p do return infoOf (← (← locate p).metadata)
  | .list p => asked p do
    let entries ← (← locate p).readDir
    entries.toList.mapM fun e => do
      return (Utf8.encode e.fileName, infoOf (← e.path.symlinkMetadata))
  | .read p => asked p do return (← IO.FS.readBinFile (← locate p)).data.toList
  | .write p bytes => asked p do IO.FS.writeBinFile (← locate p) ⟨bytes.toArray⟩
  | .rename p q => asked p do IO.FS.rename (← locate p) (← locate q)
  | .remove p => asked p do IO.FS.removeFile (← locate p)
  | .makeFolder p => asked p do IO.FS.createDir (← locate p)
  | .setMode p mode => asked p do
    IO.setAccessRights (← locate p)
      { user := rightsOf (mode / 64), group := rightsOf (mode / 8), other := rightsOf mode }

def run {α : Type} : Program α → IO α
  | .done a => return a
  | .ask r next => do run (next (← answer r))

end MailMerge.Machine

open MailMerge in
def main (words : List String) : IO UInt32 := do
  let home := (← IO.getEnv "HOME").map Path.ofString
  let report ← Machine.run (CommandLine.run home words)
  IO.print report.output
  IO.eprint report.error
  return report.exit.toUInt32
