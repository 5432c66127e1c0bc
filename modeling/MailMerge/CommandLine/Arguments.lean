/-! # Arguments

The words of a command line, sorted into options, flags and names. The words are read from left to
right, and the first one that breaks a rule or asks for help decides.
-/

namespace MailMerge.CommandLine

/-- Why the words make no command. -/
inductive Refusal
  | usage
  | help
  | version
  deriving DecidableEq, Repr

structure OptionSpec where
  name : String
  /-- The value is a path, which is not empty. -/
  isPath : Bool := false

structure Spec where
  options : List OptionSpec := []
  flags : List String := []
  /-- How many names it takes; none may be left out. -/
  names : Nat := 0

/-- The words of a command, sorted. -/
structure Arguments where
  options : List (String × String) := []
  flags : List String := []
  names : List String := []

namespace Arguments

def option? (a : Arguments) (name : String) : Option String := a.options.lookup name

def hasFlag (a : Arguments) (name : String) : Bool := a.flags.contains name

def addOption (a : Arguments) (o : OptionSpec) (value : String) : Except Refusal Arguments :=
  if (a.option? o.name).isSome || (o.isPath && value.isEmpty) then .error .usage
  else .ok { a with options := (o.name, value) :: a.options }

def addFlag (a : Arguments) (name : String) : Except Refusal Arguments :=
  if a.hasFlag name then .error .usage else .ok { a with flags := name :: a.flags }

def addName (spec : Spec) (a : Arguments) (name : String) : Except Refusal Arguments :=
  if a.names.length < spec.names then .ok { a with names := a.names ++ [name] }
  else .error .usage

end Arguments

inductive Word
  | name (s : String)
  | long (name : String) (value : Option String)
  | short (letter : Char)
  | escape
  deriving DecidableEq, Repr

/-- Words that start with a hyphen are no names, except for the hyphen alone. -/
def Word.ofString (s : String) : Word :=
  match s.toList with
  | ['-', '-'] => escape
  | '-' :: '-' :: cs =>
    let name := cs.takeWhile (· != '=')
    let value :=
      match cs.dropWhile (· != '=') with
      | _ :: v => some (String.ofList v)
      | [] => none
    long (String.ofList name) value
  | '-' :: c :: _ => short c
  | _ => name s

def Word.isName : Word → Bool
  | name _ => true
  | _ => false

def Arguments.finish (spec : Spec) (a : Arguments) : Except Refusal Arguments :=
  if a.names.length < spec.names then .error .usage else .ok a

/-- Sorts the words of a command. Every word after the escape `--` is a name. -/
def Arguments.ofWords (spec : Spec) (a : Arguments) : List String → Except Refusal Arguments
  | [] => a.finish spec
  | w :: ws =>
    match Word.ofString w with
    | .name s => do ofWords spec (← a.addName spec s) ws
    | .escape => do (← ws.foldlM (fun a s => a.addName spec s) a).finish spec
    | .short c => .error (if c = 'h' then .help else .usage)
    | .long name value =>
      match spec.options.find? fun o => o.name == name, value with
      | some o, some v => do ofWords spec (← a.addOption o v) ws
      | some o, none =>
        match ws with
        | v :: ws =>
          if (Word.ofString v).isName then do ofWords spec (← a.addOption o v) ws
          else .error .usage
        | [] => .error .usage
      | none, some _ => .error .usage
      | none, none =>
        if spec.flags.contains name then do ofWords spec (← a.addFlag name) ws
        else .error (if name = "help" then .help else .usage)

end MailMerge.CommandLine
