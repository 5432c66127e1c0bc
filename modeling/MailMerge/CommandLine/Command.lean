import MailMerge.CommandLine.Arguments
import MailMerge.Rendering

/-! # Commands

What can be asked for on the command line, and how the words name it.
-/

namespace MailMerge.CommandLine

inductive Source
  | file (path : Path)
  | inline (html : String)
  deriving DecidableEq, Repr

/-- A request given by options: each one that is given counts instead of what a file says. -/
structure RenderOptions where
  request : Option Path := none
  recipient : Option String := none
  subject : Option String := none
  template : Option String := none
  fragments : Fragments := {}
  json : Bool := false
  deriving DecidableEq, Repr

/-- The request with what the options say in place of what it said. -/
def RenderOptions.applyTo (o : RenderOptions) (r : EmailRequest) : EmailRequest where
  recipient := o.recipient <|> r.recipient
  title := o.subject <|> r.title
  templateName := o.template <|> r.templateName
  fragments := .ofFn fun p => o.fragments.get? p <|> r.fragments.get? p

inductive Command
  | init
  | list (json : Bool)
  | print (name : String)
  | create (name : String) (source : Source)
  | update (name : String) (newName : Option String) (source : Source)
  | delete (name : String)
  | render (options : RenderOptions)
  deriving DecidableEq, Repr

def optionName : Placeholder → String
  | .header => "header"
  | .body => "body"
  | .footer => "footer"
  | .correspondentName => "name"
  | .senderName => "sender"

/-- The options that name a document, of which exactly one is given. -/
def sourceOptions : List OptionSpec := [{ name := "file", isPath := true }, { name := "html" }]

def sourceOf (a : Arguments) : Except Refusal Source :=
  match a.option? "file", a.option? "html" with
  | some path, none => .ok (.file (Path.ofString path))
  | none, some html => .ok (.inline html)
  | _, _ => .error .usage

def withName (spec : Spec) (words : List String)
    (f : String → Arguments → Except Refusal Command) : Except Refusal Command := do
  let a ← Arguments.ofWords { spec with names := 1 } {} words
  match a.names with
  | [name] => f name a
  | _ => .error .usage

def templateCommands : List (String × (List String → Except Refusal Command)) :=
  [("list", fun words => do
      return .list ((← Arguments.ofWords { flags := ["json"] } {} words).hasFlag "json")),
   ("show", fun words => withName {} words fun name _ => .ok (.print name)),
   ("create", fun words => withName { options := sourceOptions } words fun name a => do
      return .create name (← sourceOf a)),
   ("update", fun words =>
      withName { options := { name := "name" } :: sourceOptions } words fun name a => do
        return .update name (a.option? "name") (← sourceOf a)),
   ("delete", fun words => withName {} words fun name _ => .ok (.delete name))]

def renderSpec : Spec where
  options :=
    [{ name := "request", isPath := true }, { name := "to" }, { name := "subject" },
      { name := "template" }] ++ Placeholder.all.map fun p => { name := optionName p }
  flags := ["json"]

def renderOptionsOf (a : Arguments) : RenderOptions where
  request := (a.option? "request").map Path.ofString
  recipient := a.option? "to"
  subject := a.option? "subject"
  template := a.option? "template"
  fragments := .ofFn fun p => a.option? (optionName p)
  json := a.hasFlag "json"

def helpOn (commands : List String) : List String → Refusal
  | [] => .help
  | [w] => if commands.contains w then .help else .usage
  | _ => .usage

def templateCommandOf : List String → Except Refusal Command
  | [] => .error .usage
  | w :: words =>
    match templateCommands.lookup w, Word.ofString w with
    | some read, _ => read words
    | none, .name "help" => .error (helpOn ("help" :: templateCommands.map Prod.fst) words)
    | none, .short 'h' => .error .help
    | none, .long "help" none => .error .help
    | _, _ => .error .usage

def Command.ofWords : List String → Except Refusal Command
  | [] => .error .usage
  | w :: words =>
    match Word.ofString w with
    | .name "init" => do
      let _ ← Arguments.ofWords {} {} words
      return .init
    | .name "template" => templateCommandOf words
    | .name "render" => do
      return .render (renderOptionsOf (← Arguments.ofWords renderSpec {} words))
    | .name "help" =>
      match words with
      | "template" :: words =>
        .error (helpOn ("help" :: templateCommands.map Prod.fst) words)
      | words => .error (helpOn ["init", "render", "help"] words)
    | .short 'h' => .error .help
    | .long "help" none => .error .help
    | .short 'V' => .error .version
    | .long "version" none => .error .version
    | _ => .error .usage

end MailMerge.CommandLine
