import MailMerge.Yaml.Token

/-! # Documents of YAML

Tokens put together to a tree of texts, sequences and mappings. A node may carry an anchor, and
an alias stands for the node with its anchor. A text may hold at most one document.
-/

namespace MailMerge.Yaml

structure Props (α : Type) where
  anchor : Option α := none
  tag : Option Bytes := none
  deriving DecidableEq, Repr

mutual

inductive Node (α : Type) : Type
  | scalar (props : Props α) (isPlain : Bool) (text : List Char)
  | sequence (props : Props α) (items : Items α)
  | mapping (props : Props α) (entries : Entries α)
  | alias (target : α)

inductive Items (α : Type) : Type
  | nil
  | cons (head : Node α) (tail : Items α)

inductive Entries (α : Type) : Type
  | nil
  | cons (key value : Node α) (tail : Entries α)

end

abbrev Handles : Type := List (List Char × Bytes)

namespace Handles

def standard : Handles := [(['!'], Utf8.encode "!"), (['!', '!'], Utf8.encode "tag:yaml.org,2002:")]

/-- The whole tag. A tag without a handle is whole already. -/
def resolve (hs : Handles) (handle : List Char) (suffix : Bytes) : Option Bytes :=
  if handle.isEmpty then some suffix else (hs.lookup handle).map (· ++ suffix)

end Handles

def emptyNode (props : Props (List Char) := {}) : Node (List Char) := .scalar props true []

def plainTag : Bytes := Utf8.encode "!"

/-- Anchor and tag, in either order and each at most once, and the tokens after them. -/
def readProps (handles : Handles) (props : Props (List Char)) :
    List Token → Option (Props (List Char) × List Token)
  | .anchor name :: ts =>
    if props.anchor.isSome then some (props, .anchor name :: ts)
    else readProps handles { props with anchor := some name } ts
  | .tag handle suffix :: ts =>
    if props.tag.isSome then some (props, .tag handle suffix :: ts)
    else
      match handles.resolve handle suffix with
      | some tag => readProps handles { props with tag := some tag } ts
      | none => none
  | ts => some (props, ts)

def nextIsOneOf (stops : List Token) (ts : List Token) : Bool := ts.head?.any stops.contains

section Reading

variable (handles : Handles)

mutual

/-- The next node. `block` allows collections that are written by indentation, `indentless` a
sequence that is not indented at all. `fuel` bounds the depth and the number of parts. -/
def readNode : (fuel : Nat) → (block indentless : Bool) → List Token →
    Option (Node (List Char) × List Token)
  | 0, _, _, _ => none
  | fuel + 1, block, indentless, ts =>
    match ts with
    | .alias name :: ts => some (.alias name, ts)
    | ts => do
      let (props, ts) ← readProps handles {} ts
      match ts with
      | .scalar isPlain text :: ts =>
        let tag := props.tag.filter (· != plainTag)
        some (.scalar { props with tag } isPlain text, ts)
      | .blockEntry :: rest =>
        if indentless then do
          let (items, ts) ← readIndentless fuel (.blockEntry :: rest)
          return (.sequence props items, ts)
        else if props = {} then none else some (emptyNode props, .blockEntry :: rest)
      | .flowSequence :: ts => do
        let (items, ts) ← readFlowItems fuel true ts
        return (.sequence props items, ts)
      | .flowMapping :: ts => do
        let (entries, ts) ← readFlowEntries fuel true ts
        return (.mapping props entries, ts)
      | .blockSequence :: rest =>
        if block then do
          let (items, ts) ← readBlockItems fuel rest
          return (.sequence props items, ts)
        else if props = {} then none else some (emptyNode props, .blockSequence :: rest)
      | .blockMapping :: rest =>
        if block then do
          let (entries, ts) ← readBlockEntries fuel rest
          return (.mapping props entries, ts)
        else if props = {} then none else some (emptyNode props, .blockMapping :: rest)
      | ts => if props = {} then none else some (emptyNode props, ts)

/-- A node in a block, or nothing if one of `stops` comes first. -/
def readBlockNode : (fuel : Nat) → (indentless : Bool) → (stops : List Token) → List Token →
    Option (Node (List Char) × List Token)
  | 0, _, _, _ => none
  | fuel + 1, indentless, stops, ts =>
    if nextIsOneOf stops ts then some (emptyNode, ts) else readNode fuel true indentless ts

/-- A node in brackets, or nothing if one of `stops` comes first. -/
def readFlowNode : (fuel : Nat) → (stops : List Token) → List Token →
    Option (Node (List Char) × List Token)
  | 0, _, _ => none
  | fuel + 1, stops, ts =>
    if nextIsOneOf stops ts then some (emptyNode, ts) else readNode fuel false false ts

def readBlockItems : (fuel : Nat) → List Token → Option (Items (List Char) × List Token)
  | 0, _ => none
  | fuel + 1, ts =>
    match ts with
    | .blockEntry :: ts => do
      let (item, ts) ← readBlockNode fuel false [.blockEntry, .blockEnd] ts
      let (items, ts) ← readBlockItems fuel ts
      return (.cons item items, ts)
    | .blockEnd :: ts => some (.nil, ts)
    | _ => none

/-- The items of a sequence that is indented no further than the key it belongs to. -/
def readIndentless : (fuel : Nat) → List Token → Option (Items (List Char) × List Token)
  | 0, _ => none
  | fuel + 1, ts =>
    match ts with
    | .blockEntry :: ts => do
      let (item, ts) ← readBlockNode fuel false [.blockEntry, .key, .value, .blockEnd] ts
      let (items, ts) ← readIndentless fuel ts
      return (.cons item items, ts)
    | ts => some (.nil, ts)

def readBlockEntries : (fuel : Nat) → List Token → Option (Entries (List Char) × List Token)
  | 0, _ => none
  | fuel + 1, ts =>
    match ts with
    | .key :: ts => do
      let stops : List Token := [.key, .value, .blockEnd]
      let (key, ts) ← readBlockNode fuel true stops ts
      let (value, ts) ←
        match ts with
        | .value :: ts => readBlockNode fuel true stops ts
        | ts => some (emptyNode, ts)
      let (entries, ts) ← readBlockEntries fuel ts
      return (.cons key value entries, ts)
    | .blockEnd :: ts => some (.nil, ts)
    | _ => none

def readFlowItems : (fuel : Nat) → (first : Bool) → List Token →
    Option (Items (List Char) × List Token)
  | 0, _, _ => none
  | fuel + 1, first, ts =>
    match first, ts with
    | _, .flowSequenceEnd :: ts => some (.nil, ts)
    | true, ts => readFlowItem fuel ts
    | false, .flowEntry :: .flowSequenceEnd :: ts => some (.nil, ts)
    | false, .flowEntry :: ts => readFlowItem fuel ts
    | false, _ => none

/-- One item in brackets and those after it. A key makes a mapping of one entry; where the key
is left out, the token that shows this is lost. -/
def readFlowItem : (fuel : Nat) → List Token → Option (Items (List Char) × List Token)
  | 0, _ => none
  | fuel + 1, ts =>
    match ts with
    | .key :: ts => do
      let (key, ts) ←
        if nextIsOneOf [.value, .flowEntry, .flowSequenceEnd] ts then some (emptyNode, ts.tail)
        else readNode fuel false false ts
      let (value, ts) ←
        match ts with
        | .value :: ts => readFlowNode fuel [.flowEntry, .flowSequenceEnd] ts
        | ts => some (emptyNode, ts)
      let (items, ts) ← readFlowItems fuel false ts
      return (.cons (.mapping {} (.cons key value .nil)) items, ts)
    | ts => do
      let (item, ts) ← readNode fuel false false ts
      let (items, ts) ← readFlowItems fuel false ts
      return (.cons item items, ts)

def readFlowEntries : (fuel : Nat) → (first : Bool) → List Token →
    Option (Entries (List Char) × List Token)
  | 0, _, _ => none
  | fuel + 1, first, ts =>
    match first, ts with
    | _, .flowMappingEnd :: ts => some (.nil, ts)
    | true, ts => readFlowEntry fuel ts
    | false, .flowEntry :: .flowMappingEnd :: ts => some (.nil, ts)
    | false, .flowEntry :: ts => readFlowEntry fuel ts
    | false, _ => none

/-- One entry in brackets and those after it. A node without a key mark is a key without
a value. -/
def readFlowEntry : (fuel : Nat) → List Token → Option (Entries (List Char) × List Token)
  | 0, _ => none
  | fuel + 1, ts => do
    let (key, value, ts) ←
      match ts with
      | .key :: ts => do
        let (key, ts) ← readFlowNode fuel [.value, .flowEntry, .flowMappingEnd] ts
        match ts with
        | .value :: ts => do
          let (value, ts) ← readFlowNode fuel [.flowEntry, .flowMappingEnd] ts
          some (key, value, ts)
        | ts => some (key, emptyNode, ts)
      | ts => do
        let (key, ts) ← readNode fuel false false ts
        some (key, emptyNode, ts)
    let (entries, ts) ← readFlowEntries fuel false ts
    return (.cons key value entries, ts)

end

end Reading

/-- The directives in front of a document: at most one version, which is 1.1 or 1.2, and at most
one tag for each handle. -/
def readDirectives (version : Bool) (handles : Handles) :
    List Token → Option (Handles × List Token)
  | .version major minor :: ts =>
    if version || major ≠ 1 || (minor ≠ 1 && minor ≠ 2) then none
    else readDirectives true handles ts
  | .handle name tag :: ts =>
    if (handles.lookup name).isSome then none else readDirectives version ((name, tag) :: handles) ts
  | ts => some (handles, ts)

def startsDocument (ts : List Token) : Bool :=
  ts.head?.any fun t =>
    match t with
    | .version .. | .handle .. | .documentStart => true
    | _ => false

def readDocument (ts : List Token) : Option (Option (Node (List Char)) × List Token) :=
  if ts.isEmpty then some (none, [])
  else do
    let (handles, ts, isMarked) ←
      if startsDocument ts then do
        let (handles, ts) ← readDirectives false [] ts
        match ts with
        | .documentStart :: ts => some (handles, ts, true)
        | _ => none
      else some ([], ts, false)
    let fuel := 4 * ts.length + 4
    if isMarked && (ts.isEmpty || startsDocument ts || ts.head? == some .documentEnd) then
      return (some emptyNode, ts)
    let (root, ts) ← readNode (handles ++ Handles.standard) fuel true false ts
    return (some root, ts)

abbrev Anchors : Type := List (List Char × Nat)

abbrev Linked (β : Type) : Type := StateT Anchors Option β

/-- An anchor is numbered by how many names there are before it; a name used again gets a new
number. -/
def linkProps (props : Props (List Char)) : Linked (Props Nat) := do
  match props.anchor with
  | none => return { tag := props.tag }
  | some name =>
    let anchors ← get
    set ((name, anchors.length) :: anchors.filter fun a => a.1 ≠ name)
    return { anchor := some anchors.length, tag := props.tag }

mutual

/-- The node with numbers for anchors. An alias stands for the number that its name has at this
place. -/
def Node.link : Node (List Char) → Linked (Node Nat)
  | .scalar props isPlain text => do return .scalar (← linkProps props) isPlain text
  | .sequence props items => do
    let props ← linkProps props
    return .sequence props (← items.link)
  | .mapping props entries => do
    let props ← linkProps props
    return .mapping props (← entries.link)
  | .alias name => do
    match (← get).lookup name with
    | some n => return .alias n
    | none => failure

def Items.link : Items (List Char) → Linked (Items Nat)
  | .nil => return .nil
  | .cons head tail => do
    let head ← head.link
    return .cons head (← tail.link)

def Entries.link : Entries (List Char) → Linked (Entries Nat)
  | .nil => return .nil
  | .cons key value tail => do
    let key ← key.link
    let value ← value.link
    return .cons key value (← tail.link)

end

def Node.props : Node Nat → Props Nat
  | .scalar props _ _ | .sequence props _ | .mapping props _ => props
  | .alias _ => {}

mutual

def Node.anchored (n : Nat) : Node Nat → List (Node Nat)
  | .sequence props items =>
    (if props.anchor = some n then [.sequence props items] else []) ++ items.anchored n
  | .mapping props entries =>
    (if props.anchor = some n then [.mapping props entries] else []) ++ entries.anchored n
  | node => if node.props.anchor = some n then [node] else []

def Items.anchored (n : Nat) : Items Nat → List (Node Nat)
  | .nil => []
  | .cons head tail => head.anchored n ++ tail.anchored n

def Entries.anchored (n : Nat) : Entries Nat → List (Node Nat)
  | .nil => []
  | .cons key value tail => key.anchored n ++ value.anchored n ++ tail.anchored n

end

/-- The node itself, or what it is an alias of: of nodes with one number the last. -/
def Node.resolve (root : Node Nat) : Node Nat → Option (Node Nat)
  | .alias n => (root.anchored n).getLast?
  | node => some node

/-- The only document of a text. There may be none; a text that breaks a rule gives nothing. -/
def document? (s : String) : Option (Option (Node Nat)) := do
  let (root, ts) ← readDocument (← tokens? s.toList)
  if ts.all (· == .documentEnd) then
    match root with
    | none => return none
    | some root => return some (← root.link.run' [])
  else none

end MailMerge.Yaml
