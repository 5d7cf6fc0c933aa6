import BraceLang.Yaml.Graph
import BraceLang.Yaml.Token

/-!
# Documents of YAML

The tokens of a text are put together to the graph of its one document. An alias stands for the
node that its anchor names, which has to begin before it and may be one that the alias is in. The
tokens are looked at one by one, so a fault among them only counts once it is reached.
-/

namespace BraceLang.Yaml

/-- The handles of tags with what they stand for. -/
abbrev Handles := List (String × String)

/-- The handles that every document has. -/
def standardHandles : Handles := [("!", "!"), ("!!", "tag:yaml.org,2002:")]

/-- What is unread, the nodes so far, and the numbers of those that have been named. -/
structure Pending where
  tokens : List Token
  graph : Graph
  anchors : List (String × Nat)
  deriving Repr

/-- A reader of tokens. -/
abbrev Reader := StateT Pending (Except Error)

namespace Reader

/-- Refuses the text. -/
def refuse {α : Type} : Reader α := throw .invalid

/-- The next token, which stays unread. -/
def peek : Reader (Option Token) := do
  match (← get).tokens with
  | .fault error :: _ => throw error
  | tokens => return tokens.head?

/-- Passes the next token. -/
def pass : Reader Unit := modify fun pending => { pending with tokens := pending.tokens.tail }

/-- Passes the next token if it is a given one, and tells whether it is. -/
def accept (token : Token) : Reader Bool := do
  if (← peek) == some token then
    pass
    return true
  else return false

/-- Passes the comma in front of an item in brackets or braces, which the first one does not have,
and tells whether an item may begin. -/
def acceptSeparator (first : Bool) : Reader Bool :=
  if first then return true else accept .flowEntry

/-- Adds a node. -/
def add (node : Node) : Reader Nat :=
  modifyGet fun pending =>
    let (number, graph) := pending.graph.add node
    (number, { pending with graph })

/-- Adds the node for nothing. -/
def addEmpty : Reader Nat := add .empty

/-- Puts content in a node that has been added. -/
def fill (number : Nat) (content : Content) : Reader Unit :=
  modify fun pending => { pending with graph := pending.graph.putContent number content }

/-- The node that an anchor names. -/
def named (anchor : String) : Reader Nat := do
  match (← get).anchors.lookup anchor with
  | some number => return number
  | none => refuse

/-- Names a node. -/
def name (anchor : String) (number : Nat) : Reader Unit :=
  modify fun pending => { pending with anchors := (anchor, number) :: pending.anchors }

end Reader

open Reader

/-- The anchor and the tag in front of a node. -/
structure Properties where
  anchor : Option String
  tag : Option String
  deriving Repr

/-- The full text of a tag. -/
def expandTag (handles : Handles) (handle : Option String) (suffix : String) : Reader String :=
  match handle with
  | none => return suffix
  | some handle =>
    match handles.lookup handle with
    | some expansion => return expansion ++ suffix
    | none => refuse

/-- Reads a tag, if there is one. -/
def tagProperty : Reader (Option (Option String × String)) := do
  match ← peek with
  | some (.tag handle suffix) =>
    pass
    return some (handle, suffix)
  | _ => return none

/-- Reads an anchor, if there is one. -/
def anchorProperty : Reader (Option String) := do
  match ← peek with
  | some (.anchor name) =>
    pass
    return some name
  | _ => return none

/-- Reads an anchor and a tag in either order, as far as they are there. -/
def properties (handles : Handles) : Reader Properties := do
  let early ← anchorProperty
  let tag ← tagProperty
  let late ← if early.isNone && tag.isSome then anchorProperty else pure none
  let tag ← tag.mapM fun (handle, suffix) => expandTag handles handle suffix
  return ⟨early.or late, tag⟩

/-- The meaning of a scalar with some properties. -/
def Properties.scalarMeaning (properties : Properties) (plain : Bool) (text : List Text.Point) :
    Meaning :=
  match properties.tag with
  | none => if plain then .ofSpelling text else .text
  | some "!" => .ofSpelling text
  | some tag => .ofTag tag

/-- The meaning of a collection with some properties. -/
def Properties.collectionMeaning (properties : Properties) (meaning : Meaning) : Meaning :=
  match properties.tag with
  | none | some "!" => meaning
  | some tag => .ofTag tag

/-- Adds a node, and names it if it has an anchor. An anchor may be used once. -/
def Properties.add (properties : Properties) (node : Node) : Reader Nat := do
  match properties.anchor with
  | none => Reader.add node
  | some anchor =>
    if (← get).anchors.any (·.1 == anchor) then refuse
    let number ← Reader.add node
    name anchor number
    return number

/-- Adds a scalar. -/
def Properties.addScalar (properties : Properties) (plain : Bool) (text : List Text.Point) :
    Reader Nat :=
  properties.add ⟨properties.scalarMeaning plain text, .scalar text⟩

/-- Adds a sequence, then reads its items. -/
def Properties.addSequence (properties : Properties) (items : Reader (List Nat)) : Reader Nat := do
  let number ← properties.add ⟨properties.collectionMeaning .sequence, .sequence []⟩
  fill number (.sequence (← items))
  return number

/-- Adds a mapping, then reads its pairs. -/
def Properties.addMapping (properties : Properties) (pairs : Reader (List (Nat × Nat))) :
    Reader Nat := do
  let number ← properties.add ⟨properties.collectionMeaning .mapping, .mapping []⟩
  fill number (.mapping (← pairs))
  return number

/-- Where a node stands: what kinds of collections may begin there. -/
inductive Place where
  | block
  /-- In a block mapping, where a sequence may begin without further indentation. -/
  | blockValue
  | flow
  deriving DecidableEq, Repr

/-- Whether a node ends before it begins: only a token that may follow it comes next. -/
def Place.endsAt (place : Place) (token : Option Token) : Bool :=
  match place, token with
  | .block, some .blockEntry | .block, some .blockEnd => true
  | .blockValue, some .key | .blockValue, some .value | .blockValue, some .blockEnd => true
  | .flow, some .value | .flow, some .flowEntry => true
  | .flow, some .flowSequenceEnd | .flow, some .flowMappingEnd => true
  | _, _ => false

mutual

/-- Reads a node. -/
def node (handles : Handles) : Nat → Place → Reader Nat
  | 0, _ => refuse
  | fuel + 1, place => do
    match ← peek with
    | some (.alias anchor) =>
      pass
      named anchor
    | _ =>
      let properties ← properties handles
      let next ← peek
      match next with
      | some (.scalar text plain) =>
        pass
        properties.addScalar plain text
      | some .flowSequence =>
        properties.addSequence (do pass; flowItems handles fuel true)
      | some .flowMapping =>
        properties.addMapping (do pass; flowPairs handles fuel true)
      | _ =>
        if next == some .blockEntry && place == .blockValue then
          properties.addSequence (blockItems handles fuel false)
        else if next == some .blockSequence && place != .flow then
          properties.addSequence (do pass; blockItems handles fuel true)
        else if next == some .blockMapping && place != .flow then
          properties.addMapping (do pass; blockPairs handles fuel)
        else if properties.anchor.isSome || properties.tag.isSome then
          properties.addScalar true []
        else refuse

/-- Reads a node, or the node for nothing where none begins. -/
def nodeOrEmpty (handles : Handles) : Nat → Place → Reader Nat
  | 0, _ => refuse
  | fuel + 1, place => do
    if place.endsAt (← peek) then addEmpty else node handles fuel place

/-- Reads the entries of a block sequence, up to the token that closes it if it has one. -/
def blockItems (handles : Handles) : Nat → Bool → Reader (List Nat)
  | 0, _ => refuse
  | fuel + 1, closed => do
    if ← accept .blockEntry then
      let next ← peek
      let isEmpty := Place.block.endsAt next || (!closed && Place.blockValue.endsAt next)
      let item ← if isEmpty then addEmpty else node handles fuel .block
      let items ← blockItems handles fuel closed
      return item :: items
    else if !closed then return []
    else if ← accept .blockEnd then return []
    else refuse

/-- Reads the value of a pair in some place, if there is one. -/
def pairValue (handles : Handles) : Nat → Place → Reader Nat
  | 0, _ => refuse
  | fuel + 1, place => do
    if ← accept .value then nodeOrEmpty handles fuel place else addEmpty

/-- Reads the key behind its mark and the value of a pair. -/
def pair (handles : Handles) : Nat → Place → Reader (Nat × Nat)
  | 0, _ => refuse
  | fuel + 1, place => do
    let key ← nodeOrEmpty handles fuel place
    let value ← pairValue handles fuel place
    return (key, value)

/-- Reads the pairs of a block mapping. -/
def blockPairs (handles : Handles) : Nat → Reader (List (Nat × Nat))
  | 0 => refuse
  | fuel + 1 => do
    if ← accept .key then
      let first ← pair handles fuel .blockValue
      let pairs ← blockPairs handles fuel
      return first :: pairs
    else if ← accept .blockEnd then return []
    else refuse

/-- Reads the items of a sequence in brackets; a single pair is an item too. -/
def flowItems (handles : Handles) : Nat → Bool → Reader (List Nat)
  | 0, _ => refuse
  | fuel + 1, first => do
    if ← accept .flowSequenceEnd then return []
    else if ← acceptSeparator first then
      if ← accept .flowSequenceEnd then return []
      else
        let item ←
          if ← accept .key then
            let number ← Reader.add ⟨.mapping, .mapping []⟩
            fill number (.mapping [← pair handles fuel .flow])
            pure number
          else node handles fuel .flow
        let items ← flowItems handles fuel false
        return item :: items
    else refuse

/-- Reads the pairs of a mapping in braces; an item without a value is a key for nothing. -/
def flowPairs (handles : Handles) : Nat → Bool → Reader (List (Nat × Nat))
  | 0, _ => refuse
  | fuel + 1, first => do
    if ← accept .flowMappingEnd then return []
    else if ← acceptSeparator first then
      if ← accept .flowMappingEnd then return []
      else
        let item ←
          if ← accept .key then pair handles fuel .flow
          else
            let key ← node handles fuel .flow
            let value ← addEmpty
            pure (key, value)
        let pairs ← flowPairs handles fuel false
        return item :: pairs
    else refuse

end

/-- Reads the directives in front of a document: at most one version, which has to be one of YAML
1, and each handle at most once. -/
def directives : Nat → Bool → Handles → Reader Handles
  | 0, _, _ => refuse
  | fuel + 1, versioned, handles => do
    match ← peek with
    | some (.directive directive) =>
      pass
      match directive with
      | .version major =>
        if versioned || major != 1 then refuse else directives fuel true handles
      | .tagHandle handle expansion =>
        if handles.any (·.1 == handle) then refuse
        else directives fuel versioned (handles ++ [(handle, expansion)])
      | .other => directives fuel versioned handles
    | _ => return handles

/-- The handles of a document: its own, and the standard ones that it does not declare. -/
def withStandard (handles : Handles) : Handles :=
  handles ++ standardHandles.filter fun (handle, _) => !handles.any (·.1 == handle)

/-- Passes the marks of the end of a document; nothing else may follow it. -/
def ending : Nat → Reader Unit
  | 0 => refuse
  | fuel + 1 => do
    if ← accept .documentEnd then ending fuel
    else if (← peek).isSome then refuse

/-- Reads what stands behind the start of a document: a node, or nothing. -/
def content (handles : Handles) (fuel : Nat) : Reader Nat := do
  match ← peek with
  | none | some .documentEnd | some .documentStart | some (.directive _) => addEmpty
  | _ => node handles fuel .block

/-- Reads the one document of a text, with so much fuel; a text without one holds nothing. -/
def document (fuel : Nat) : Reader Nat := do
  let root ←
    match ← peek with
    | none => addEmpty
    | some .documentStart | some (.directive _) =>
      let handles ← directives fuel false []
      if ← accept .documentStart then content (withStandard handles) fuel else refuse
    | some _ => node standardHandles fuel .block
  ending fuel
  return root

/-- The graph of a row of tokens, and the number of its root. -/
def Graph.ofTokens (tokens : List Token) : Except Error (Graph × Nat) := do
  let (root, pending) ← (document (4 * tokens.length + 4)).run ⟨tokens, .empty, []⟩
  return (pending.graph, root)

end BraceLang.Yaml
