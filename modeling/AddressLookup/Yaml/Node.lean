import AddressLookup.Yaml.Token

/-!
The tree of a YAML document. Anchors have numbers, which several may share; a reference stands for the
node that is the last in the whole document to start with the number of the anchor given last before it.
A text holds at most one document, and an empty one has no node.
-/

namespace AddressLookup.Yaml

inductive Node where
  | scalar (text : String) (style : ScalarStyle) (tag : Option TagName)
  | sequence (items : List Node)
  | mapping (pairs : List (Node × Node))
  | reference (id : Nat)
  deriving Repr, Inhabited

/-- An anchor in front of a node; the node is there once it has been read to its end. -/
structure Anchor where
  name : String
  id : Nat
  node : Option Node
  deriving Repr

structure Reading where
  tokens : List Token
  handles : List (String × TagName)
  anchors : List Anchor
  names : Nat

abbrev Reader := StateT Reading Option

namespace Reader

def peek : Reader (Option Token) :=
  return (← get).tokens.head?

def skip : Reader Unit :=
  modify fun r => { r with tokens := r.tokens.drop 1 }

def fail {α : Type} : Reader α :=
  fun _ => none

def accept (t : Token) : Reader Bool := do
  if (← peek) = some t then
    skip
    return true
  else return false

def isNext (ts : List Token) : Reader Bool :=
  return (← peek).any ts.contains

def standardHandles : List (String × TagName) :=
  [("!", .ofString "!"), ("!!", .ofString "tag:yaml.org,2002:")]

def resolveTag (handle : String) (suffix : TagName) : Reader TagName := do
  if handle.isEmpty then return suffix
  match (← get).handles.lookup handle with
  | some stem => return stem ++ suffix
  | none => fail

structure Properties where
  anchor : Option String
  tag : Option TagName

def properties : Reader Properties := do
  match ← peek with
  | some (.anchor name) =>
    skip
    match ← peek with
    | some (.tag handle suffix) =>
      skip
      return ⟨some name, some (← resolveTag handle suffix)⟩
    | _ => return ⟨some name, none⟩
  | some (.tag handle suffix) =>
    skip
    match ← peek with
    | some (.anchor name) =>
      skip
      return ⟨some name, some (← resolveTag handle suffix)⟩
    | _ => return ⟨none, some (← resolveTag handle suffix)⟩
  | _ => return ⟨none, none⟩

/--
Makes an anchor known before its node is read, so that the node may refer to itself. Its number is how
many names there are so far; if names have been given again, several anchors may share a number.
-/
def declareAnchor : Option String → Reader (Option Nat)
  | none => return none
  | some name => do
    let r ← get
    let isKnown := r.anchors.any (·.name == name)
    set { r with
      anchors := ⟨name, r.names, none⟩ :: r.anchors
      names := if isKnown then r.names else r.names + 1 }
    return some r.anchors.length

def defineAnchor (place : Option Nat) (n : Node) : Reader Unit :=
  match place with
  | none => return ()
  | some place => modify fun r =>
    { r with anchors := r.anchors.modify (r.anchors.length - 1 - place) ({ · with node := some n }) }

def resolveReference (name : String) : Reader Node := do
  match (← get).anchors.find? (·.name == name) with
  | some anchor => return .reference anchor.id
  | none => fail

def emptyScalar : Node :=
  .scalar "" .plain none

/-- Where the node of a token can be: only a block may hold block collections. -/
structure Context where
  inBlock : Bool
  /-- Whether a sequence may start without indentation of its own. -/
  asValue : Bool

def inFlow : Context := ⟨false, false⟩

def inSequence : Context := ⟨true, false⟩

def inMapping : Context := ⟨true, true⟩

mutual

def node : Nat → Context → Reader Node
  | 0, _ => fail
  | fuel + 1, ctx => do
    match ← peek with
    | some (.reference name) =>
      skip
      resolveReference name
    | _ =>
      let props ← properties
      let place ← declareAnchor props.anchor
      let n ← content fuel ctx props
      defineAnchor place n
      return n

def content : Nat → Context → Properties → Reader Node
  | 0, _, _ => fail
  | fuel + 1, ctx, props => do
    match ← peek with
    | some .entry => if ctx.asValue then .sequence <$> looseItems fuel else absent props
    | some (.scalar text style) =>
      skip
      return .scalar text style props.tag
    | some .flowSequence =>
      skip
      .sequence <$> flowItems fuel true
    | some .flowMapping =>
      skip
      .mapping <$> flowPairs fuel true
    | some .blockSequence =>
      if ctx.inBlock then
        skip
        .sequence <$> blockItems fuel
      else absent props
    | some .blockMapping =>
      if ctx.inBlock then
        skip
        .mapping <$> blockPairs fuel
      else absent props
    | _ => absent props
where
  absent (props : Properties) : Reader Node :=
    if props.anchor.isSome || props.tag.isSome then return .scalar "" .plain props.tag else fail

def nodeBefore : Nat → Context → List Token → Reader Node
  | 0, _, _ => fail
  | fuel + 1, ctx, ends => do
    if ← isNext ends then return emptyScalar else node fuel ctx

def blockItems : Nat → Reader (List Node)
  | 0 => fail
  | fuel + 1 => do
    if ← accept .entry then
      let item ← nodeBefore fuel inSequence [.entry, .blockEnd]
      return item :: (← blockItems fuel)
    else if ← accept .blockEnd then return []
    else fail

def looseItems : Nat → Reader (List Node)
  | 0 => fail
  | fuel + 1 => do
    if ← accept .entry then
      let item ← nodeBefore fuel inSequence [.entry, .key, .value, .blockEnd]
      return item :: (← looseItems fuel)
    else return []

def blockPairs : Nat → Reader (List (Node × Node))
  | 0 => fail
  | fuel + 1 => do
    if ← accept .key then
      let k ← nodeBefore fuel inMapping [.key, .value, .blockEnd]
      let v ← if ← accept .value then nodeBefore fuel inMapping [.key, .value, .blockEnd]
        else pure emptyScalar
      return (k, v) :: (← blockPairs fuel)
    else if ← accept .blockEnd then return []
    else fail

def flowItems : Nat → Bool → Reader (List Node)
  | 0, _ => fail
  | fuel + 1, first => do
    if ← accept .flowSequenceEnd then return []
    unless first do
      unless ← accept .comma do fail
    if ← accept .flowSequenceEnd then return []
    let item ←
      if ← accept .key then (fun p => .mapping [p]) <$> flowPairInSequence fuel
      else node fuel inFlow
    return item :: (← flowItems fuel false)

def flowPairInSequence : Nat → Reader (Node × Node)
  | 0 => fail
  | fuel + 1 => do
    let k ←
      if ← isNext [.value, .comma, .flowSequenceEnd] then
        skip
        pure emptyScalar
      else node fuel inFlow
    let v ← if ← accept .value then nodeBefore fuel inFlow [.comma, .flowSequenceEnd]
      else pure emptyScalar
    return (k, v)

def flowPairs : Nat → Bool → Reader (List (Node × Node))
  | 0, _ => fail
  | fuel + 1, first => do
    if ← accept .flowMappingEnd then return []
    unless first do
      unless ← accept .comma do fail
    if ← accept .flowMappingEnd then return []
    let pair ←
      if ← accept .key then do
        let k ← nodeBefore fuel inFlow [.value, .comma, .flowMappingEnd]
        let v ← if ← accept .value then nodeBefore fuel inFlow [.comma, .flowMappingEnd]
          else pure emptyScalar
        pure (k, v)
      else do
        let k ← node fuel inFlow
        pure (k, emptyScalar)
    return pair :: (← flowPairs fuel false)

end

def directives : Nat → Bool → List String → Reader Unit
  | 0, _, _ => fail
  | fuel + 1, versioned, handles => do
    match ← peek with
    | some (.version major minor) =>
      if versioned || major ≠ 1 || minor ≠ 1 && minor ≠ 2 then fail
      skip
      directives fuel true handles
    | some (.tagShorthand handle stem) =>
      if handles.contains handle then fail
      skip
      modify fun r => { r with handles := (handle, stem) :: r.handles }
      directives fuel versioned (handle :: handles)
    | _ => return ()

def opensDocument : Option Token → Bool
  | some (.version _ _) | some (.tagShorthand _ _) | some .documentStart => true
  | _ => false

def explicitDocument (fuel : Nat) : Reader Node := do
  directives fuel false []
  if ← accept .documentStart then
    let next ← peek
    if next.isNone || opensDocument next || next = some .documentEnd then return emptyScalar
    else node fuel inSequence
  else fail

def skipDocumentEnds : Nat → Reader Unit
  | 0 => return ()
  | fuel + 1 => do
    if ← accept .documentEnd then skipDocumentEnds fuel

def stream (fuel : Nat) : Reader (Option Node) := do
  let next ← peek
  if next.isNone then return none
  let root ← if opensDocument next then explicitDocument fuel else node fuel inSequence
  skipDocumentEnds fuel
  if (← peek).isNone then return some root else fail

end Reader

structure Document where
  root : Option Node
  anchored : List (Nat × Node)

namespace Document

def parse (text : String) : Option Document := do
  let tokens ← Token.ofText text
  let start : Reading := ⟨tokens, Reader.standardHandles, [], 0⟩
  let (root, reading) ← (Reader.stream (4 * tokens.length + 8)).run start
  some ⟨root, reading.anchors.filterMap fun a => a.node.map (a.id, ·)⟩

def resolve (d : Document) : Node → Node
  | .reference id => (d.anchored.lookup id).getD (.reference id)
  | n => n

end Document

end AddressLookup.Yaml
