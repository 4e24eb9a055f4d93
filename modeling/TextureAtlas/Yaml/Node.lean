import TextureAtlas.Yaml.Token

/-!
# YAML documents as trees

A document is a tree of scalars, sequences and mappings. A node may carry a tag and an anchor, and an
alias refers to the node with an anchor. Anchors are numbered: the number of an anchor is the count of
the names of anchors met before, and of several nodes with one number the last one answers.
-/

namespace TextureAtlas.Yaml

/-- What is said about a node besides its content. -/
structure Properties where
  anchor : Option Nat := none
  tag : Option (List Char) := none
  deriving DecidableEq, Repr

/-- A node of a document. -/
inductive Node where
  | scalar (properties : Properties) (style : ScalarStyle) (text : List Char)
  | sequence (properties : Properties) (items : List Node)
  | mapping (properties : Properties) (entries : List (Node × Node))
  /-- Refers to the node whose anchor has the number. -/
  | reference (anchor : Nat)
  deriving Inhabited, Repr

namespace Node

/-- A node of which nothing is written. -/
def empty : Node := .scalar {} .plain []

mutual
/-- The last node, each before its parts, whose anchor has the number. -/
def anchored? (n : Nat) : Node → Option Node
  | scalar p style text => if p.anchor = some n then some (scalar p style text) else none
  | sequence p items =>
    anchoredIn? n items <|> (if p.anchor = some n then some (sequence p items) else none)
  | mapping p entries =>
    anchoredAmong? n entries <|> (if p.anchor = some n then some (mapping p entries) else none)
  | reference _ => none

def anchoredIn? (n : Nat) : List Node → Option Node
  | [] => none
  | item :: rest => anchoredIn? n rest <|> anchored? n item

def anchoredAmong? (n : Nat) : List (Node × Node) → Option Node
  | [] => none
  | (k, v) :: rest => anchoredAmong? n rest <|> anchored? n v <|> anchored? n k
end

end Node

/-! ## Reading tokens -/

/-- The anchors of a document. -/
structure Anchors where
  /-- Names with their numbers, the latest first. -/
  numbers : List (List Char × Nat) := []
  /-- How many different names there are. -/
  names : Nat := 0

namespace Anchors

/-- The number of the anchor that a name stands for now. -/
def number? (a : Anchors) (name : List Char) : Option Nat := a.numbers.lookup name

/-- One more anchor. -/
def define (a : Anchors) (name : List Char) : Anchors :=
  ⟨(name, a.names) :: a.numbers, if (a.number? name).isSome then a.names else a.names + 1⟩

end Anchors

/-- What is left to read, and what has been said so far. -/
structure TokenReader where
  tokens : List Token
  anchors : Anchors := {}
  /-- The prefixes that handles of tags stand for. -/
  handles : List (List Char × List Char) := []

/-- Reads something off the tokens; tokens in a wrong place make it fail. -/
abbrev TokenRead (α : Type) := StateT TokenReader Option α

namespace TokenRead

/-- The next token, `none` at the end. -/
def peek : TokenRead (Option Token) := return (← get).tokens.head?

/-- Goes past the next token. -/
def skip : TokenRead Unit := modify fun r => { r with tokens := r.tokens.drop 1 }

/-- Whether the next token is one of these. -/
def isOneOf (ts : List Token) : TokenRead Bool := return (← peek).any ts.contains

/-- Goes past the token if it is the next one, and says whether it was. -/
def skipIf (t : Token) : TokenRead Bool := do
  if ← isOneOf [t] then skip; return true else return false

/-- Goes past an anchor. -/
def anchorProperty : TokenRead (Option Nat) := do
  match ← peek with
  | some (.anchor name) =>
    skip
    let number := (← get).anchors.names
    modify fun r => { r with anchors := r.anchors.define name }
    return some number
  | _ => return none

/-- Goes past a tag; its handle has to be known. -/
def tagProperty : TokenRead (Option (List Char)) := do
  match ← peek with
  | some (.tag t) =>
    skip
    if t.handle = [] then return some t.suffix
    else match (← get).handles.lookup t.handle with
      | some text => return some (text ++ t.suffix)
      | none => failure
  | _ => return none

/-- Goes past an anchor and a tag, in either order. An anchor counts only where its node is reached. -/
def properties : TokenRead Properties := do
  let anchor ← anchorProperty
  let tag ← tagProperty
  match anchor with
  | some _ => return ⟨anchor, tag⟩
  | none => return ⟨← if tag.isSome then anchorProperty else pure none, tag⟩

mutual
/-- A node. Blocks may begin only where `block` holds, and a sequence that is not indented only where
`indentless` holds. -/
def node : Nat → Bool → Bool → TokenRead Node
  | 0, _, _ => failure
  | fuel + 1, block, indentless => do
    match ← peek with
    | some (.reference name) =>
      skip
      match (← get).anchors.number? name with
      | some n => return .reference n
      | none => failure
    | _ =>
      let p ← properties
      match ← peek with
      | some (.scalar style text) =>
        skip
        return .scalar p style text
      | some .flowSequenceStart =>
        skip
        return .sequence p (← flowItems fuel true)
      | some .flowMappingStart =>
        skip
        return .mapping p (← flowPairs fuel true)
      | next =>
        if indentless ∧ next = some .blockEntry then return .sequence p (← indentlessItems fuel)
        else if block ∧ next = some .blockSequenceStart then
          skip
          return .sequence p (← blockItems fuel)
        else if block ∧ next = some .blockMappingStart then
          skip
          return .mapping p (← blockPairs fuel)
        else if p.anchor.isSome ∨ p.tag.isSome then return .scalar p .plain []
        else failure

/-- A node, or an empty one if the next token is one of `ends`. -/
def nodeBefore (ends : List Token) : Nat → Bool → Bool → TokenRead Node
  | 0, _, _ => failure
  | fuel + 1, block, indentless => do
    if ← isOneOf ends then return .empty else node fuel block indentless

/-- The items of an indented sequence, with its end. -/
def blockItems : Nat → TokenRead (List Node)
  | 0 => failure
  | fuel + 1 => do
    if ← skipIf .blockEntry then
      let item ← nodeBefore [.blockEntry, .blockEnd] fuel true false
      return item :: (← blockItems fuel)
    else if ← skipIf .blockEnd then return []
    else failure

/-- The items of a sequence that is not indented. -/
def indentlessItems : Nat → TokenRead (List Node)
  | 0 => failure
  | fuel + 1 => do
    if ← skipIf .blockEntry then
      let item ← nodeBefore [.blockEntry, .key, .value, .blockEnd] fuel true false
      return item :: (← indentlessItems fuel)
    else return []

/-- The entries of a block mapping, with its end. -/
def blockPairs : Nat → TokenRead (List (Node × Node))
  | 0 => failure
  | fuel + 1 => do
    if ← skipIf .key then
      let k ← nodeBefore [.key, .value, .blockEnd] fuel true true
      let v ← if ← skipIf .value then nodeBefore [.key, .value, .blockEnd] fuel true true
        else pure .empty
      return (k, v) :: (← blockPairs fuel)
    else if ← skipIf .blockEnd then return []
    else failure

/-- The items of a sequence in brackets, with the closing one. An item may be a single pair. -/
def flowItems : Nat → Bool → TokenRead (List Node)
  | 0, _ => failure
  | fuel + 1, isFirst => do
    if ← skipIf .flowSequenceEnd then return []
    if !isFirst then
      if !(← skipIf .flowEntry) then failure
    if ← skipIf .flowSequenceEnd then return []
    if ← skipIf .key then
      let k ← if ← isOneOf [.value, .flowEntry, .flowSequenceEnd] then do
          skip
          pure Node.empty
        else node fuel false false
      let v ← if ← skipIf .value then nodeBefore [.flowEntry, .flowSequenceEnd] fuel false false
        else pure .empty
      return .mapping {} [(k, v)] :: (← flowItems fuel false)
    else
      let item ← node fuel false false
      return item :: (← flowItems fuel false)

/-- The entries of a mapping in braces, with the closing one. -/
def flowPairs : Nat → Bool → TokenRead (List (Node × Node))
  | 0, _ => failure
  | fuel + 1, isFirst => do
    if ← skipIf .flowMappingEnd then return []
    if !isFirst then
      if !(← skipIf .flowEntry) then failure
    if ← skipIf .flowMappingEnd then return []
    if ← skipIf .key then
      let k ← nodeBefore [.value, .flowEntry, .flowMappingEnd] fuel false false
      let v ← if ← skipIf .value then nodeBefore [.flowEntry, .flowMappingEnd] fuel false false
        else pure .empty
      return (k, v) :: (← flowPairs fuel false)
    else
      let k ← node fuel false false
      return (k, .empty) :: (← flowPairs fuel false)
end

/-! ## Documents -/

/-- The handles that every document knows. -/
def usualHandles : List (List Char × List Char) :=
  [(['!'], ['!']), (['!', '!'], "tag:yaml.org,2002:".toList)]

/-- The directives in front of a document. There is at most one version, and it is 1.1 or 1.2; no handle
is defined twice. -/
def directives (versionSeen : Bool) : Nat → TokenRead Unit
  | 0 => failure
  | fuel + 1 => do
    match ← peek with
    | some (.directive (.version major minor)) =>
      if versionSeen ∨ major ≠ 1 ∨ (minor ≠ 1 ∧ minor ≠ 2) then failure
      skip
      directives true fuel
    | some (.directive (.tag handle text)) =>
      if ((← get).handles.lookup handle).isSome then failure
      skip
      modify fun r => { r with handles := (handle, text) :: r.handles }
      directives versionSeen fuel
    | _ => modify fun r => { r with handles := r.handles ++ usualHandles }

/-- Goes past tokens that end documents. -/
def skipDocumentEnds : Nat → TokenRead Unit
  | 0 => pure ()
  | fuel + 1 => do if ← skipIf .documentEnd then skipDocumentEnds fuel

/-- A document that begins with directives and its start. -/
def explicitDocument (fuel : Nat) : TokenRead Node := do
  directives false fuel
  if !(← skipIf .documentStart) then failure
  match ← peek with
  | none => return .empty
  | some (.directive _) => return .empty
  | _ => nodeBefore [.documentStart, .documentEnd] fuel true false

/-- A document that begins with its root. -/
def bareDocument (fuel : Nat) : TokenRead Node := do
  modify fun r => { r with handles := usualHandles }
  node fuel true false

/-- The document that comes next. -/
def document (fuel : Nat) : TokenRead Node := do
  match ← peek with
  | some (.directive _) => explicitDocument fuel
  | some .documentStart => explicitDocument fuel
  | _ => bareDocument fuel

/-- The document of a whole text, if there is one. More than one is refused. -/
def onlyDocument (fuel : Nat) : TokenRead (Option Node) := do
  if (← peek).isNone then return none
  let root ← document fuel
  skipDocumentEnds fuel
  if (← peek).isSome then failure
  return some root

end TokenRead

/-- The document of a text, if there is one; the text has to be well formed. -/
def Node.ofText? (s : String) : Option (Option Node) := do
  let tokens ← Token.ofText? s
  (TokenRead.onlyDocument (4 * tokens.length + 4)).run' { tokens := tokens }

end TextureAtlas.Yaml
