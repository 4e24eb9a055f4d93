import TextureAtlas.Yaml.Block
import TextureAtlas.Yaml.Flow
import TextureAtlas.Yaml.Property

/-!
# Tokens of a YAML text

Indentation becomes tokens that open and close blocks. A word turns out to be a key only when a colon
follows it, so the place of a possible key is remembered for each level of brackets, and the tokens that
open the key and its block are put in there afterwards. A possible key ends with its line and is at most
1024 characters long; one that stands where the block goes on has to become a key.
-/

namespace TextureAtlas.Yaml

/-- How a scalar is written. -/
inductive ScalarStyle where
  | plain
  | singleQuoted
  | doubleQuoted
  | literal
  | folded
  deriving DecidableEq, Repr

/-- A token. -/
inductive Token where
  | directive (d : Directive)
  | documentStart
  | documentEnd
  | blockSequenceStart
  | blockMappingStart
  | blockEnd
  | flowSequenceStart
  | flowSequenceEnd
  | flowMappingStart
  | flowMappingEnd
  | blockEntry
  | flowEntry
  | key
  | value
  | reference (name : List Char)
  | anchor (name : List Char)
  | tag (tag : TagWord)
  | scalar (style : ScalarStyle) (text : List Char)
  deriving DecidableEq, Repr

/-- Where a key may have begun. -/
structure PossibleKey where
  /-- The number of tokens in front of it. -/
  position : Nat
  mark : Mark
  /-- Whether it has to become a key. -/
  required : Bool

/-- The state of a lexer. -/
structure Lexer where
  cursor : Cursor
  /-- The tokens so far, the latest first. -/
  tokens : List Token := []
  /-- The number of tokens so far. -/
  count : Nat := 0
  /-- The column of the innermost block, -1 outside of all blocks. -/
  indent : Int := -1
  /-- The columns of the blocks around it. -/
  indents : List Int := []
  /-- The possible key outside of the innermost brackets, and so on outwards. -/
  outerKeys : List (Option PossibleKey) := []
  /-- The possible key on the innermost level. -/
  possibleKey : Option PossibleKey := none
  /-- Whether a key may begin here. -/
  keyAllowed : Bool := true

namespace Lexer

/-- Whether the place is inside brackets. -/
def inFlow (l : Lexer) : Bool := !l.outerKeys.isEmpty

/-- The place as a column of the block structure. -/
def column (l : Lexer) : Int := l.cursor.mark.column

/-- Adds a token. -/
def emit (l : Lexer) (t : Token) : Lexer := { l with tokens := t :: l.tokens, count := l.count + 1 }

/-- Puts a token behind the first `position` tokens. -/
def emitAt (l : Lexer) (position : Nat) (t : Token) : Lexer :=
  { l with tokens := l.tokens.insertIdx (l.count - position) t, count := l.count + 1 }

/-- Adds a token of the next `n` characters, and goes on behind them. -/
def emitPast (l : Lexer) (n : Nat) (t : Token) : Lexer :=
  { l.emit t with cursor := l.cursor.past n }

/-! ## Possible keys -/

/-- Whether the possible key can no longer become a key. -/
def isStale (here : Mark) (k : PossibleKey) : Bool :=
  k.mark.line < here.line || k.mark.index + 1024 < here.index

/-- The possible key if it can still become a key; a required one must not go stale. -/
def freshen (here : Mark) : Option PossibleKey → Option (Option PossibleKey)
  | none => some none
  | some k => if isStale here k then if k.required then none else some none else some (some k)

/-- Forgets the possible keys that have gone stale. -/
def dropStaleKeys (l : Lexer) : Option Lexer := do
  let here := l.cursor.mark
  return { l with possibleKey := ← freshen here l.possibleKey,
                  outerKeys := ← l.outerKeys.mapM (freshen here) }

/-- Forgets the possible key of this level; it must not be a required one. -/
def forgetKey (l : Lexer) : Option Lexer :=
  match l.possibleKey with
  | some k => if k.required then none else some { l with possibleKey := none }
  | none => some l

/-- Remembers that a key may begin here. -/
def rememberKey (l : Lexer) : Option Lexer :=
  if l.keyAllowed then
    l.forgetKey.map fun l =>
      { l with possibleKey := some ⟨l.count, l.cursor.mark, !l.inFlow && l.indent = l.column⟩ }
  else some l

/-! ## Blocks -/

/-- Opens a block in the column if it is deeper than the innermost one. -/
def openBlock (l : Lexer) (column : Int) (position : Nat) (t : Token) : Lexer :=
  if !l.inFlow && l.indent < column then
    { l.emitAt position t with indents := l.indent :: l.indents, indent := column }
  else l

/-- Closes the blocks deeper than the column. -/
def closeBlocksTo (column : Int) : List Int → Lexer → Lexer
  | [], l => l
  | outer :: indents, l =>
    if column < l.indent then
      closeBlocksTo column indents { l.emit .blockEnd with indent := outer, indents := indents }
    else l

/-- Closes the blocks deeper than the column, unless inside brackets. -/
def closeBlocks (l : Lexer) (column : Int) : Lexer :=
  if l.inFlow then l else closeBlocksTo column l.indents l

/-! ## Between tokens -/

/-- Skips blanks, comments and line breaks. A tab counts as a blank only where no key may begin. -/
def skipToToken : Nat → Lexer → Lexer
  | 0, l => l
  | fuel + 1, l =>
    let cur := if l.cursor.mark.column = 0 ∧ l.cursor.isAt '\ufeff' then l.cursor.past 1 else l.cursor
    let tabs : Bool := l.inFlow || !l.keyAllowed
    let cur := (cur.run fun c => c = ' ' || (tabs && c = '\t')).2.skipComment
    match cur.rest with
    | [] => { l with cursor := cur }
    | c :: _ =>
      if isBreak c then
        skipToToken fuel { l with cursor := cur.readBreak.2, keyAllowed := l.keyAllowed || !l.inFlow }
      else { l with cursor := cur }

/-! ## Single tokens -/

/-- Ends every block for a token of the whole document. -/
def leaveBlocks (l : Lexer) : Option Lexer :=
  (l.closeBlocks (-1)).forgetKey.map fun l => { l with keyAllowed := false }

/-- Opens brackets. -/
def openFlow (l : Lexer) (t : Token) : Option Lexer :=
  l.rememberKey.map fun l =>
    { l.emitPast 1 t with outerKeys := l.possibleKey :: l.outerKeys, possibleKey := none, keyAllowed := true }

/-- Closes brackets; outside of brackets that is a token like any other. -/
def closeFlow (l : Lexer) (t : Token) : Option Lexer :=
  l.forgetKey.map fun l =>
    let l := match l.outerKeys with
      | k :: outerKeys => { l with possibleKey := k, outerKeys := outerKeys }
      | [] => l
    { l.emitPast 1 t with keyAllowed := false }

/-- A comma inside brackets. -/
def flowEntry (l : Lexer) : Option Lexer :=
  l.forgetKey.map fun l => { l.emitPast 1 .flowEntry with keyAllowed := true }

/-- A dash that starts an item. -/
def blockEntry (l : Lexer) : Option Lexer :=
  if !l.inFlow && !l.keyAllowed then none
  else
    (l.openBlock l.column l.count .blockSequenceStart).forgetKey.map fun l =>
      { l.emitPast 1 .blockEntry with keyAllowed := true }

/-- A question mark in front of a key. -/
def explicitKey (l : Lexer) : Option Lexer :=
  if !l.inFlow && !l.keyAllowed then none
  else
    (l.openBlock l.column l.count .blockMappingStart).forgetKey.map fun l =>
      { l.emitPast 1 .key with keyAllowed := !l.inFlow }

/-- A colon in front of a value. If a possible key precedes, it becomes a key. -/
def value (l : Lexer) : Option Lexer :=
  match l.possibleKey with
  | some k =>
    let l := (l.emitAt k.position .key).openBlock k.mark.column k.position .blockMappingStart
    some { l.emitPast 1 .value with possibleKey := none, keyAllowed := false }
  | none =>
    if !l.inFlow && !l.keyAllowed then none
    else
      let l := l.openBlock l.column l.count .blockMappingStart
      some { l.emitPast 1 .value with keyAllowed := !l.inFlow }

/-- A word that may begin a key: it has been read as `t`, up to `cur`. -/
def word (l : Lexer) (t : Token) (cur : Cursor) (keyAllowed : Bool) : Option Lexer :=
  l.rememberKey.map fun l => { l.emit t with cursor := cur, keyAllowed := keyAllowed }

/-- Characters that begin no plain scalar. -/
def indicators : List Char :=
  ['-', '?', ':', ',', '[', ']', '\x7b', '\x7d', '#', '&', '*', '!', '|', '>', '\'', '"', '%', '@', '\x60']

/-- A token that begins with the character `c`, with `after` behind it. -/
def lexWord (l : Lexer) (c : Char) (after : List Char) : Option Lexer :=
  let behind := l.cursor.past 1
  let fuel := l.cursor.rest.length + 1
  if c = '*' then (anchorName behind).bind fun (name, cur) => l.word (.reference name) cur false
  else if c = '&' then (anchorName behind).bind fun (name, cur) => l.word (.anchor name) cur false
  else if c = '!' then (TagWord.read l.inFlow l.cursor).bind fun (tag, cur) => l.word (.tag tag) cur false
  else if (c = '|' ∨ c = '>') ∧ !l.inFlow then
    l.forgetKey.bind fun l => (blockScalar (c = '>') l.indent behind).map fun (text, cur) =>
      { l.emit (.scalar (if c = '>' then .folded else .literal) text) with cursor := cur, keyAllowed := true }
  else if c = '\'' then
    (quotedScalar false fuel behind []).bind fun (text, cur) => l.word (.scalar .singleQuoted text) cur false
  else if c = '"' then
    (quotedScalar true fuel behind []).bind fun (text, cur) => l.word (.scalar .doubleQuoted text) cur false
  else if !(isBlank c || indicators.contains c) || (c = '-' && !(after.head?.map isBlank).getD false) ||
      (!l.inFlow && (c = '?' || c = ':') && !startsBlank after) then
    (plainScalar l.inFlow (l.indent + 1) fuel l.cursor {} []).bind fun s =>
      l.word (.scalar .plain s.text) s.cursor s.broken
  else none

/-- The token that begins with the character `c`, with `after` behind it. -/
def lexToken (l : Lexer) (c : Char) (after : List Char) : Option Lexer :=
  let apart : Bool := l.inFlow || startsBlank after
  if l.cursor.mark.column = 0 ∧ c = '%' then
    l.leaveBlocks.bind fun l => (Directive.read (l.cursor.past 1)).map fun (d, cur) =>
      { l.emit (.directive d) with cursor := cur }
  else if l.cursor.isAtMarker '-' then l.leaveBlocks.map fun l => l.emitPast 3 .documentStart
  else if l.cursor.isAtMarker '.' then l.leaveBlocks.map fun l => l.emitPast 3 .documentEnd
  else if c = '[' then l.openFlow .flowSequenceStart
  else if c = '\x7b' then l.openFlow .flowMappingStart
  else if c = ']' then l.closeFlow .flowSequenceEnd
  else if c = '\x7d' then l.closeFlow .flowMappingEnd
  else if c = ',' then l.flowEntry
  else if c = '-' ∧ startsBlank after then l.blockEntry
  else if c = '?' ∧ apart then l.explicitKey
  else if c = ':' ∧ apart then l.value
  else l.lexWord c after

/-- Reads tokens up to the end of the text. -/
def lexAll : Nat → Lexer → Option (List Token)
  | 0, _ => none
  | fuel + 1, l => do
    let l ← (l.skipToToken (l.cursor.rest.length + 1)).dropStaleKeys
    let l := l.closeBlocks l.column
    match l.cursor.rest with
    | [] => return (← l.leaveBlocks).tokens.reverse
    | c :: after => lexAll fuel (← l.lexToken c after)

end Lexer

/-- The tokens of a text. -/
def Token.ofText? (s : String) : Option (List Token) :=
  let cs := s.toList
  if cs.all isAllowed then Lexer.lexAll (cs.length + 1) { cursor := ⟨cs, {}⟩ } else none

end TextureAtlas.Yaml
