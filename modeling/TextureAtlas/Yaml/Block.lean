import TextureAtlas.Yaml.Cursor

/-!
# Block scalars

A literal or folded scalar is made of indented lines below a header. The header may fix the indentation
and say what becomes of the line breaks at the end; otherwise the first line that is not empty fixes the
indentation, and one break is kept.
-/

namespace TextureAtlas.Yaml

/-- What becomes of the line breaks at the end of a block scalar. -/
inductive Chomping where
  | strip
  | clip
  | keep
  deriving DecidableEq, Repr

/-- The header of a block scalar. -/
structure BlockHeader where
  chomping : Chomping := .clip
  /-- How much deeper than its surroundings the scalar is indented, if that is said. -/
  increment : Option Nat := none

/-- The chomping that a sign asks for. -/
def chomping? (c : Char) : Option Chomping :=
  if c = '+' then some .keep else if c = '-' then some .strip else none

/-- Reads a header behind its indicator: a sign and a digit in either order, each of them optional. The
digit is not zero. -/
def BlockHeader.read (cur : Cursor) : Option (BlockHeader × Cursor) :=
  let sign (cur : Cursor) : Chomping × Cursor :=
    match cur.next?.bind chomping? with
    | some c => (c, cur.past 1)
    | none => (.clip, cur)
  let digit (cur : Cursor) : Option (Option Nat × Cursor) :=
    match cur.next? with
    | some c =>
      if c = '0' then none
      else if c.isDigit then some (some (c.toNat - '0'.toNat), cur.past 1)
      else some (none, cur)
    | none => some (none, cur)
  if (cur.next?.bind chomping?).isSome then
    (digit (sign cur).2).map fun (increment, after) => (⟨(sign cur).1, increment⟩, after)
  else
    (digit cur).map fun (increment, after) =>
      match increment with
      | some _ => (⟨(sign after).1, increment⟩, (sign after).2)
      | none => ({}, after)

/-- Line breaks with indentation between them. -/
structure BlockBreaks where
  breaks : List Char
  /-- The greatest column that the indentation reaches. -/
  greatest : Nat
  cursor : Cursor

/-- Reads indentation and empty lines, up to a line with text. An indentation of 0 is not known yet. No
tab may stand in the indentation. -/
def BlockBreaks.read (indent : Nat) : List Char → Mark → Nat → List Char → Option BlockBreaks
  | '\r' :: '\n' :: rest, m, greatest, breaks =>
    read indent rest (m.newLine 2) (max greatest m.column) (breaks ++ ['\n'])
  | c :: rest, m, greatest, breaks =>
    let inside : Bool := indent = 0 || m.column < indent
    if inside && c = ' ' then read indent rest (m.past 1) greatest breaks
    else if inside && c = '\t' then none
    else if isBreak c then
      read indent rest (m.newLine 1) (max greatest m.column) (breaks ++ [breakChar c])
    else some ⟨breaks, max greatest m.column, ⟨c :: rest, m⟩⟩
  | [], m, greatest, breaks => some ⟨breaks, max greatest m.column, ⟨[], m⟩⟩

/-- What has been read of a block scalar. -/
structure BlockReading where
  text : List Char := []
  /-- The break behind the last line. -/
  lastBreak : List Char := []
  /-- The breaks of the empty lines that follow. -/
  emptyLines : List Char := []
  /-- Whether the last line began with a blank. -/
  blankLine : Bool := false

namespace BlockReading

/-- Reads the lines that are indented by `indent`. In a folded scalar a single break between two lines
that begin with text becomes a space. -/
def readLines (folded : Bool) (indent : Nat) : Nat → Cursor → BlockReading → Option (BlockReading × Cursor)
  | 0, _, _ => none
  | fuel + 1, cur, r =>
    if cur.mark.column ≠ indent ∨ cur.rest = [] then some (r, cur)
    else do
      let blank := (cur.next?.map isBlank).getD false
      let joint :=
        if folded && r.lastBreak = ['\n'] && !r.blankLine && !blank then
          if r.emptyLines = [] then [' '] else []
        else r.lastBreak
      let (line, cur) := cur.run fun c => !isBreak c
      let (lastBreak, cur) := cur.readBreak
      let next ← BlockBreaks.read indent cur.rest cur.mark 0 []
      readLines folded indent fuel next.cursor
        ⟨r.text ++ joint ++ r.emptyLines ++ line, lastBreak, next.breaks, blank⟩

/-- The text of the scalar. -/
def chomped (r : BlockReading) : Chomping → List Char
  | .strip => r.text
  | .clip => r.text ++ r.lastBreak
  | .keep => r.text ++ r.lastBreak ++ r.emptyLines

end BlockReading

/-- Reads a block scalar behind its indicator. `parent` is the indentation around it, -1 at the top. -/
def blockScalar (folded : Bool) (parent : Int) (cur : Cursor) : Option (List Char × Cursor) := do
  let (header, cur) ← BlockHeader.read cur
  let cur ← cur.endLine?
  let stated := match header.increment with
    | some n => (max parent 0).toNat + n
    | none => 0
  let first ← BlockBreaks.read stated cur.rest cur.mark 0 []
  let indent := if stated = 0 then max first.greatest (max (parent + 1).toNat 1) else stated
  let (r, cur) ← BlockReading.readLines folded indent (cur.rest.length + 1) first.cursor
    { emptyLines := first.breaks }
  return (r.chomped header.chomping, cur)

end TextureAtlas.Yaml
