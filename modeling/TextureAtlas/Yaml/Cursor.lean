/-!
# Reading positions in a YAML text

The kinds of characters that YAML distinguishes, and a place in a text: what is left to read, with the
line and column where it stands.
-/

namespace TextureAtlas.Yaml

/-! ## Characters -/

/-- Spaces and tabs. -/
def isBlank (c : Char) : Bool := c = ' ' || c = '\t'

/-- Characters that end a line. -/
def isBreak (c : Char) : Bool :=
  c = '\r' || c = '\n' || c = '\u0085' || c = '\u2028' || c = '\u2029'

/-- What a line break counts for in a text: the two separators stay, all others are line feeds. -/
def breakChar (c : Char) : Char := if c = '\u2028' ∨ c = '\u2029' then c else '\n'

/-- Letters, digits, underscore and dash, in ASCII. -/
def isNameChar (c : Char) : Bool := c.isAlphanum || c = '_' || c = '-'

/-- Characters that a YAML text may hold. -/
def isAllowed (c : Char) : Bool :=
  let n := c.toNat
  c = '\t' || c = '\n' || c = '\r' || (0x20 ≤ n && n ≤ 0x7E) || n = 0x85 || (0xA0 ≤ n && n ≤ 0xD7FF) ||
    (0xE000 ≤ n && n ≤ 0xFFFD) || 0x10000 ≤ n

/-- Whether a text starts with a blank or a line break, or is at its end. -/
def startsBlank : List Char → Bool
  | [] => true
  | c :: _ => isBlank c || isBreak c

/-- Whether a text starts with one of the characters. -/
def startsWithAny (cs : List Char) : List Char → Bool
  | [] => false
  | c :: _ => cs.contains c

/-! ## Places -/

/-- A place: the characters before it, the lines before it, and the characters before it in its line. -/
structure Mark where
  index : Nat := 0
  line : Nat := 0
  column : Nat := 0
  deriving DecidableEq, Repr

/-- The place behind `n` characters of a line. -/
def Mark.past (m : Mark) (n : Nat) : Mark := ⟨m.index + n, m.line, m.column + n⟩

/-- The place behind a line break of `n` characters. -/
def Mark.newLine (m : Mark) (n : Nat) : Mark := ⟨m.index + n, m.line + 1, 0⟩

/-- A place with what is left to read. -/
structure Cursor where
  rest : List Char
  mark : Mark := {}
  deriving DecidableEq, Repr

namespace Cursor

/-- The place behind `n` characters of the line. -/
def past (cur : Cursor) (n : Nat) : Cursor := ⟨cur.rest.drop n, cur.mark.past n⟩

/-- The next character. -/
def next? (cur : Cursor) : Option Char := cur.rest.head?

/-- Whether the next character is `c`. -/
def isAt (cur : Cursor) (c : Char) : Bool := cur.next? = some c

/-- The longest run of characters with the property, and the place behind it. The property holds of no
line break. -/
def run (p : Char → Bool) (cur : Cursor) : List Char × Cursor :=
  let taken := cur.rest.takeWhile p
  (taken, cur.past taken.length)

/-- The place behind a run of blanks. -/
def skipBlanks (cur : Cursor) : Cursor := (cur.run isBlank).2

/-- The place in front of the next line break if a comment starts here, else this place. -/
def skipComment (cur : Cursor) : Cursor :=
  if cur.isAt '#' then (cur.run fun c => !isBreak c).2 else cur

/-- The place behind a line break, if there is one here, with what it counts for. -/
def readBreak (cur : Cursor) : List Char × Cursor :=
  match cur.rest with
  | '\r' :: '\n' :: rest => (['\n'], ⟨rest, cur.mark.newLine 2⟩)
  | c :: rest => if isBreak c then ([breakChar c], ⟨rest, cur.mark.newLine 1⟩) else ([], cur)
  | [] => ([], cur)

/-- The start of the next line, where nothing but blanks and a comment may be left of this one. -/
def endLine? (cur : Cursor) : Option Cursor :=
  let cur := cur.skipBlanks.skipComment
  if startsBlank cur.rest then some cur.readBreak.2 else none

/-- Whether a line starts here with three of the characters on their own. -/
def isAtMarker (cur : Cursor) (c : Char) : Bool :=
  cur.mark.column = 0 && cur.rest.take 3 = [c, c, c] && startsBlank (cur.rest.drop 3)

/-- Whether a document starts or ends here. -/
def isAtDocumentMarker (cur : Cursor) : Bool := cur.isAtMarker '-' || cur.isAtMarker '.'

end Cursor
end TextureAtlas.Yaml
