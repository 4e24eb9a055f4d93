import TextureAtlas.Json.Text
import TextureAtlas.Yaml.Cursor

/-!
# Tags, anchors and directives

The small words of YAML that say something about a node or a document. A tag is a handle and a suffix;
the octets that a tag escapes are kept as the characters of their numbers.
-/

namespace TextureAtlas.Yaml

/-! ## Anchors -/

/-- What may follow the name of an anchor besides a blank. -/
def anchorEnds : List Char := ['?', ':', ',', ']', '\x7d', '%', '@', '\x60']

/-- Reads the name of an anchor or alias behind its indicator. -/
def anchorName (cur : Cursor) : Option (List Char × Cursor) :=
  let (name, cur) := cur.run isNameChar
  if name.isEmpty then none
  else if startsBlank cur.rest || startsWithAny anchorEnds cur.rest then some (name, cur)
  else none

/-! ## Tags -/

/-- The octet that two hexadecimal digits behind a percent sign stand for. -/
def escapedOctet? : List Char → Option Nat
  | '%' :: a :: b :: _ => do return 16 * (← Json.hexValue? a) + (← Json.hexValue? b)
  | _ => none

/-- How many octets a character takes, by its first one. -/
def octetCount? (n : Nat) : Option Nat :=
  if n < 0x80 then some 1
  else if 0xC0 ≤ n ∧ n < 0xE0 then some 2
  else if 0xE0 ≤ n ∧ n < 0xF0 then some 3
  else if 0xF0 ≤ n ∧ n < 0xF8 then some 4
  else none

/-- Reads `n` escaped octets that continue a character. -/
def continuingOctets : Nat → Cursor → Option (List Char × Cursor)
  | 0, cur => some ([], cur)
  | n + 1, cur => do
    let octet ← escapedOctet? cur.rest
    if octet < 0x80 ∨ 0xC0 ≤ octet then none
    else
      let (others, cur) ← continuingOctets n (cur.past 3)
      return (Char.ofNat octet :: others, cur)

/-- Reads the escaped octets of one character. -/
def escapedOctets (cur : Cursor) : Option (List Char × Cursor) := do
  let octet ← escapedOctet? cur.rest
  let (others, cur) ← continuingOctets ((← octetCount? octet) - 1) (cur.past 3)
  return (Char.ofNat octet :: others, cur)

/-- Punctuation of a tag. -/
def tagMarks : List Char :=
  [';', '/', '?', ':', '@', '&', '=', '+', '$', '.', '%', '!', '~', '*', '\'', '(', ')']

/-- Punctuation that is allowed in a tag if it is written between angle brackets. -/
def bracketedMarks : List Char := [',', '[', ']']

/-- Reads the characters of a tag. -/
def tagChars (bracketed : Bool) : Nat → Cursor → Option (List Char × Cursor)
  | 0, _ => none
  | fuel + 1, cur =>
    match cur.next? with
    | none => some ([], cur)
    | some c =>
      if c = '%' then do
        let (octets, cur) ← escapedOctets cur
        let (others, cur) ← tagChars bracketed fuel cur
        return (octets ++ others, cur)
      else if isNameChar c || tagMarks.contains c || (bracketed && bracketedMarks.contains c) then
        (tagChars bracketed fuel (cur.past 1)).map fun (others, cur) => (c :: others, cur)
      else some ([], cur)

/-- Reads the characters of a tag, at least one. -/
def tagSuffix (bracketed : Bool) (cur : Cursor) : Option (List Char × Cursor) := do
  let (suffix, cur) ← tagChars bracketed (cur.rest.length + 1) cur
  if suffix.isEmpty then none else some (suffix, cur)

/-- A tag as written. -/
structure TagWord where
  /-- Stands for a prefix; empty if the suffix is the whole tag. -/
  handle : List Char
  suffix : List Char
  deriving DecidableEq, Repr

/-- Reads a handle: an exclamation mark, a name, and another mark if there is one. -/
def tagHandle (cur : Cursor) : List Char × Cursor :=
  let (name, after) := (cur.past 1).run isNameChar
  if after.isAt '!' then ('!' :: (name ++ ['!']), after.past 1) else ('!' :: name, after)

/-- Reads a tag at its exclamation mark, without what has to follow it. -/
def TagWord.readBare (cur : Cursor) : Option (TagWord × Cursor) := do
  if (cur.past 1).isAt '<' then
    let (suffix, cur) ← tagSuffix true (cur.past 2)
    if cur.isAt '>' then return (⟨[], suffix⟩, cur.past 1) else failure
  else
    let (handle, after) := tagHandle cur
    if 1 < handle.length ∧ handle.getLast? = some '!' then
      let (suffix, cur) ← tagSuffix false after
      return (⟨handle, suffix⟩, cur)
    else
      let (others, cur) ← tagChars false (after.rest.length + 1) after
      match handle.tail ++ others with
      | [] => return (⟨[], ['!']⟩, cur)
      | suffix => return (⟨['!'], suffix⟩, cur)

/-- Reads a tag at its exclamation mark. A blank has to follow, or a comma inside brackets. -/
def TagWord.read (inFlow : Bool) (cur : Cursor) : Option (TagWord × Cursor) := do
  let (tag, cur) ← readBare cur
  if startsBlank cur.rest || (inFlow && cur.isAt ',') then return (tag, cur) else failure

/-! ## Directives -/

/-- What is said in front of a document. -/
inductive Directive where
  | version (major minor : Nat)
  /-- From now on the handle stands for the text. -/
  | tag (handle text : List Char)
  deriving DecidableEq, Repr

/-- Reads a part of a version: one to nine digits. -/
def versionNumber (cur : Cursor) : Option (Nat × Cursor) :=
  let (digits, cur) := cur.run Char.isDigit
  if digits.isEmpty ∨ 9 < digits.length then none
  else some (digits.foldl (fun n c => 10 * n + (c.toNat - '0'.toNat)) 0, cur)

/-- Reads a directive behind its percent sign, with its line. -/
def Directive.read (cur : Cursor) : Option (Directive × Cursor) := do
  let (name, cur) := cur.run isNameChar
  if !startsBlank cur.rest then failure
  let cur := cur.skipBlanks
  if name = "YAML".toList then
    let (major, cur) ← versionNumber cur
    if !cur.isAt '.' then failure
    let (minor, cur) ← versionNumber (cur.past 1)
    return (.version major minor, ← cur.endLine?)
  else if name = "TAG".toList then
    if !cur.isAt '!' then failure
    let (handle, cur) := tagHandle cur
    if handle ≠ ['!'] ∧ handle.getLast? ≠ some '!' then failure
    if !(cur.next?.map isBlank).getD false then failure
    let (text, cur) ← tagSuffix true cur.skipBlanks
    if !startsBlank cur.rest then failure
    return (.tag handle text, ← cur.endLine?)
  else failure

end TextureAtlas.Yaml
