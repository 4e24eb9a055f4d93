import TextureAtlas.Json.Basic

/-!
# Text in JSON strings

`escape` writes a text between quotes and `unescape` reads it. Only quotes, backslashes and control
characters are escaped; reading also accepts the other escapes, and refuses half a surrogate pair.
-/

namespace TextureAtlas.Json

/-- The lower-case hexadecimal digit of `n`. -/
def hexDigit (n : Nat) : Char := Nat.digitChar (n % 16)

/-- The value of a hexadecimal digit. -/
def hexValue? (c : Char) : Option Nat :=
  if '0' ≤ c ∧ c ≤ '9' then some (c.toNat - '0'.toNat)
  else if 'a' ≤ c ∧ c ≤ 'f' then some (c.toNat - 'a'.toNat + 10)
  else if 'A' ≤ c ∧ c ≤ 'F' then some (c.toNat - 'A'.toNat + 10)
  else none

/-- The value of four hexadecimal digits. -/
def hexValue4? (a b c d : Char) : Option Nat := do
  return (((← hexValue? a) * 16 + (← hexValue? b)) * 16 + (← hexValue? c)) * 16 + (← hexValue? d)

/-- How a character is written between quotes. -/
def escapeChar (c : Char) : List Char :=
  if c = '"' then ['\\', '"']
  else if c = '\\' then ['\\', '\\']
  else if c = '\x08' then ['\\', 'b']
  else if c = '\t' then ['\\', 't']
  else if c = '\n' then ['\\', 'n']
  else if c = '\x0c' then ['\\', 'f']
  else if c = '\r' then ['\\', 'r']
  else if c.toNat < 32 then ['\\', 'u', '0', '0', hexDigit (c.toNat / 16), hexDigit c.toNat]
  else [c]

/-- How a text is written between quotes. -/
def escape (cs : List Char) : List Char := cs.flatMap escapeChar

/-- The character that a one-letter escape stands for. -/
def simpleEscape? (c : Char) : Option Char :=
  if c = '"' ∨ c = '\\' ∨ c = '/' then some c
  else if c = 'b' then some '\x08'
  else if c = 'f' then some '\x0c'
  else if c = 'n' then some '\n'
  else if c = 'r' then some '\r'
  else if c = 't' then some '\t'
  else none

/-- First and second half of a surrogate pair. -/
def isHighSurrogate (n : Nat) : Bool := 0xD800 ≤ n && n < 0xDC00
def isLowSurrogate (n : Nat) : Bool := 0xDC00 ≤ n && n < 0xE000

/-- Reads what was written between quotes; `none` if an escape stands for no character. -/
def unescape : List Char → Option (List Char)
  | [] => some []
  | '\\' :: 'u' :: a :: b :: c :: d :: rest =>
    match hexValue4? a b c d with
    | none => none
    | some n =>
      if isHighSurrogate n then
        match rest with
        | '\\' :: 'u' :: a :: b :: c :: d :: rest =>
          match hexValue4? a b c d with
          | some m =>
            if isLowSurrogate m then
              (unescape rest).map (Char.ofNat (0x10000 + (n - 0xD800) * 1024 + (m - 0xDC00)) :: ·)
            else none
          | none => none
        | _ => none
      else if isLowSurrogate n then none
      else (unescape rest).map (Char.ofNat n :: ·)
  | '\\' :: c :: rest =>
    match simpleEscape? c with
    | some e => (unescape rest).map (e :: ·)
    | none => none
  | '\\' :: [] => none
  | c :: rest => (unescape rest).map (c :: ·)

/-- The document that holds a text. -/
def ofText (s : String) : Json := .string (escape s.toList)

/-- The text that a document holds. -/
def text? : Json → Option String
  | .string written => (unescape written).map String.ofList
  | _ => none

/-- A record with the given member names, in the order given. -/
def record (members : List (String × Json)) : Json :=
  .object (members.map fun m => (escape m.1.toList, m.2))

end TextureAtlas.Json
