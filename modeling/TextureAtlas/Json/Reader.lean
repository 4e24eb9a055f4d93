import TextureAtlas.Json.Number
import TextureAtlas.Json.Text

/-!
# Reading JSON text

`Json.parse?` reads one document that fills the whole text. Each piece of the grammar is a function
from the characters left to what it read and what is left after it; the fuel of the recursive ones
is the number of characters.
-/

namespace TextureAtlas.Json

/-- The four blanks of the format. -/
def isBlank (c : Char) : Bool := c = ' ' || c = '\t' || c = '\n' || c = '\r'

def skipBlanks (cs : List Char) : List Char := cs.dropWhile isBlank

/-- At least one digit. -/
def digits1? (cs : List Char) : Option (List Char × List Char) :=
  match cs.takeWhile isDigit with
  | [] => none
  | ds => some (ds, cs.dropWhile isDigit)

/-- The digits before the point: no zero in front of others. -/
def wholePart? : List Char → Option (List Char × List Char)
  | '0' :: rest =>
    match rest with
    | c :: _ => if isDigit c then none else some (['0'], rest)
    | [] => some (['0'], [])
  | cs => digits1? cs

/-- A point and at least one digit, or nothing. -/
def fractionPart? : List Char → Option (List Char × List Char)
  | '.' :: rest => (digits1? rest).map fun (ds, rest) => ('.' :: ds, rest)
  | cs => some ([], cs)

/-- An exponent, or nothing. -/
def exponentPart? : List Char → Option (List Char × List Char)
  | [] => some ([], [])
  | e :: rest =>
    if e = 'e' ∨ e = 'E' then
      match rest with
      | [] => none
      | s :: tail =>
        if s = '+' ∨ s = '-' then (digits1? tail).map fun (ds, rest) => (e :: s :: ds, rest)
        else (digits1? rest).map fun (ds, rest) => (e :: ds, rest)
    else some ([], e :: rest)

/-- A number without its sign. -/
def unsigned? (cs : List Char) : Option (List Char × List Char) := do
  let (whole, cs) ← wholePart? cs
  let (fraction, cs) ← fractionPart? cs
  let (exponent, cs) ← exponentPart? cs
  return (whole ++ fraction ++ exponent, cs)

/-- A number. -/
def numeral? : List Char → Option (List Char × List Char)
  | '-' :: rest => (unsigned? rest).map fun (n, rest) => ('-' :: n, rest)
  | cs => unsigned? cs

/-- The rest of a string after its opening quote; `acc` holds what was read so far, backwards. Raw
control characters and unknown escapes are refused. -/
def quoted? : List Char → List Char → Option (List Char × List Char)
  | [], _ => none
  | '"' :: rest, acc => some (acc.reverse, rest)
  | '\\' :: 'u' :: a :: b :: c :: d :: rest, acc =>
    if (hexValue4? a b c d).isSome then quoted? rest (d :: c :: b :: a :: 'u' :: '\\' :: acc) else none
  | '\\' :: c :: rest, acc =>
    if (simpleEscape? c).isSome then quoted? rest (c :: '\\' :: acc) else none
  | c :: rest, acc => if c.toNat < 32 ∨ c = '\\' then none else quoted? rest (c :: acc)

/-- The literal `word`, if the characters begin with it. -/
def literal? (word : List Char) (value : Json) (cs : List Char) : Option (Json × List Char) :=
  if word.isPrefixOf cs then some (value, cs.drop word.length) else none

mutual
/-- One document, blanks before it skipped. -/
def value? : Nat → List Char → Option (Json × List Char)
  | 0, _ => none
  | fuel + 1, cs =>
    match skipBlanks cs with
    | '"' :: rest => (quoted? rest []).map fun (s, rest) => (.string s, rest)
    | '[' :: rest =>
      match skipBlanks rest with
      | ']' :: rest => some (.array [], rest)
      | rest => items? fuel rest []
    | '\x7b' :: rest =>
      match skipBlanks rest with
      | '\x7d' :: rest => some (.object [], rest)
      | rest => members? fuel rest []
    | 't' :: rest => literal? ['r', 'u', 'e'] (.bool true) rest
    | 'f' :: rest => literal? ['a', 'l', 's', 'e'] (.bool false) rest
    | 'n' :: rest => literal? ['u', 'l', 'l'] .null rest
    | rest => (numeral? rest).map fun (n, rest) => (.number n, rest)

/-- The items of an array from the next one on, and its end; `acc` holds those before, backwards. -/
def items? : Nat → List Char → List Json → Option (Json × List Char)
  | 0, _, _ => none
  | fuel + 1, cs, acc =>
    match value? fuel cs with
    | none => none
    | some (v, rest) =>
      match skipBlanks rest with
      | ',' :: rest => items? fuel rest (v :: acc)
      | ']' :: rest => some (.array (v :: acc).reverse, rest)
      | _ => none

/-- The members of an object from the next one on, and its end. -/
def members? : Nat → List Char → List (List Char × Json) → Option (Json × List Char)
  | 0, _, _ => none
  | fuel + 1, cs, acc =>
    match skipBlanks cs with
    | '"' :: rest =>
      match quoted? rest [] with
      | none => none
      | some (key, rest) =>
        match skipBlanks rest with
        | ':' :: rest =>
          match value? fuel rest with
          | none => none
          | some (v, rest) =>
            match skipBlanks rest with
            | ',' :: rest => members? fuel rest ((key, v) :: acc)
            | '\x7d' :: rest => some (.object ((key, v) :: acc).reverse, rest)
            | _ => none
        | _ => none
    | _ => none
end

/-- The document that the text holds, if it is one well-formed document with blanks around it. -/
def parse? (s : String) : Option Json :=
  let cs := s.toList
  match value? (cs.length + 1) cs with
  | some (v, rest) => if (skipBlanks rest).isEmpty then some v else none
  | none => none

end TextureAtlas.Json
