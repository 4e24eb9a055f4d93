/-!
# Names of palette swatches

A mesh face may carry a palette index in place of a texture. Its swatch is a fragment under a name
made from that index.
-/

namespace TextureAtlas.ColorIndex

/-- What every swatch name begins with. -/
def namePrefix : String := "__colorIndex"

/-- The name of the swatch for palette index `n`. -/
def name (n : UInt32) : String := namePrefix ++ Nat.repr n.toNat

/-- The characters after the common beginning of swatch names. -/
def suffix? (s : String) : Option (List Char) :=
  if namePrefix.toList.isPrefixOf s.toList then some (s.toList.drop namePrefix.toList.length)
  else none

/-- Whether the name begins as a swatch name does. -/
def isName (s : String) : Bool := namePrefix.toList.isPrefixOf s.toList

/-- The number that the digits denote, read after `acc`. -/
def digitsValue : List Char → Nat → Option Nat
  | [], acc => some acc
  | c :: rest, acc =>
    if '0' ≤ c ∧ c ≤ '9' then digitsValue rest (10 * acc + (c.toNat - '0'.toNat)) else none

/-- A decimal number below `2 ^ 32`: an optional plus sign and then at least one ASCII digit. -/
def number? (cs : List Char) : Option UInt32 :=
  let digits := match cs with
    | '+' :: rest => rest
    | _ => cs
  if digits.isEmpty then none
  else match digitsValue digits 0 with
    | some n => if n < UInt32.size then some n.toUInt32 else none
    | none => none

/-- The palette index that the name stands for, if it is a swatch name. -/
def ofName? (s : String) : Option UInt32 := (suffix? s).bind number?

end TextureAtlas.ColorIndex
