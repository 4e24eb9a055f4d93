import TextureAtlas.Decimal.Style
import TextureAtlas.Json.Basic

/-!
# Numbers in JSON documents

A number without fraction and exponent is an integer as long as it fits 64 bits. Any other number is
a float, read in the way of a quick converter: the leading digits that fit 64 bits make a significand,
which is then multiplied or divided by one power of ten. That is not always the nearest float, and
documents are read like that by every tool that shares them.
-/

namespace TextureAtlas.Json

/-- What a number stands for. -/
inductive Number where
  | natural (n : Nat)
  | negative (n : Int)
  | float (x : Float)

/-! ## Powers of ten -/

/-- The float `10 ^ n`. -/
def powerOfTen (n : Nat) : Float := doubleOfDecimal false 1 n

/-- `significand * 10 ^ exponent` by one multiplication or division; an overflow is refused. Powers
beyond the range of floats are reached by dividing by the greatest one first. -/
def scaleByTen (x : Float) (exponent : Int) : Nat → Option Float
  | 0 => some x
  | fuel + 1 =>
    if exponent.natAbs ≤ 308 then
      if 0 ≤ exponent then
        let scaled := x * powerOfTen exponent.natAbs
        if scaled.isInf then none else some scaled
      else some (x / powerOfTen exponent.natAbs)
    else if x == 0 then some x
    else if 0 ≤ exponent then none
    else scaleByTen (x / powerOfTen 308) (exponent + 308) fuel

/-- The float with the given sign, significand and decimal exponent. Four divisions bring any
significand to zero. -/
def floatOfParts (negative : Bool) (significand : Nat) (exponent : Int) : Option Number :=
  (scaleByTen significand.toFloat exponent 5).map fun x => .float (if negative then -x else x)

/-! ## Parts of a number -/

def isDigit (c : Char) : Bool := '0' ≤ c && c ≤ '9'

def digitValue (c : Char) : Nat := c.toNat - '0'.toNat

/-- Takes digits into a significand below `2 ^ 64`, and stops at the first one that does not fit. -/
def takeDigits : List Char → Nat → Nat → Nat × Nat × List Char
  | [], significand, taken => (significand, taken, [])
  | c :: rest, significand, taken =>
    let next := 10 * significand + digitValue c
    if isDigit c ∧ next < UInt64.size then takeDigits rest next (taken + 1)
    else (significand, taken, c :: rest)

/-- The value of a run of digits. -/
def naturalOfDigits (cs : List Char) : Nat := cs.foldl (fun n c => 10 * n + digitValue c) 0

/-- Applies the exponent that was written, if any. Beyond 31 bits a positive exponent is refused
unless the significand is zero, and a negative one gives zero. -/
def applyExponent (negative : Bool) (significand : Nat) (exponent : Int) : List Char → Option Number
  | [] => floatOfParts negative significand exponent
  | _ :: rest =>
    let (down, digits) := match rest with
      | '-' :: ds => (true, ds)
      | '+' :: ds => (false, ds)
      | ds => (false, ds)
    let n := naturalOfDigits digits
    if Nat.pow 2 31 ≤ n then
      if significand ≠ 0 ∧ !down then none else floatOfParts negative 0 0
    else
      let total := if down then exponent - n else exponent + n
      floatOfParts negative significand (max (-2147483648) (min 2147483647 total))

/-- What a well-formed number stands for; `none` if it is too great. -/
def number? (written : List Char) : Option Number :=
  let (negative, unsigned) := match written with
    | '-' :: rest => (true, rest)
    | _ => (false, written)
  let (significand, _, rest) := takeDigits unsigned 0 0
  let skipped := rest.takeWhile isDigit
  match rest.dropWhile isDigit with
  | '.' :: fraction =>
    let (significand, taken, rest) := takeDigits fraction significand 0
    applyExponent negative significand ((skipped.length : Int) - taken) (rest.dropWhile isDigit)
  | [] =>
    if skipped ≠ [] then floatOfParts negative significand skipped.length
    else if !negative then some (.natural significand)
    else if significand = 0 ∨ Nat.pow 2 63 < significand then floatOfParts true significand 0
    else some (.negative (-significand))
  | rest => applyExponent negative significand skipped.length rest

/-! ## Numbers as documents -/

/-- The document that holds a natural number. -/
def ofNat (n : Nat) : Json := .number (Nat.repr n).toList

/-- The document that holds an integer. -/
def ofInt (n : Int) : Json := .number (if n < 0 then '-' :: (Nat.repr n.natAbs).toList else (Nat.repr n.natAbs).toList)

/-- The document that holds a 64-bit float; what is no number becomes `null`. -/
def ofDouble (x : Float) : Json :=
  match doubleValue x with
  | .finite .. => .number (FloatStyle.jsonDouble.double x).toList
  | _ => .null

/-- The document that holds a 32-bit float; what is no number becomes `null`. -/
def ofSingle (x : Float32) : Json :=
  match singleValue x with
  | .finite .. => .number (FloatStyle.jsonSingle.single x).toList
  | _ => .null

/-- A natural number below `bound`. -/
def natBelow? (bound : Nat) : Json → Option Nat
  | .number written =>
    match number? written with
    | some (.natural n) => if n < bound then some n else none
    | _ => none
  | _ => none

/-- An 8-bit word. -/
def uint8? (j : Json) : Option UInt8 := (natBelow? UInt8.size j).map Nat.toUInt8

/-- A 32-bit word. -/
def uint32? (j : Json) : Option UInt32 := (natBelow? UInt32.size j).map Nat.toUInt32

/-- A natural number below `2 ^ 64`. -/
def nat64? (j : Json) : Option Nat := natBelow? UInt64.size j

/-- A signed 32-bit integer. -/
def int32? : Json → Option Int32
  | .number written =>
    match number? written with
    | some (.natural n) => if n < Nat.pow 2 31 then some (Int32.ofNat n) else none
    | some (.negative n) => if -Int.ofNat (Nat.pow 2 31) ≤ n then some (Int32.ofInt n) else none
    | _ => none
  | _ => none

/-- A 64-bit float; integers count too. -/
def double? : Json → Option Float
  | .number written =>
    (number? written).map fun
      | .natural n => n.toFloat
      | .negative n => -n.natAbs.toFloat
      | .float x => x
  | _ => none

/-- A 32-bit float: a float is rounded a second time, an integer only once. -/
def single? : Json → Option Float32
  | .number written =>
    (number? written).map fun
      | .natural n => n.toFloat32
      | .negative n => -n.natAbs.toFloat32
      | .float x => x.toFloat32
  | _ => none

end TextureAtlas.Json
