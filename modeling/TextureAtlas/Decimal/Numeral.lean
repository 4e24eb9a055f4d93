import TextureAtlas.Decimal.Binary

/-!
# Reading floats

The float texts that users type: a sign, digits with a point anywhere, an exponent, or the words for
infinity and for no number. Decimal texts become the nearest float.
-/

namespace TextureAtlas.Decimal

/-- What a float text says. -/
inductive Numeral where
  | nan
  | infinite (negative : Bool)
  /-- The number `± digits * 10 ^ exponent`. -/
  | decimal (negative : Bool) (digits : Nat) (exponent : Int)
  deriving DecidableEq, Repr

namespace Numeral

def isDigit (c : Char) : Bool := '0' ≤ c && c ≤ '9'

/-- The value of a run of digits. -/
def natural (cs : List Char) : Nat := cs.foldl (fun n c => 10 * n + (c.toNat - '0'.toNat)) 0

/-- An exponent behind its letter: a sign and at least one digit. Nothing at all is 0. -/
def exponent? : List Char → Option Int
  | [] => some 0
  | e :: rest =>
    if e = 'e' ∨ e = 'E' then
      let (negative, ds) := match rest with
        | '-' :: ds => (true, ds)
        | '+' :: ds => (false, ds)
        | ds => (false, ds)
      if ds.isEmpty ∨ !ds.all isDigit then none
      else some (if negative then -(natural ds : Int) else natural ds)
    else none

/-- Digits with at most one point among them, at least one digit, and an exponent. -/
def unsigned? (negative : Bool) (cs : List Char) : Option Numeral :=
  let whole := cs.takeWhile isDigit
  let (fraction, rest) := match cs.dropWhile isDigit with
    | '.' :: rest => (rest.takeWhile isDigit, rest.dropWhile isDigit)
    | rest => ([], rest)
  if whole.isEmpty ∧ fraction.isEmpty then none
  else (exponent? rest).map fun e => decimal negative (natural (whole ++ fraction)) (e - fraction.length)

/-- Reads a float text. Words count in any ASCII case. -/
def ofText? (cs : List Char) : Option Numeral :=
  let (negative, body) := match cs with
    | '-' :: body => (true, body)
    | '+' :: body => (false, body)
    | body => (false, body)
  let word := body.map Char.toLower
  if word = "nan".toList then some nan
  else if word = "inf".toList ∨ word = "infinity".toList then some (infinite negative)
  else unsigned? negative body

/-- The nearest 64-bit float. -/
def toDouble : Numeral → Float
  | nan => 0 / 0
  | infinite negative => if negative then -1 / 0 else 1 / 0
  | decimal negative digits exponent => doubleOfDecimal negative digits exponent

/-- The nearest 32-bit float. -/
def toSingle : Numeral → Float32
  | nan => 0 / 0
  | infinite negative => if negative then -1 / 0 else 1 / 0
  | decimal negative digits exponent => singleOfDecimal negative digits exponent

end Numeral
end TextureAtlas.Decimal
