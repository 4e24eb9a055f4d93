import TextureAtlas.Decimal.Rounding

/-!
# Binary floating point, exactly

A finite float is `m * 2 ^ q` for whole numbers `m` and `q`. `BinaryFormat.decode` takes a bit
pattern apart, and `BinaryFormat.nearest` gives the bit pattern nearest to a fraction, so that
text and floats convert in exact arithmetic.
-/

namespace TextureAtlas

/-- A binary format: bits of the significand, and the least and greatest exponent of its unit. -/
structure BinaryFormat where
  precision : Nat
  minExponent : Int
  maxExponent : Int

/-- What a bit pattern stands for. -/
inductive BinaryValue where
  | nan
  | infinite (negative : Bool)
  /-- The value `± m * 2 ^ q`. -/
  | finite (negative : Bool) (m : Nat) (q : Int)
  deriving DecidableEq, Repr

namespace BinaryFormat

/-- The 64-bit format. -/
def double : BinaryFormat := ⟨53, -1074, 971⟩

/-- The 32-bit format. -/
def single : BinaryFormat := ⟨24, -149, 104⟩

/-- The implicit leading bit of a normal significand. -/
def leadingBit (f : BinaryFormat) : Nat := Nat.pow 2 (f.precision - 1)

/-- The exponent field that is kept for infinities and NaNs. -/
def specialField (f : BinaryFormat) : Nat := (f.maxExponent - f.minExponent).toNat + 2

/-- The pattern of positive infinity. -/
def infinityBits (f : BinaryFormat) : Nat := f.specialField * f.leadingBit

/-- The sign bit, above the exponent field. -/
def signBit (f : BinaryFormat) : Nat := (f.specialField + 1) * f.leadingBit

/-- Reads a bit pattern. -/
def decode (f : BinaryFormat) (bits : Nat) : BinaryValue :=
  let negative : Bool := f.signBit ≤ bits
  let magnitude := bits % f.signBit
  let field := magnitude / f.leadingBit
  let fraction := magnitude % f.leadingBit
  if field = f.specialField then (if fraction = 0 then .infinite negative else .nan)
  else if field = 0 then .finite negative fraction f.minExponent
  else .finite negative (f.leadingBit + fraction) (f.minExponent + field - 1)

/-- The pattern of the value nearest to `num / den`, ties to the even significand; what lies
beyond the greatest finite value becomes infinite. -/
def nearest (f : BinaryFormat) (num den : Nat) : Nat :=
  if num = 0 then 0 else
    let scale : Int := max f.minExponent ((num.log2 : Int) - den.log2 - f.precision)
    let scaled (q : Int) : Nat × Nat := (num * Nat.pow 2 (-q).toNat, den * Nat.pow 2 q.toNat)
    let q := if Nat.pow 2 f.precision ≤ (scaled scale).1 / (scaled scale).2 then scale + 1 else scale
    let m := Decimal.divHalfEven (scaled q).1 (scaled q).2
    min f.infinityBits ((q - f.minExponent).toNat * f.leadingBit + m)

/-- The pattern of the value nearest to `digits * 10 ^ exponent`. Exponents far outside the range
of the format are settled without forming the power. -/
def nearestDecimal (f : BinaryFormat) (digits : Nat) (exponent : Int) : Nat :=
  if digits = 0 then 0
  else if 400 < exponent then f.infinityBits
  else if exponent + (digits.log2 : Int) < -1200 then 0
  else f.nearest (digits * Nat.pow 10 exponent.toNat) (Nat.pow 10 (-exponent).toNat)

end BinaryFormat

/-- The exact value of a 64-bit float. -/
def doubleValue (x : Float) : BinaryValue := BinaryFormat.double.decode x.toBits.toNat

/-- The exact value of a 32-bit float. -/
def singleValue (x : Float32) : BinaryValue := BinaryFormat.single.decode x.toBits.toNat

/-- The 64-bit float nearest to `± digits * 10 ^ exponent`. -/
def doubleOfDecimal (negative : Bool) (digits : Nat) (exponent : Int) : Float :=
  let x := Float.ofBits (BinaryFormat.double.nearestDecimal digits exponent).toUInt64
  if negative then -x else x

/-- The 32-bit float nearest to `± digits * 10 ^ exponent`. -/
def singleOfDecimal (negative : Bool) (digits : Nat) (exponent : Int) : Float32 :=
  let x := Float32.ofBits (BinaryFormat.single.nearestDecimal digits exponent).toUInt32
  if negative then -x else x

end TextureAtlas
