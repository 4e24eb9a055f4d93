import TextureAtlas.Decimal.Shortest

/-!
# How a float is laid out as text

The digits of a float are fixed by `Decimal.shortest`; a `FloatStyle` says where the point goes,
which exponents are written out, and how the special values are spelt.
-/

namespace TextureAtlas

/-- The layout of a float. -/
structure FloatStyle where
  /-- Least and greatest power of the first digit that is written without an exponent. -/
  plainFrom : Option Int
  plainTo : Option Int
  /-- Whether a whole number keeps its `.0`. -/
  pointZero : Bool
  /-- Whether an exponent from 0 on carries a plus sign. -/
  plusExponent : Bool
  nan : String
  infinite : String
  negativeInfinite : String

namespace FloatStyle

/-- A 64-bit number of a JSON document. -/
def jsonDouble : FloatStyle := ⟨some (-5), some 15, true, true, "null", "null", "null"⟩

/-- A 32-bit number of a JSON document. -/
def jsonSingle : FloatStyle := ⟨some (-5), some 12, true, true, "null", "null", "null"⟩

/-- A 32-bit number of a YAML document. -/
def yamlSingle : FloatStyle := ⟨some (-6), some 12, true, false, ".nan", ".inf", "-.inf"⟩

/-- A number inside a message: always written out. -/
def message : FloatStyle := ⟨none, none, false, false, "NaN", "inf", "-inf"⟩

/-- `n` zeros. -/
def zeros (n : Nat) : List Char := List.replicate n '0'

/-- The digits written out, with the point `exponent` places from their end. -/
def plain (s : FloatStyle) (ds : List Char) (exponent : Int) : List Char :=
  if 0 ≤ exponent then
    ds ++ zeros exponent.toNat ++ (if s.pointZero then ['.', '0'] else [])
  else
    let places := (-exponent).toNat
    let whole := ds.take (ds.length - places)
    (if whole.isEmpty then ['0'] else whole) ++ '.' ::
      (zeros (places - ds.length) ++ ds.drop (ds.length - places))

/-- One digit, the others after a point, and the power of the first digit. -/
def scientific (s : FloatStyle) (ds : List Char) (power : Int) : List Char :=
  let head := match ds with
    | [] => []
    | [d] => [d]
    | d :: rest => d :: '.' :: rest
  head ++ 'e' :: ((if s.plusExponent ∧ 0 ≤ power then ['+'] else []) ++ (toString power).toList)

/-- The text of `± d`. -/
def layOut (s : FloatStyle) (negative : Bool) (d : Decimal.Digits) : String :=
  let ds := (Nat.repr d.digits).toList
  let power : Int := d.exponent + ds.length - 1
  let isPlain : Bool := d.digits = 0 ||
    ((s.plainFrom.all fun p => p ≤ power) && (s.plainTo.all fun p => power ≤ p))
  let body := if isPlain then s.plain ds d.exponent else s.scientific ds power
  String.ofList (if negative then '-' :: body else body)

/-- The text of a binary value of format `f`. -/
def render (s : FloatStyle) (f : BinaryFormat) : BinaryValue → String
  | .nan => s.nan
  | .infinite false => s.infinite
  | .infinite true => s.negativeInfinite
  | .finite negative m q => s.layOut negative (Decimal.shortest f m q)

/-- The text of a 64-bit float. -/
def double (s : FloatStyle) (x : Float) : String := s.render .double (doubleValue x)

/-- The text of a 32-bit float. -/
def single (s : FloatStyle) (x : Float32) : String := s.render .single (singleValue x)

end FloatStyle
end TextureAtlas
