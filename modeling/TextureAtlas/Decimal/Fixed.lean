import TextureAtlas.Decimal.Binary

/-!
# A fixed number of places

A float with a fixed number of decimal places: its exact binary value is rounded, a half going to
the even last digit.
-/

namespace TextureAtlas.Decimal

/-- The digits of `n / 10 ^ places`, all `places` of them written. -/
def withPlaces (places n : Nat) : List Char :=
  let fraction := (Nat.repr (n % Nat.pow 10 places)).toList
  (Nat.repr (n / Nat.pow 10 places)).toList ++
    '.' :: (List.replicate (places - fraction.length) '0' ++ fraction)

/-- The text of `x` with `places` decimal places. -/
def fixed (places : Nat) (x : Float) : String :=
  match doubleValue x with
  | .nan => "NaN"
  | .infinite false => "inf"
  | .infinite true => "-inf"
  | .finite negative m q =>
    let n := divHalfEven (m * Nat.pow 2 q.toNat * Nat.pow 10 places) (Nat.pow 2 (-q).toNat)
    String.ofList ((if negative then ['-'] else []) ++ withPlaces places n)

end TextureAtlas.Decimal
