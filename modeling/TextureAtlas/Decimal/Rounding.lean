/-!
# Rounding a quotient to a whole number

`divHalfEven n d` is the whole number nearest to `n / d`; of two equally near ones it takes the even
one. Every number text of the library and every decimal it reads goes through it.
-/

namespace TextureAtlas.Decimal

/-- The whole number nearest to `n / d`, a half going to the even neighbour. -/
def divHalfEven (n d : Nat) : Nat :=
  let q := n / d
  if 2 * (n % d) < d then q
  else if d < 2 * (n % d) then q + 1
  else q + q % 2

end TextureAtlas.Decimal
