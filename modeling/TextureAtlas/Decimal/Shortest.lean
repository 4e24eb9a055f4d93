import TextureAtlas.Decimal.Binary

/-!
# The fewest digits that read back

A float is written with the fewest digits that no other float of its format is nearer to, and of
those with the nearest digits. The reals that round to `m * 2 ^ q` form an interval; for 1, 2, …
digits the two neighbours of the value on that decimal grid are tested, and the first grid with a
hit gives the text. All arithmetic is on whole numbers.
-/

namespace TextureAtlas.Decimal

/-- The number `digits * 10 ^ exponent`. -/
structure Digits where
  digits : Nat
  exponent : Int
  deriving DecidableEq, Repr

/-- Drops trailing zero digits, at most `fuel` of them. -/
def trimZeros : Nat → Digits → Digits
  | 0, d => d
  | fuel + 1, d =>
    if d.digits ≠ 0 ∧ d.digits % 10 = 0 then trimZeros fuel ⟨d.digits / 10, d.exponent + 1⟩ else d

/-- The interval of reals that round to one float, as fractions over `den`. -/
structure Interval where
  low : Nat
  value : Nat
  high : Nat
  den : Nat
  /-- Whether the two ends belong to it. -/
  closed : Bool

/-- The reals that round to `m * 2 ^ q`: half a unit on either side, but a quarter below a power
of two, where the floats lie closer. The ends belong to it when `m` is even. -/
def roundingInterval (f : BinaryFormat) (m : Nat) (q : Int) : Interval :=
  let below := if m = f.leadingBit ∧ f.minExponent < q then 1 else 2
  let up := Nat.pow 2 (q - 2).toNat
  ⟨(4 * m - below) * up, 4 * m * up, (4 * m + 2) * up, Nat.pow 2 (2 - q).toNat, m % 2 = 0⟩

/-- The least `k` with `num / den < 10 ^ k`, found near an estimate from the binary logarithms. -/
def magnitude10 (num den : Nat) : Int :=
  let estimate : Int := (((num.log2 : Int) - den.log2) * 30103) / 100000
  let below (k : Int) : Bool := num * Nat.pow 10 (-k).toNat < den * Nat.pow 10 k.toNat
  if below (estimate - 1) then estimate - 1
  else if below estimate then estimate
  else if below (estimate + 1) then estimate + 1
  else estimate + 2

/-- The multiple of `10 ^ unit` in the interval that is nearest to its value, if there is one. -/
def Interval.onGrid? (i : Interval) (unit : Int) : Option Digits :=
  let up := Nat.pow 10 (-unit).toNat
  let den := i.den * Nat.pow 10 unit.toNat
  let value := i.value * up
  let inside (d : Nat) : Bool :=
    if i.closed then i.low * up ≤ d * den && d * den ≤ i.high * up
    else i.low * up < d * den && d * den < i.high * up
  let floor := value / den
  let rest := value % den
  match inside floor, inside (floor + 1) with
  | true, true =>
    if 2 * rest < den ∨ (2 * rest = den ∧ floor % 2 = 0) then some ⟨floor, unit⟩
    else some ⟨floor + 1, unit⟩
  | true, false => some ⟨floor, unit⟩
  | false, true => some ⟨floor + 1, unit⟩
  | false, false => none

/-- The fewest digits that read back as `m * 2 ^ q`. -/
def shortest (f : BinaryFormat) (m : Nat) (q : Int) : Digits :=
  if m = 0 then ⟨0, 0⟩ else
    let i := roundingInterval f m q
    let k := magnitude10 i.value i.den
    let found := (List.range (f.precision * 301 / 1000 + 2)).findSome? fun (n : Nat) =>
      i.onGrid? (k - (n + 1))
    trimZeros 400 (found.getD ⟨0, 0⟩)

end TextureAtlas.Decimal
