import Mathlib
import TextureAtlas.Decimal.Binary

/-!
# Quotients of 64-bit floats that are exact

The logical model of `Float` takes a bit pattern apart into a sign, a significand and an exponent
(`UnpackedFloat.unpack`), computes exactly and rounds. `decode_eq_unpack` says that this is the value that
`doubleValue` reads, and `roundWithAccuracy_exact` that rounding leaves a result alone whose significand, less
its trailing zeros, fills the 53 bits. Whole numbers below `2 ^ 53` and their quotients by powers of two are such
results (`toRat?_div_two_pow`).
-/

namespace TextureAtlas

open Float.Model Float.Model.UnpackedFloat

/-! ## The parts of a bit pattern -/

def isNegative : Sign → Bool
  | .positive => false
  | .negative => true

namespace BinaryValue

/-- The value of a float that has been taken apart. -/
def ofUnpacked : UnpackedFloat → BinaryValue
  | .notANumber => .nan
  | .infinity s => .infinite (isNegative s)
  | .zero s => .finite (isNegative s) 0 (-1074)
  | .finite s m e _ => .finite (isNegative s) m e

/-- The value as a rational number, if it is finite. -/
def toRat? : BinaryValue → Option ℚ
  | .finite negative m q => some ((if negative then -1 else 1) * m * 2 ^ q)
  | .infinite _ | .nan => none

end BinaryValue

theorem toNat_unpackMantissa (b : BitVec Format.binary64.numBits) : (unpackMantissa b).toNat = b.toNat % 2 ^ 52 := by
  simp [unpackMantissa]

theorem toNat_unpackExponent (b : BitVec Format.binary64.numBits) :
    (unpackExponent b).toNat = b.toNat / 2 ^ 52 % 2 ^ 11 := by
  simp [unpackExponent, Nat.shiftRight_eq_div_pow]

theorem isNegative_unpackSign (b : BitVec Format.binary64.numBits) :
    isNegative (Sign.ofBitVec (unpackSign b)) = decide (2 ^ 63 ≤ b.toNat) := by
  have hlt : b.toNat < 2 ^ 64 := b.isLt
  have hsign : (unpackSign b).toNat = b.toNat / 2 ^ 63 := by
    simp [unpackSign, Nat.shiftRight_eq_div_pow]
    omega
  have hpositive : unpackSign b = 0#1 ↔ ¬ 2 ^ 63 ≤ b.toNat := by
    rw [← BitVec.toNat_inj, hsign, BitVec.toNat_zero]
    omega
  by_cases h : 2 ^ 63 ≤ b.toNat
  · rw [Sign.ofBitVec, if_neg fun h0 => hpositive.1 h0 h, decide_eq_true h]
    rfl
  · rw [Sign.ofBitVec, if_pos (hpositive.2 h), decide_eq_false h]
    rfl

theorem field_eq_special_iff {f : BitVec 11} : f = -1#11 ↔ f.toNat = 2047 := by
  rw [← BitVec.toNat_inj]
  rfl

theorem field_eq_zero_iff {w : Nat} {f : BitVec w} : f = 0#w ↔ f.toNat = 0 := by
  rw [← BitVec.toNat_inj, BitVec.toNat_zero]

theorem toNat_implicit_append (f : BitVec 52) : (1#1 ++ f).toNat = 2 ^ 52 + f.toNat := by
  rw [BitVec.toNat_append, ← Nat.shiftLeft_add_eq_or_of_lt f.isLt]
  rfl

theorem decode_double (bits : Nat) : BinaryFormat.double.decode bits =
    if bits % 2 ^ 63 / 2 ^ 52 = 2047 then
      if bits % 2 ^ 63 % 2 ^ 52 = 0 then .infinite (2 ^ 63 ≤ bits) else .nan
    else if bits % 2 ^ 63 / 2 ^ 52 = 0 then .finite (2 ^ 63 ≤ bits) (bits % 2 ^ 63 % 2 ^ 52) (-1074)
    else .finite (2 ^ 63 ≤ bits) (2 ^ 52 + bits % 2 ^ 63 % 2 ^ 52) (-1074 + (bits % 2 ^ 63 / 2 ^ 52 : Nat) - 1) :=
  rfl

/-- Both readings of a bit pattern split by the same two values of the exponent field. -/
theorem decode_eq_unpack (b : BitVec Format.binary64.numBits) :
    BinaryFormat.double.decode b.toNat = .ofUnpacked (UnpackedFloat.unpack Format.binary64 b) := by
  have hlt : b.toNat < 2 ^ 64 := b.isLt
  have hfield : b.toNat % 2 ^ 63 / 2 ^ 52 = (unpackExponent b).toNat := by
    rw [toNat_unpackExponent]
    omega
  have hfraction : b.toNat % 2 ^ 63 % 2 ^ 52 = (unpackMantissa b).toNat := by
    rw [toNat_unpackMantissa]
    omega
  have hbias : ((Format.binary64.exponentBias : Int) + Format.binary64.mantissaBitsWithoutImplicit) = 1075 := rfl
  rw [decode_double, hfield, hfraction, ← isNegative_unpackSign, UnpackedFloat.unpack]
  by_cases hs : (unpackExponent b).toNat = 2047
  · rw [if_pos hs, if_pos (field_eq_special_iff.2 hs)]
    by_cases h0 : (unpackMantissa b).toNat = 0
    · rw [if_pos h0, if_pos (field_eq_zero_iff.2 h0)]
      rfl
    · rw [if_neg h0, if_neg fun h => h0 (field_eq_zero_iff.1 h)]
      rfl
  · rw [if_neg hs, if_neg fun h => hs (field_eq_special_iff.1 h)]
    by_cases hn : (unpackExponent b).toNat = 0
    · rw [if_pos hn, if_pos (field_eq_zero_iff.2 hn)]
      by_cases h0 : (unpackMantissa b).toNat = 0
      · rw [dif_pos (field_eq_zero_iff.2 h0), h0]
        rfl
      · rw [dif_neg fun h => h0 (field_eq_zero_iff.1 h)]
        simp only [BinaryValue.ofUnpacked, hn, hbias]
        rfl
    · rw [if_neg hn, if_neg fun h => hn (field_eq_zero_iff.1 h)]
      have hlead : (1#1 ++ unpackMantissa b).toNat = 2 ^ 52 + (unpackMantissa b).toNat := toNat_implicit_append _
      simp only [BinaryValue.ofUnpacked, hbias, hlead]
      congr 1
      omega

theorem doubleValue_eq_unpack (x : Float) : doubleValue x = .ofUnpacked x.toModel.unpack :=
  decode_eq_unpack x.toModel.toBits.toBitVec

/-! ## Rounding a full significand

A significand is full if its leading bit is the 53rd. -/

section Rounding

variable {m k : Nat} {e : Int}

theorem log2_mul_two_pow (hm : m ≠ 0) (k : Nat) : (m * 2 ^ k).log2 = m.log2 + k := by
  induction k with
  | zero => simp
  | succ k ih =>
    have hne : m * 2 ^ k ≠ 0 := Nat.mul_ne_zero hm (Nat.two_pow_pos k).ne'
    rw [Nat.pow_succ', Nat.mul_left_comm, Nat.log2_two_mul hne, ih, Nat.add_assoc]

theorem targetExponent_double (t : Int) : Format.binary64.targetExponent t = max (t - 53) (-1074) := rfl

/-- Trailing zeros leave neither a round bit nor a sticky one behind. -/
theorem shiftRight_exact (m k : Nat) : (⟨m * 2 ^ k, false, false⟩ : ExtendedMantissa) >>> k = ⟨m, false, false⟩ := by
  induction k generalizing m with
  | zero =>
    rw [Nat.pow_zero, Nat.mul_one]
    rfl
  | succ k ih =>
    have hshift : (⟨m * 2 * 2 ^ k, false, false⟩ : ExtendedMantissa) >>> (k + 1) =
        ExtendedMantissa.shiftRightOne ((⟨m * 2 * 2 ^ k, false, false⟩ : ExtendedMantissa) >>> k) := rfl
    rw [Nat.pow_succ', ← Nat.mul_assoc, hshift, ih]
    simp [ExtendedMantissa.shiftRightOne]

theorem shiftToTargetExponent_exact (hm : m.log2 = 52) (hpos : 0 < m) (he : -1074 ≤ e + k) :
    shiftToTargetExponent Format.binary64 (m * 2 ^ k) e .exact = (⟨m, false, false⟩, e + k) := by
  have htarget : Format.binary64.targetExponent (totalExponent (m * 2 ^ k) e) = e + k := by
    rw [targetExponent_double, totalExponent, log2_mul_two_pow hpos.ne', hm]
    omega
  have hshift : (e + k - e).toNat = k := by omega
  simp only [shiftToTargetExponent, htarget, shiftToExponent, hshift, ExtendedMantissa.ofMantissaAndAccuracy,
    shiftRight_exact]

theorem roundWithAccuracy_exact (s : Sign) (hm : m.log2 = 52) (hpos : 0 < m) (he : -1074 ≤ e + k) :
    roundWithAccuracy Format.binary64 s (m * 2 ^ k) e .exact = .finite s m (e + k) hpos := by
  -- Rounding shifts twice, and the second time there is nothing left to shift.
  have hagain : shiftToTargetExponent Format.binary64 m (e + k) .exact = (⟨m, false, false⟩, e + k) := by
    have h := shiftToTargetExponent_exact (k := 0) hm hpos (e := e + k) (by omega)
    rwa [Nat.pow_zero, Nat.mul_one, Int.natCast_zero, Int.add_zero] at h
  rw [roundWithAccuracy, shiftToTargetExponent_exact hm hpos he]
  simp only [ExtendedMantissa.roundedMantissa, ExtendedMantissa.accuracy, Accuracy.roundToNearestEven, hagain]
  rw [dif_neg hpos.ne']

theorem unpackSign_packComponents {spec : Format} {s : Sign} {f : BitVec spec.exponentBits}
    {m : BitVec spec.mantissaBitsWithoutImplicit} : unpackSign (packComponents spec s f m) = s.toBitVec := by
  ext i hi
  obtain rfl : i = 0 := by omega
  simp [unpackSign, packComponents, BitVec.getLsbD_append, BitVec.getElem_append]

theorem ofBitVec_toBitVec (s : Sign) : Sign.ofBitVec s.toBitVec = s := by
  cases s <;> rfl

theorem unpack_pack_full (s : Sign) (hm : m.log2 = 52) (hpos : 0 < m) (he : -1074 ≤ e) (he' : e ≤ 971) :
    (Float.Model.pack (.finite s m e hpos)).unpack = .finite s m e hpos := by
  have hbits : 2 ^ 52 ≤ m ∧ m < 2 ^ 53 := (Nat.log2_eq_iff hpos.ne').1 hm
  have hpack : UnpackedFloat.pack Format.binary64 (.finite s m e hpos) =
      packComponents Format.binary64 s (BitVec.ofNat 11 (e + 1023 + 52).toNat) (BitVec.ofNat 52 m) := by
    have hfits : ¬ 2 ^ 11 ≤ (e + 1023 + 52).toNat + 1 := by omega
    have hfull : m.log2 + 1 = 53 := by omega
    exact (if_neg hfits).trans (if_pos hfull)
  have hexponent : (BitVec.ofNat 11 (e + 1023 + 52).toNat).toNat = (e + 1075).toNat := by
    rw [BitVec.toNat_ofNat]
    omega
  have hlead : (1#1 ++ BitVec.ofNat 52 m).toNat = m := by
    rw [toNat_implicit_append, BitVec.toNat_ofNat]
    omega
  have hspecial : BitVec.ofNat 11 (e + 1023 + 52).toNat ≠ -1#11 := by
    rw [ne_eq, field_eq_special_iff, hexponent]
    omega
  have hsubnormal : BitVec.ofNat 11 (e + 1023 + 52).toNat ≠ 0#11 := by
    rw [ne_eq, field_eq_zero_iff, hexponent]
    omega
  show UnpackedFloat.unpack Format.binary64 (UnpackedFloat.pack Format.binary64 (.finite s m e hpos)) = _
  rw [hpack, UnpackedFloat.unpack]
  simp only [unpackMantissa_packComponents, unpackExponent_packComponents, unpackSign_packComponents,
    ofBitVec_toBitVec, if_neg hspecial, if_neg hsubnormal, hlead, hexponent]
  congr 1
  show ((e + 1075).toNat : Int) - 1075 = e
  omega

end Rounding

/-! ## Products and quotients -/

theorem toModel_mul (x y : Float) : (x * y).toModel =
    Float.Model.pack (UnpackedFloat.mul Format.binary64 x.toModel.unpack y.toModel.unpack) := rfl

theorem toModel_div (x y : Float) : (x / y).toModel =
    Float.Model.pack (UnpackedFloat.div Format.binary64 x.toModel.unpack y.toModel.unpack) := rfl

/-- The float is `m * 2 ^ e`, positive and with a full significand. -/
structure IsNormal (x : Float) (m : Nat) (e : Int) : Prop where
  full : m.log2 = 52
  pos : 0 < m
  unpack : x.toModel.unpack = .finite .positive m e pos

namespace IsNormal

variable {x y : Float} {m n k : Nat} {e f : Int}

theorem toRat? (h : IsNormal x m e) : (doubleValue x).toRat? = some ((m : ℚ) * 2 ^ e) := by
  rw [doubleValue_eq_unpack, h.unpack]
  simp [BinaryValue.ofUnpacked, BinaryValue.toRat?, isNegative]

theorem of_round
    (hx : x.toModel = Float.Model.pack (roundWithAccuracy Format.binary64 .positive (m * 2 ^ k) (e - k) .exact))
    (hm : m.log2 = 52) (he : -1074 ≤ e) (he' : e ≤ 971) : IsNormal x m e := by
  have hpos : 0 < m := Nat.pos_of_ne_zero fun h => by simp [h] at hm
  have hround : roundWithAccuracy Format.binary64 .positive (m * 2 ^ k) (e - k) .exact =
      .finite .positive m e hpos := by
    rw [roundWithAccuracy_exact .positive hm hpos (by omega)]
    congr 1
    omega
  refine ⟨hm, hpos, ?_⟩
  rw [hx, hround, unpack_pack_full .positive hm hpos he he']

theorem mul (hx : IsNormal x m e) (hy : IsNormal y (2 ^ 52) f) (hlow : -1074 ≤ e + f + 52)
    (hhigh : e + f + 52 ≤ 971) : IsNormal (x * y) m (e + f + 52) := by
  apply of_round (k := 52) _ hx.full hlow hhigh
  rw [toModel_mul, hx.unpack, hy.unpack]
  show Float.Model.pack (roundWithAccuracy Format.binary64 .positive (m * 2 ^ 52) (e + f) .exact) = _
  have hexponent : e + f + 52 - (52 : Nat) = e + f := by omega
  rw [hexponent]

theorem divCore_two_pow (hm : m.log2 = 52) (hlow : -1074 ≤ e - f - 53) :
    divCore Format.binary64 m e (2 ^ 52) f = (m * 2 ^ 1, e - f - 53, .exact) := by
  have htarget : min (e - f) (Format.binary64.targetExponent (totalExponent m e - totalExponent (2 ^ 52) f)) =
      e - f - 53 := by
    rw [targetExponent_double, totalExponent, totalExponent, Nat.log2_two_pow, hm]
    omega
  have hshift : (e - f - (e - f - 53)).toNat = 53 := by omega
  have hquotient : m <<< 53 / 2 ^ 52 = m * 2 ^ 1 := by
    rw [Nat.shiftLeft_eq]
    omega
  have hremainder : m <<< 53 % 2 ^ 52 = 0 := by
    rw [Nat.shiftLeft_eq]
    omega
  simp only [divCore, htarget, hshift, hquotient, hremainder, accuracyOfFraction, if_pos]

theorem div (hx : IsNormal x m e) (hy : IsNormal y (2 ^ 52) f) (hlow : -1074 ≤ e - f - 53)
    (hhigh : e - f - 52 ≤ 971) : IsNormal (x / y) m (e - f - 52) := by
  apply of_round (k := 1) _ hx.full (by omega) hhigh
  rw [toModel_div, hx.unpack, hy.unpack]
  show Float.Model.pack (roundWithAccuracy Format.binary64 .positive
    (divCore Format.binary64 m e (2 ^ 52) f).1 (divCore Format.binary64 m e (2 ^ 52) f).2.1
    (divCore Format.binary64 m e (2 ^ 52) f).2.2) = _
  have hexponent : e - f - 52 - (1 : Nat) = e - f - 53 := by omega
  rw [divCore_two_pow hx.full hlow, hexponent]

/-! ## Whole numbers -/

theorem ofUInt64 (hn : n ≠ 0) (hlt : n < 2 ^ 53) :
    IsNormal n.toUInt64.toFloat (n * 2 ^ (52 - n.log2)) (n.log2 - 52) := by
  have hbits : n.log2 < 53 := (Nat.log2_lt hn).2 hlt
  have hfull : (n * 2 ^ (52 - n.log2)).log2 = 52 := by
    rw [log2_mul_two_pow hn]
    omega
  apply of_round (k := 0) _ hfull (by omega) (by omega)
  have hword : n.toUInt64.toNat = n := Nat.mod_eq_of_lt (by omega)
  have hcompare : compare (n : Int) 0 = .gt := Int.compare_eq_gt.2 (by omega)
  have htarget : Format.binary64.targetExponent (totalExponent n 0) = (n.log2 : Int) - 52 := by
    rw [targetExponent_double, totalExponent]
    omega
  have hshift : (0 - ((n.log2 : Int) - 52)).toNat = 52 - n.log2 := by omega
  show Float.Model.pack (UnpackedFloat.ofInt Format.binary64 n.toUInt64.toNat) = _
  rw [hword, UnpackedFloat.ofInt, UnpackedFloat.normalize, hcompare]
  show Float.Model.pack (UnpackedFloat.round Format.binary64 .positive n 0) = _
  rw [UnpackedFloat.round]
  simp only [decreaseExponent, htarget, hshift]
  rw [Nat.pow_zero, Nat.mul_one, Nat.shiftLeft_eq]
  congr 2
  omega

theorem one : IsNormal Float.exactlyRepresentablePowersOfTen[0] (2 ^ 52) (-52) :=
  ⟨Nat.log2_two_pow, Nat.two_pow_pos 52, rfl⟩

/-- A whole number goes through the conversion of decimals, as a word times the zeroth power of ten. -/
theorem toFloat_eq_mul (hlt : n < 2 ^ 53) :
    n.toFloat = n.toUInt64.toFloat * Float.exactlyRepresentablePowersOfTen[0] := by
  show Float.ofScientific n false 0 = _
  rw [Float.ofScientific, dif_pos ⟨hlt, Nat.zero_le 22⟩]
  rfl

theorem toFloat (hn : n ≠ 0) (hlt : n < 2 ^ 53) :
    IsNormal n.toFloat (n * 2 ^ (52 - n.log2)) (n.log2 - 52) := by
  have hbits : n.log2 < 53 := (Nat.log2_lt hn).2 hlt
  have h := (ofUInt64 hn hlt).mul one (by omega) (by omega)
  rw [← toFloat_eq_mul hlt] at h
  simpa using h

theorem two_pow_toFloat (hk : k < 53) : IsNormal (2 ^ k).toFloat (2 ^ 52) (k - 52) := by
  have h := toFloat (Nat.two_pow_pos k).ne' (Nat.pow_lt_pow_right Nat.one_lt_two hk)
  rwa [Nat.log2_two_pow, ← Nat.pow_add, Nat.add_sub_cancel' (by omega)] at h

theorem unpack_zero_div (hy : IsNormal y m e) : (Nat.toFloat 0 / y).toModel.unpack = .zero .positive := by
  have hzero : (Nat.toFloat 0).toModel = Float.Model.pack (.zero .positive) := by decide
  have hunpack : (Float.Model.pack (.zero .positive)).unpack = .zero .positive := rfl
  rw [toModel_div, hzero, hunpack, hy.unpack]
  exact hunpack

end IsNormal

/-- **Dividing a whole number by a power of two is exact** in 64-bit floats, as long as both fit into a
significand. -/
theorem toRat?_div_two_pow {n k : Nat} (hn : n < 2 ^ 53) (hk : k < 53) :
    (doubleValue (n.toFloat / (2 ^ k).toFloat)).toRat? = some ((n : ℚ) / 2 ^ k) := by
  have hy := IsNormal.two_pow_toFloat hk
  obtain rfl | hpos := Nat.eq_zero_or_pos n
  · rw [doubleValue_eq_unpack, hy.unpack_zero_div]
    simp [BinaryValue.ofUnpacked, BinaryValue.toRat?]
  · have hbits : n.log2 < 53 := (Nat.log2_lt hpos.ne').2 hn
    have hx := (IsNormal.toFloat hpos.ne' hn).div hy (by omega) (by omega)
    have hexponent : (n.log2 : Int) - 52 - (k - 52) - 52 = -((52 - n.log2 : Nat) : Int) - (k : Nat) := by omega
    rw [hx.toRat?, hexponent, zpow_sub₀ two_ne_zero, zpow_neg, zpow_natCast, zpow_natCast]
    push_cast
    field_simp

end TextureAtlas
