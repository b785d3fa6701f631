import Mathlib
import AgentMemory.Decimal.Text
import AgentMemory.Text.Number

namespace AgentMemory
namespace Decimal

open Float.Model UnpackedFloat

/-!
# The bits of a double

A double is stored as 64 bits: a sign bit, eleven bits of biased exponent and 52 bits of
fraction.  The logical model of `Float` reads them with `unpack` and writes them with
`pack`; the decimal writer reads the same bits as numbers (`Binary.ofBits`, the value
without its sign) and the decimal reader writes them from numbers (`packBits`).

This module connects the two readings.  The fields are quotients and remainders of the
bits by powers of two (`toNat_unpackExponent`, `Binary.ofBits_eq`); packing what was
unpacked gives the bits back (`pack_unpack`); clearing the sign bit takes the absolute
value (`unpack_magnitude`).  So a finite double is the double of its bits with the sign
cleared, negated when the sign is set (`eq_signed_magnitude`), and those bits are what
`packBits` writes of the value `Binary.ofBits` reads (`packBits_ofBits`).
-/

section Fields

variable (b : BitVec Format.binary64.numBits)

theorem toNat_unpackMantissa : (unpackMantissa b).toNat = b.toNat % 2 ^ 52 := by
  simp [unpackMantissa, BitVec.extractLsb_toNat]

theorem toNat_unpackExponent : (unpackExponent b).toNat = b.toNat / 2 ^ 52 % 2 ^ 11 := by
  simp [unpackExponent, BitVec.extractLsb_toNat, Nat.shiftRight_eq_div_pow]

theorem toNat_unpackSign : (unpackSign b).toNat = b.toNat / 2 ^ 63 := by
  have lt : b.toNat < 2 ^ 64 := b.isLt
  simp [unpackSign, BitVec.extractLsb_toNat, Nat.shiftRight_eq_div_pow]
  omega

theorem toBitVec_ofBitVec (v : BitVec 1) : (Sign.ofBitVec v).toBitVec = v := by
  revert v; decide

theorem packComponents_unpack {e : BitVec 11} {m : BitVec 52} (he : unpackExponent b = e)
    (hm : unpackMantissa b = m) : packComponents .binary64 (Sign.ofBitVec (unpackSign b)) e m = b := by
  subst he hm
  simp only [packComponents, toBitVec_ofBitVec, unpackSign, unpackExponent, unpackMantissa, BitVec.extractLsb]
  ext i hi
  grind

end Fields

theorem toNat_one_append (v : BitVec 52) : (1#1 ++ v).toNat = 2 ^ 52 + v.toNat := by
  rw [BitVec.toNat_append, ← Nat.shiftLeft_add_eq_or_of_lt v.isLt]
  simp [Nat.shiftLeft_eq]

theorem pack_unpack (b : BitVec Format.binary64.numBits) (number : unpack .binary64 b ≠ .notANumber) :
    pack .binary64 (unpack .binary64 b) = b := by
  have mant : (unpackMantissa b).toNat < 2 ^ 52 := (unpackMantissa b).isLt
  have expo : (unpackExponent b).toNat < 2 ^ 11 := (unpackExponent b).isLt
  rw [UnpackedFloat.unpack] at number ⊢
  split
  · rename_i top
    split
    · rename_i zero
      exact packComponents_unpack b top zero
    · simp_all
  · rename_i below
    have below : (unpackExponent b).toNat ≠ 2047 := fun h => below (BitVec.eq_of_toNat_eq h)
    split
    · rename_i bottom
      split
      · rename_i zero
        exact packComponents_unpack b bottom zero
      · rename_i nonzero
        -- a subnormal: the exponent field is zero and the fraction is below 2^52
        have bottom : (unpackExponent b).toNat = 0 := by rw [bottom]; rfl
        have small : ¬ (unpackMantissa b).toNat.log2 + 1 = Format.binary64.mantissaBits := by
          have := (Nat.log2_lt (fun h => nonzero (BitVec.eq_of_toNat_eq h))).mpr mant
          change ¬ _ = 53
          omega
        simp only [UnpackedFloat.pack, bottom]
        rw [if_neg (by decide), if_neg small]
        exact packComponents_unpack b (BitVec.eq_of_toNat_eq (by simp [bottom])) (by simp)
    · rename_i inside
      -- a normal double: the implicit bit makes the mantissa 53 bits long
      have inside : (unpackExponent b).toNat ≠ 0 := fun h => inside (BitVec.eq_of_toNat_eq h)
      have wide : (1#1 ++ unpackMantissa b).toNat.log2 + 1 = Format.binary64.mantissaBits := by
        have : (2 ^ 52 + (unpackMantissa b).toNat).log2 = 52 := by
          rw [Nat.log2_eq_iff (by omega)]
          omega
        rw [toNat_one_append, this]
        rfl
      simp only [UnpackedFloat.pack]
      have biased : ((unpackExponent b).toNat - ((Format.binary64.exponentBias : Nat) + (Format.binary64.mantissaBitsWithoutImplicit : Nat)) +
          (Format.binary64.exponentBias : Nat) + (Format.binary64.mantissaBitsWithoutImplicit : Nat) : Int).toNat = (unpackExponent b).toNat := by
        omega
      rw [biased, if_neg (by change ¬ 2048 ≤ _; omega), if_pos wide]
      refine packComponents_unpack b (by simp) (BitVec.eq_of_toNat_eq ?_)
      simp only [BitVec.toNat_ofNat, toNat_one_append]
      omega

/-- Clearing the sign bit takes the absolute value. -/
theorem unpack_magnitude {b c : BitVec Format.binary64.numBits} (cleared : c.toNat = b.toNat % 2 ^ 63) :
    unpack .binary64 c = (unpack .binary64 b).abs := by
  have lt : b.toNat < 2 ^ 64 := b.isLt
  have expo : unpackExponent c = unpackExponent b := by
    apply BitVec.eq_of_toNat_eq
    rw [toNat_unpackExponent, toNat_unpackExponent, cleared]
    omega
  have mant : unpackMantissa c = unpackMantissa b := by
    apply BitVec.eq_of_toNat_eq
    rw [toNat_unpackMantissa, toNat_unpackMantissa, cleared]
    omega
  have sign : Sign.ofBitVec (unpackSign c) = .positive := by
    have zero : unpackSign c = 0#1 := by
      apply BitVec.eq_of_toNat_eq
      rw [toNat_unpackSign, cleared]
      simp
    simp [zero, Sign.ofBitVec]
  simp only [UnpackedFloat.unpack, expo, mant, sign]
  split_ifs <;> rfl

theorem unpack_of_sign {b : BitVec Format.binary64.numBits} (set : 2 ^ 63 ≤ b.toNat) :
    (unpack .binary64 b).abs.neg = unpack .binary64 b := by
  have lt : b.toNat < 2 ^ 64 := b.isLt
  have sign : Sign.ofBitVec (unpackSign b) = .negative := by
    have one : unpackSign b = 1#1 := by
      apply BitVec.eq_of_toNat_eq
      rw [toNat_unpackSign]
      simp
      omega
    simp [one, Sign.ofBitVec]
  rw [UnpackedFloat.unpack, sign]
  split_ifs <;> rfl

theorem unpack_ofBits {c : UInt64} (number : unpack .binary64 c.toBitVec ≠ .notANumber) :
    (Float.ofBits c).toModel.unpack = unpack .binary64 c.toBitVec := by
  show unpack .binary64 (UInt64.ofBitVec (pack .binary64 (unpack .binary64 c.toBitVec))).toBitVec = _
  rw [pack_unpack _ number]

theorem unpack_of_finite {x : Float} (finite : isFiniteValue x = true) :
    (unpack .binary64 x.toBits.toBitVec).isNaN = false ∧ (unpack .binary64 x.toBits.toBitVec).isInf = false := by
  simpa [isFiniteValue, Float.isNaN, Float.isInf, Float.Model.isNaN, Float.Model.isInf, Float.Model.unpack,
    Float.toBits] using finite

theorem neg_ofBits {c : UInt64} (small : c.toNat < 2 ^ 63) (number : unpack .binary64 c.toBitVec ≠ .notANumber) :
    -Float.ofBits c = Float.ofBits (c + 0x8000000000000000) := by
  have sum : (c + 0x8000000000000000).toNat = c.toNat + 2 ^ 63 := by
    rw [UInt64.toNat_add]
    simp only [UInt64.reduceToNat]
    omega
  have magnitude : unpack .binary64 c.toBitVec = (unpack .binary64 (c + 0x8000000000000000).toBitVec).abs :=
    unpack_magnitude (by simp only [UInt64.toNat_toBitVec, sum]; omega)
  show Float.ofModel (Float.Model.pack _) = Float.ofModel (Float.Model.pack _)
  rw [unpack_ofBits number, magnitude, unpack_of_sign (by simp only [UInt64.toNat_toBitVec, sum]; omega)]

/-- A finite double is the double of its bits with the sign bit cleared, negated when the
sign bit is set. -/
theorem eq_signed_magnitude (x : Float) (finite : isFiniteValue x = true) :
    x = if x.toBits >>> 63 == 1 then -Float.ofBits (x.toBits % 0x8000000000000000)
      else Float.ofBits (x.toBits % 0x8000000000000000) := by
  obtain ⟨number, -⟩ := unpack_of_finite finite
  have lt : x.toBits.toNat < 2 ^ 64 := x.toBits.toNat_lt
  by_cases set : 2 ^ 63 ≤ x.toBits.toNat
  · have sign : (x.toBits >>> 63 == 1) = true := by
      simp [← UInt64.toNat_inj, Nat.shiftRight_eq_div_pow]
      omega
    have magnitude : unpack .binary64 (x.toBits % 0x8000000000000000).toBitVec =
        (unpack .binary64 x.toBits.toBitVec).abs :=
      unpack_magnitude (by simp)
    have positive : unpack .binary64 (x.toBits % 0x8000000000000000).toBitVec ≠ .notANumber := by
      rw [magnitude]
      cases h : unpack .binary64 x.toBits.toBitVec <;> simp_all [UnpackedFloat.abs, UnpackedFloat.isNaN]
    have bits : x.toBits % 0x8000000000000000 + 0x8000000000000000 = x.toBits := by
      simp [← UInt64.toNat_inj, UInt64.toNat_add]
      omega
    rw [if_pos sign, neg_ofBits (by simp; omega) positive, bits, Float.ofBits_toBits]
  · have sign : (x.toBits >>> 63 == 1) = false := by
      simp [← UInt64.toNat_inj, Nat.shiftRight_eq_div_pow]
      omega
    have same : x.toBits % 0x8000000000000000 = x.toBits := by
      simp [← UInt64.toNat_inj]
      omega
    rw [if_neg (by simp [sign]), same, Float.ofBits_toBits]

/-- The value of the bits of a double, read through their exponent and fraction fields. -/
theorem Binary.ofBits_eq (b : UInt64) : Binary.ofBits b =
    if b.toNat / 2 ^ 52 % 2 ^ 11 = 0 then ⟨b.toNat % 2 ^ 52, -1074, false⟩
    else ⟨2 ^ 52 + b.toNat % 2 ^ 52, ((b.toNat / 2 ^ 52 % 2 ^ 11 : Nat) : Int) - 1075,
      b.toNat % 2 ^ 52 == 0 && 1 < b.toNat / 2 ^ 52 % 2 ^ 11⟩ := by
  have expo : ((b >>> 52) &&& 0x7FF).toNat = b.toNat / 2 ^ 52 % 2 ^ 11 := by
    rw [UInt64.toNat_and, UInt64.toNat_shiftRight, show (0x7FF : UInt64).toNat = 2 ^ 11 - 1 from rfl,
      Nat.and_two_pow_sub_one_eq_mod]
    simp [Nat.shiftRight_eq_div_pow]
  have frac : (b &&& 0xFFFFFFFFFFFFF).toNat = b.toNat % 2 ^ 52 := by
    rw [UInt64.toNat_and, show (0xFFFFFFFFFFFFF : UInt64).toNat = 2 ^ 52 - 1 from rfl,
      Nat.and_two_pow_sub_one_eq_mod]
  simp only [Binary.ofBits, expo, frac, beq_iff_eq, Nat.pow_eq]

theorem exponent_ne_top {x : Float} (finite : isFiniteValue x = true) : x.toBits.toNat / 2 ^ 52 % 2 ^ 11 ≠ 2047 := by
  obtain ⟨number, bounded⟩ := unpack_of_finite finite
  intro top
  have top : @unpackExponent .binary64 x.toBits.toBitVec = -1#11 := by
    apply BitVec.eq_of_toNat_eq
    rw [toNat_unpackExponent]
    simpa using top
  simp only [UnpackedFloat.unpack, top] at number bounded
  split_ifs at number bounded <;> simp_all [UnpackedFloat.isNaN, UnpackedFloat.isInf]

/-- `packBits` writes back the bits of a finite double, without the sign, from the value
`Binary.ofBits` reads. -/
theorem packBits_ofBits {x : Float} (finite : isFiniteValue x = true) :
    packBits (Binary.ofBits x.toBits).m (Binary.ofBits x.toBits).q = x.toBits % 0x8000000000000000 := by
  have top := exponent_ne_top finite
  have lt : x.toBits.toNat < 2 ^ 64 := x.toBits.toNat_lt
  rw [Binary.ofBits_eq]
  split
  · rename_i bottom
    simp only [packBits, Nat.pow_eq]
    rw [if_pos (Nat.mod_lt _ (by decide))]
    simp [← UInt64.toNat_inj]
    omega
  · rename_i inside
    simp only [packBits, Nat.pow_eq]
    rw [if_neg (by omega)]
    simp [← UInt64.toNat_inj]
    omega

/-- A positive value in the form the bits of a double hold it: a mantissa of 53 bits with
its exponent in range, or a smaller mantissa at the least exponent.  The gap to the value
below is half the gap above exactly at the bottom of a binade above the least exponent. -/
structure Binary.Canonical (x : Binary) : Prop where
  pos : 0 < x.m
  lt : x.m < 2 ^ 53
  least : -1074 ≤ x.q
  most : x.q ≤ 971
  normal : 2 ^ 52 ≤ x.m ∨ x.q = -1074
  narrow : x.narrowBelow = true ↔ x.m = 2 ^ 52 ∧ -1074 < x.q

theorem canonical_ofBits {x : Float} (finite : isFiniteValue x = true) (nonzero : (Binary.ofBits x.toBits).m ≠ 0) :
    (Binary.ofBits x.toBits).Canonical := by
  have top := exponent_ne_top finite
  have frac : x.toBits.toNat % 2 ^ 52 < 2 ^ 52 := Nat.mod_lt _ (by decide)
  have expo : x.toBits.toNat / 2 ^ 52 % 2 ^ 11 < 2 ^ 11 := Nat.mod_lt _ (by decide)
  rw [Binary.ofBits_eq] at nonzero ⊢
  split
  · rename_i bottom
    rw [if_pos bottom] at nonzero
    refine ⟨?_, ?_, ?_, ?_, ?_, ?_⟩ <;> dsimp only at nonzero ⊢
    all_goals first | omega | simp
  · rename_i inside
    refine ⟨?_, ?_, ?_, ?_, ?_, ?_⟩ <;> dsimp only
    all_goals first | omega | (simp only [Bool.and_eq_true, beq_iff_eq, decide_eq_true_eq]; omega)

theorem unpack_of_exponent_ne_top {b : BitVec Format.binary64.numBits} (below : b.toNat / 2 ^ 52 % 2 ^ 11 ≠ 2047) :
    (unpack .binary64 b).isNaN = false ∧ (unpack .binary64 b).isInf = false := by
  have top : unpackExponent b ≠ -1#11 := by
    intro top
    have := congrArg BitVec.toNat top
    rw [toNat_unpackExponent] at this
    exact below (by simpa using this)
  simp only [UnpackedFloat.unpack, top, if_false]
  split_ifs <;> simp [UnpackedFloat.isNaN, UnpackedFloat.isInf]

theorem ofBits_finite {c : UInt64} (below : c.toNat / 2 ^ 52 % 2 ^ 11 ≠ 2047) : isFiniteValue (Float.ofBits c) = true := by
  obtain ⟨number, bounded⟩ := unpack_of_exponent_ne_top (b := c.toBitVec) (by simpa using below)
  have same := unpack_ofBits (c := c) (by intro h; simp [h, UnpackedFloat.isNaN] at number)
  simp [isFiniteValue, Float.isNaN, Float.isInf, Float.Model.isNaN, Float.Model.isInf, same, number, bounded]

end Decimal
end AgentMemory
