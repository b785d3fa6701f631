import Mathlib
import AgentMemory.Proofs.Decimal.Order
import AgentMemory.Proofs.Decimal.Bits

namespace AgentMemory
namespace Decimal

open Float.Model UnpackedFloat

/-!
# Rounding to a double

Every arithmetic operation of the logical model of `Float` computes a mantissa and an
exponent close to the exact result, with an accuracy that says how they fall short of it,
and then rounds: the mantissa is shifted right to the exponent the format allows, rounded
to nearest with ties to even, and shifted once more when rounding carried it into a 54th
bit (`roundWithAccuracy`).  Then the double is packed into 64 bits.

Here rounding is read on the grid of the exponent it shifts to.  A shifted mantissa with
its residual bits stands for the value it was cut from (`Approximates`), and shifting keeps
this (`Approximates.shiftRight`).  The rounded double is then one of the two grid points
around the exact value, and the value itself when that lies on the grid (`Faithful`,
`roundWithAccuracy_faithful`, `round_faithful`).  Nearest rounding picks the closer one; the
proofs here need only that it picks one of them.  So rounding never passes a double: a
value at most a double rounds to at most it (`Faithful.le_of_le`), and a value at least a
double to at least it (`Faithful.ge_of_ge`).

Representable doubles are packed and unpacked as they are, or as an infinity above the
largest exponent (`unpack_pack_representable`); the finite doubles that bits unpack to are
representable (`representable_of_unpack`), and between them the order of values is that of
exponents, then mantissas (`Representable.lex_of_le`).
-/

theorem two_zpow_pos (t : ℤ) : (0 : ℚ) < 2 ^ t := zpow_pos two_pos t

/-! ## Shifting a mantissa -/

/-- An extended mantissa at exponent `x` stands for the value `v`: its mantissa is `v`
rounded down to a multiple of `2 ^ x`, and its residual bits are clear exactly when nothing
was rounded off. -/
structure Approximates (em : ExtendedMantissa) (x : ℤ) (v : ℚ) : Prop where
  below : (em.mantissa : ℚ) * 2 ^ x ≤ v
  above : v < ((em.mantissa : ℚ) + 1) * 2 ^ x
  exact : (em.roundBit || em.stickyBit) = false ↔ (em.mantissa : ℚ) * 2 ^ x = v

theorem Approximates.shiftRightOne {em : ExtendedMantissa} {x : ℤ} {v : ℚ} (approx : Approximates em x v) :
    Approximates em.shiftRightOne (x + 1) v := by
  rcases em with ⟨q, r, s⟩
  obtain ⟨below, above, exact⟩ := approx
  simp only [ExtendedMantissa.shiftRightOne] at below above exact ⊢
  have pow : (2 : ℚ) ^ (x + 1) = 2 * 2 ^ x := by rw [zpow_add_one₀ two_ne_zero]; ring
  rcases Nat.mod_two_eq_zero_or_one q with even | odd
  · -- an even mantissa halves without loss
    have cast : ((q / 2 : ℕ) : ℚ) * 2 = q := by
      exact_mod_cast Nat.div_mul_cancel (Nat.dvd_of_mod_eq_zero even)
    have half : ((q / 2 : ℕ) : ℚ) * 2 ^ (x + 1) = q * 2 ^ x := by
      rw [pow, ← cast]; ring
    refine ⟨by rw [half]; exact below, ?_, ?_⟩
    · calc v < ((q : ℚ) + 1) * 2 ^ x := above
        _ ≤ (((q / 2 : ℕ) : ℚ) + 1) * 2 ^ (x + 1) := by
          rw [pow, ← cast]
          nlinarith [zpow_pos (two_pos : (0 : ℚ) < 2) x]
    · rw [half]
      simpa [even] using exact
  · -- an odd mantissa drops a bit, so its half lies below the value
    have cast : ((q / 2 : ℕ) : ℚ) * 2 + 1 = q := by
      exact_mod_cast (by omega : q / 2 * 2 + 1 = q)
    have half : ((q / 2 : ℕ) : ℚ) * 2 ^ (x + 1) + 2 ^ x = q * 2 ^ x := by
      rw [pow, ← cast]; ring
    have pos : (0 : ℚ) < 2 ^ x := zpow_pos two_pos x
    refine ⟨by linarith, ?_, ?_⟩
    · calc v < ((q : ℚ) + 1) * 2 ^ x := above
        _ = (((q / 2 : ℕ) : ℚ) + 1) * 2 ^ (x + 1) := by rw [pow, ← cast]; ring
    · rw [odd, show (1 != 0) = true from rfl, Bool.true_or]
      refine ⟨fun h => absurd h (by decide), fun same => ?_⟩
      linarith


/-- Shifting right by `k` bits moves the grid up by `k` and keeps standing for the value. -/
theorem Approximates.shiftRight {em : ExtendedMantissa} {x : ℤ} {v : ℚ} (approx : Approximates em x v) (k : ℕ) :
    Approximates (em >>> k) (x + k) v := by
  change Approximates (k.repeat ExtendedMantissa.shiftRightOne em) _ v
  induction k with
  | zero => simpa [Nat.repeat] using approx
  | succ k ih =>
    rw [Nat.repeat]
    simpa only [Nat.cast_succ, add_assoc] using ih.shiftRightOne

theorem approximates_exact (M : ℕ) (x : ℤ) :
    Approximates (ExtendedMantissa.ofMantissaAndAccuracy M .exact) x (M * 2 ^ x) where
  below := le_rfl
  above := by
    simp only [ExtendedMantissa.ofMantissaAndAccuracy]
    nlinarith [zpow_pos (two_pos : (0 : ℚ) < 2) x]
  exact := by simp [ExtendedMantissa.ofMantissaAndAccuracy]

theorem shiftRight_mantissa (em : ExtendedMantissa) (k : ℕ) : (em >>> k).mantissa = em.mantissa / 2 ^ k := by
  change (k.repeat ExtendedMantissa.shiftRightOne em).mantissa = _
  induction k with
  | zero => simp [Nat.repeat]
  | succ k ih =>
    rw [Nat.repeat, ExtendedMantissa.shiftRightOne]
    simp only [ih, Nat.div_div_eq_div_mul, Nat.pow_succ]

theorem mantissa_ofMantissaAndAccuracy (M : ℕ) (acc : Accuracy) :
    (ExtendedMantissa.ofMantissaAndAccuracy M acc).mantissa = M := by
  rcases acc with _ | (_ | _ | _) <;> rfl

theorem le_roundedMantissa (em : ExtendedMantissa) : em.mantissa ≤ em.roundedMantissa := by
  rcases em with ⟨m, r, s⟩
  cases r <;> cases s <;> simp [ExtendedMantissa.roundedMantissa, ExtendedMantissa.accuracy,
    Accuracy.roundToNearestEven]

theorem roundedMantissa_le (em : ExtendedMantissa) : em.roundedMantissa ≤ em.mantissa + 1 := by
  rcases em with ⟨m, r, s⟩
  cases r <;> cases s <;> simp [ExtendedMantissa.roundedMantissa, ExtendedMantissa.accuracy,
    Accuracy.roundToNearestEven]
  omega

theorem roundedMantissa_of_clear {em : ExtendedMantissa} (clear : (em.roundBit || em.stickyBit) = false) :
    em.roundedMantissa = em.mantissa := by
  rcases em with ⟨m, r, s⟩
  cases r <;> cases s <;> simp_all [ExtendedMantissa.roundedMantissa, ExtendedMantissa.accuracy,
    Accuracy.roundToNearestEven]

/-! ## Rounding -/

/-- Where the first shift of rounding leaves a mantissa: at an exponent no lower than the
least one, with at most 53 bits left. -/
theorem shift_bounds (M : ℕ) (x : ℤ) :
    -1074 ≤ x + ((Format.binary64.targetExponent (totalExponent M x) - x).toNat : ℤ) ∧
      M.log2 ≤ 52 + (Format.binary64.targetExponent (totalExponent M x) - x).toNat := by
  simp only [Format.targetExponent, totalExponent, Format.mantissaBits, Format.minExponent]
  norm_num
  omega

theorem shiftToTargetExponent_of_small {R : ℕ} {t : ℤ} (small : R < 2 ^ 53) (least : -1074 ≤ t) :
    shiftToTargetExponent .binary64 R t .exact = (⟨R, false, false⟩, t) := by
  have bits : R.log2 ≤ 52 := by
    rcases Nat.eq_zero_or_pos R with zero | pos
    · simp [zero]
    · have := (Nat.log2_lt pos.ne').mpr small
      omega
  have none : (Format.binary64.targetExponent (totalExponent R t) - t).toNat = 0 := by
    simp only [Format.targetExponent, totalExponent, Format.mantissaBits, Format.minExponent]
    norm_num
    omega
  simp [shiftToTargetExponent, shiftToExponent, none, HShiftRight.hShiftRight, Nat.repeat,
    ExtendedMantissa.ofMantissaAndAccuracy]

theorem shiftToTargetExponent_of_carry {t : ℤ} (least : -1074 ≤ t) :
    shiftToTargetExponent .binary64 (2 ^ 53) t .exact = (⟨2 ^ 52, false, false⟩, t + 1) := by
  have one : (Format.binary64.targetExponent (totalExponent (2 ^ 53) t) - t).toNat = 1 := by
    simp only [Format.targetExponent, totalExponent, Nat.log2_two_pow, Format.mantissaBits, Format.minExponent]
    norm_num
    omega
  unfold shiftToTargetExponent shiftToExponent
  dsimp only
  rw [one]
  rfl

/-- Rounding in three outcomes: the mantissa rounded after the first shift is zero, fits in
53 bits, or carried into a 54th bit and is halved. -/
theorem roundWithAccuracy_eq (s : Sign) (M : ℕ) (x : ℤ) (acc : Accuracy) :
    roundWithAccuracy .binary64 s M x acc =
      if h : (shiftToTargetExponent .binary64 M x acc).1.roundedMantissa = 0 then .zero s
      else if (shiftToTargetExponent .binary64 M x acc).1.roundedMantissa < 2 ^ 53 then
        .finite s (shiftToTargetExponent .binary64 M x acc).1.roundedMantissa
          (shiftToTargetExponent .binary64 M x acc).2 (Nat.pos_of_ne_zero h)
      else .finite s (2 ^ 52) ((shiftToTargetExponent .binary64 M x acc).2 + 1) (by positivity) := by
  have least : -1074 ≤ (shiftToTargetExponent .binary64 M x acc).2 := (shift_bounds M x).1
  have bits := (shift_bounds M x).2
  have first : (shiftToTargetExponent .binary64 M x acc).1.mantissa =
      M / 2 ^ (Format.binary64.targetExponent (totalExponent M x) - x).toNat := by
    simp [shiftToTargetExponent, shiftToExponent, shiftRight_mantissa, mantissa_ofMantissaAndAccuracy]
  have fits : (shiftToTargetExponent .binary64 M x acc).1.mantissa < 2 ^ 53 := by
    rw [first, Nat.div_lt_iff_lt_mul (by positivity), ← Nat.pow_add]
    calc M < 2 ^ (M.log2 + 1) := Nat.lt_log2_self
      _ ≤ 2 ^ (53 + _) := Nat.pow_le_pow_right (by decide) (by omega)
  have carry := roundedMantissa_le (shiftToTargetExponent .binary64 M x acc).1
  generalize shifted : shiftToTargetExponent .binary64 M x acc = out at least fits carry
  obtain ⟨em, t⟩ := out
  rw [roundWithAccuracy, shifted]
  dsimp only at least fits carry ⊢
  by_cases zero : em.roundedMantissa = 0
  · simp only [zero, shiftToTargetExponent_of_small (by decide : 0 < 2 ^ 53) least]
    rfl
  by_cases small : em.roundedMantissa < 2 ^ 53
  · simp only [shiftToTargetExponent_of_small small least, zero, small, dite_false, if_true]
  · have top : em.roundedMantissa = 2 ^ 53 := by omega
    simp only [top, shiftToTargetExponent_of_carry least]
    rfl


/-- A mantissa and an exponent as a finite double other than zero holds them: at most 53
bits at an exponent no lower than the least one, and exactly 53 bits above it. -/
structure Representable (m : ℕ) (e : ℤ) : Prop where
  small : m < 2 ^ 53
  least : -1074 ≤ e
  normal : 2 ^ 52 ≤ m ∨ e = -1074

/-- `w` is `v` rounded on the grid of the multiples of `2 ^ t`: one of the two grid points
around `v`, and `v` itself when `v` is on the grid.  The grid is the one doubles have
around `v`: `t` is no lower than the least exponent, and `v` has at most 53 bits above
it, and at least 53 unless `t` is the least exponent. -/
structure Faithful (t : ℤ) (v w : ℚ) : Prop where
  floor : ∃ F : ℕ, (F : ℚ) * 2 ^ t ≤ v ∧ v < ((F : ℚ) + 1) * 2 ^ t ∧
    (w = F * 2 ^ t ∨ w = ((F : ℚ) + 1) * 2 ^ t) ∧ (v = F * 2 ^ t → w = v)
  least : -1074 ≤ t
  small : v < 2 ^ (t + 53)
  normal : t = -1074 ∨ 2 ^ (t + 52) ≤ v

/-- A mantissa of at most 53 bits that stands for `v` on the grid of `2 ^ t` rounds it
faithfully, when the grid is the one doubles have around `v`. -/
theorem Approximates.faithful {em : ExtendedMantissa} {t : ℤ} {v : ℚ} (approx : Approximates em t v)
    (fits : em.mantissa < 2 ^ 53) (least : -1074 ≤ t) (normal : t = -1074 ∨ 2 ^ (t + 52) ≤ v) :
    Faithful t v (em.roundedMantissa * 2 ^ t) := by
  obtain ⟨below, above, exact⟩ := approx
  have up := roundedMantissa_le em
  have down := le_roundedMantissa em
  refine ⟨⟨em.mantissa, below, above, ?_, fun onGrid => ?_⟩, least, ?_, normal⟩
  · rcases (by omega : em.roundedMantissa = em.mantissa ∨ em.roundedMantissa = em.mantissa + 1) with same | next
    · exact Or.inl (by rw [same])
    · exact Or.inr (by rw [next]; push_cast; ring)
  · rw [roundedMantissa_of_clear (exact.mpr onGrid.symm), onGrid]
  · calc v < ((em.mantissa : ℚ) + 1) * 2 ^ t := above
      _ ≤ (2 ^ 53 : ℕ) * 2 ^ t := by
        gcongr
        exact_mod_cast fits
      _ = 2 ^ (t + 53) := by rw [zpow_add₀ two_ne_zero]; norm_cast; ring

theorem Approximates.normal_roundedMantissa {em : ExtendedMantissa} {t : ℤ} {v : ℚ} (approx : Approximates em t v)
    (normal : t = -1074 ∨ 2 ^ (t + 52) ≤ v) : 2 ^ 52 ≤ em.roundedMantissa ∨ t = -1074 := by
  rcases normal with bottom | wide
  · exact Or.inr bottom
  · left
    have grid : (2 : ℚ) ^ (t + 52) = (2 ^ 52 : ℕ) * 2 ^ t := by
      rw [zpow_add₀ two_ne_zero]; norm_cast; ring
    have lt : ((2 ^ 52 : ℕ) : ℚ) < em.mantissa + 1 := by
      have := lt_of_le_of_lt wide approx.above
      rw [grid] at this
      exact lt_of_mul_lt_mul_right this (two_zpow_pos t).le
    have : 2 ^ 52 < em.mantissa + 1 := by exact_mod_cast lt
    have := le_roundedMantissa em
    omega

/-- The first shift of rounding stops at the target exponent when the mantissa has 53 bits
or more, or the exponent is no higher than the least one. -/
theorem shiftToTargetExponent_exponent {M : ℕ} {x : ℤ} (acc : Accuracy) (shiftable : 52 ≤ M.log2 ∨ x ≤ -1074) :
    (shiftToTargetExponent .binary64 M x acc).2 = Format.binary64.targetExponent (totalExponent M x) := by
  change x + ((Format.binary64.targetExponent (totalExponent M x) - x).toNat : ℤ) = _
  simp only [Format.targetExponent, totalExponent, Format.mantissaBits, Format.minExponent]
  norm_num
  omega

/-- Rounding a positive value held as a mantissa at an exponent, with the accuracy of the
computation that gave it, rounds it faithfully on the grid of the target exponent: to zero,
or to a representable double. -/
theorem roundWithAccuracy_faithful {M : ℕ} (pos : 0 < M) {x : ℤ} {acc : Accuracy} {v : ℚ}
    (approx : Approximates (ExtendedMantissa.ofMantissaAndAccuracy M acc) x v)
    (shiftable : 52 ≤ M.log2 ∨ x ≤ -1074) (s : Sign) :
    (roundWithAccuracy .binary64 s M x acc = .zero s ∧
        Faithful (Format.binary64.targetExponent (totalExponent M x)) v 0) ∨
      ∃ m e h, roundWithAccuracy .binary64 s M x acc = .finite s m e h ∧ Representable m e ∧
        Faithful (Format.binary64.targetExponent (totalExponent M x)) v (m * 2 ^ e) := by
  have exponent := shiftToTargetExponent_exponent acc shiftable
  set t := Format.binary64.targetExponent (totalExponent M x) with target
  have least : -1074 ≤ t := le_max_right _ _
  have approx₁ : Approximates (shiftToTargetExponent .binary64 M x acc).1 t v := by
    rw [← exponent]
    exact approx.shiftRight _
  have fits : (shiftToTargetExponent .binary64 M x acc).1.mantissa < 2 ^ 53 := by
    have first : (shiftToTargetExponent .binary64 M x acc).1.mantissa =
        M / 2 ^ (t - x).toNat := by
      simp [shiftToTargetExponent, shiftToExponent, shiftRight_mantissa, mantissa_ofMantissaAndAccuracy, t]
    rw [first, Nat.div_lt_iff_lt_mul (by positivity), ← Nat.pow_add]
    calc M < 2 ^ (M.log2 + 1) := Nat.lt_log2_self
      _ ≤ 2 ^ (53 + (t - x).toNat) := Nat.pow_le_pow_right (by decide) (by have := (shift_bounds M x).2; omega)
  have normal : t = -1074 ∨ (2 : ℚ) ^ (t + 52) ≤ v := by
    by_cases bottom : t = -1074
    · exact Or.inl bottom
    · right
      have top : t + 52 = (M.log2 : ℤ) + x := by
        simp only [target, Format.targetExponent, totalExponent, Format.mantissaBits, Format.minExponent] at bottom ⊢
        omega
      have bit : ((2 ^ M.log2 : ℕ) : ℚ) ≤ M := by exact_mod_cast Nat.log2_self_le pos.ne'
      calc (2 : ℚ) ^ (t + 52) = ((2 ^ M.log2 : ℕ) : ℚ) * 2 ^ x := by
            rw [top, zpow_add₀ two_ne_zero]; norm_cast
        _ ≤ M * 2 ^ x := by gcongr
        _ ≤ v := by simpa [mantissa_ofMantissaAndAccuracy] using approx.below
  have faithful := approx₁.faithful fits least normal
  have wide := approx₁.normal_roundedMantissa normal
  rw [roundWithAccuracy_eq, exponent]
  generalize (shiftToTargetExponent .binary64 M x acc).1 = em at faithful wide fits ⊢
  -- the three outcomes of rounding: zero, 53 bits at most, or a carry into a 54th bit
  by_cases zero : em.roundedMantissa = 0
  · left
    rw [zero] at faithful
    simpa [zero] using faithful
  right
  by_cases small : em.roundedMantissa < 2 ^ 53
  · refine ⟨em.roundedMantissa, t, Nat.pos_of_ne_zero zero, by rw [dif_neg zero, if_pos small], ⟨small, least, wide⟩,
      faithful⟩
  · have top : em.roundedMantissa = 2 ^ 53 := by
      have := roundedMantissa_le em
      omega
    refine ⟨2 ^ 52, t + 1, by positivity, by rw [dif_neg zero, if_neg small], ⟨by decide, by omega, Or.inl le_rfl⟩, ?_⟩
    have same : ((2 ^ 52 : ℕ) : ℚ) * 2 ^ (t + 1) = em.roundedMantissa * 2 ^ t := by
      rw [top, zpow_add_one₀ two_ne_zero]; norm_cast; ring
    rw [same]
    exact faithful


theorem log2_shiftLeft {M : ℕ} (pos : 0 < M) (k : ℕ) : (M <<< k).log2 = M.log2 + k := by
  rw [Nat.shiftLeft_eq, Nat.log2_eq_iff (by positivity)]
  constructor
  · rw [Nat.pow_add]
    exact Nat.mul_le_mul_right _ (Nat.log2_self_le pos.ne')
  · rw [show M.log2 + k + 1 = M.log2 + 1 + k by omega, Nat.pow_add]
    exact Nat.mul_lt_mul_of_pos_right Nat.lt_log2_self (by positivity)

/-- Rounding a positive mantissa at an exponent rounds its value faithfully, on the grid of
the target exponent. -/
theorem round_faithful {M : ℕ} (pos : 0 < M) (x : ℤ) (s : Sign) :
    (round .binary64 s M x = .zero s ∧ Faithful (Format.binary64.targetExponent (totalExponent M x)) (M * 2 ^ x) 0) ∨
      ∃ m e h, round .binary64 s M x = .finite s m e h ∧ Representable m e ∧
        Faithful (Format.binary64.targetExponent (totalExponent M x)) (M * 2 ^ x) (m * 2 ^ e) := by
  set t := Format.binary64.targetExponent (totalExponent M x) with target
  set k := (x - t).toNat
  have wide : (M <<< k).log2 = M.log2 + k := log2_shiftLeft pos k
  have same : ((M <<< k : ℕ) : ℚ) * 2 ^ (x - k) = M * 2 ^ x := by
    rw [Nat.shiftLeft_eq, zpow_sub₀ two_ne_zero, zpow_natCast]
    push_cast
    field_simp
  have total : totalExponent (M <<< k) (x - k) = totalExponent M x := by
    simp only [totalExponent, wide]
    push_cast
    ring
  have shiftable : 52 ≤ (M <<< k).log2 ∨ x - k ≤ -1074 := by
    rw [wide]
    simp only [k, target, Format.targetExponent, totalExponent, Format.mantissaBits, Format.minExponent]
    omega
  have rounded := roundWithAccuracy_faithful (by rw [Nat.shiftLeft_eq]; positivity) (same ▸ approximates_exact (M <<< k) (x - k))
    shiftable s
  rw [total, ← target] at rounded
  exact rounded

/-! ## Comparing with a double -/

/-- A faithful rounding of a value no greater than a representable double is no greater
than it: rounding never passes a double. -/
theorem Faithful.le_of_le {t : ℤ} {v w : ℚ} {m : ℕ} {e : ℤ} (faithful : Faithful t v w) (rep : Representable m e)
    (le : v ≤ m * 2 ^ e) : w ≤ m * 2 ^ e := by
  obtain ⟨⟨F, below, above, rounded, onGrid⟩, least, small, normal⟩ := faithful
  have grid : t ≤ e := by
    rcases normal with bottom | wide
    · rw [bottom]; exact rep.least
    · have : (2 : ℚ) ^ (t + 52) < 2 ^ (e + 53) := by
        calc (2 : ℚ) ^ (t + 52) ≤ m * 2 ^ e := wide.trans le
          _ < (2 ^ 53 : ℕ) * 2 ^ e := by gcongr; exact_mod_cast rep.small
          _ = 2 ^ (e + 53) := by rw [zpow_add₀ two_ne_zero]; norm_cast; ring
      have := (zpow_lt_zpow_iff_right₀ (by norm_num : (1 : ℚ) < 2)).mp this
      omega
  set N := m * 2 ^ (e - t).toNat
  have double : (N : ℚ) * 2 ^ t = m * 2 ^ e := by
    simp only [N, Nat.cast_mul, Nat.cast_pow, Nat.cast_ofNat, mul_assoc]
    rw [← zpow_natCast, ← zpow_add₀ two_ne_zero]
    congr 2
    omega
  rw [← double] at le ⊢
  have floor : (F : ℚ) ≤ N := le_of_mul_le_mul_right (below.trans le) (two_zpow_pos t)
  rcases rounded with down | up
  · rw [down]
    exact mul_le_mul_of_nonneg_right floor (two_zpow_pos t).le
  · by_cases exact : v = F * 2 ^ t
    · rw [onGrid exact]
      exact le
    · -- off the grid the value is strictly above the lower point, so the upper one is still no greater
      have lt : (F : ℚ) < N := lt_of_mul_lt_mul_right (lt_of_lt_of_le (lt_of_le_of_ne below (Ne.symm exact)) le)
        (two_zpow_pos t).le
      have next : (F : ℚ) + 1 ≤ N := by exact_mod_cast (by exact_mod_cast lt : F < N)
      rw [up]
      exact mul_le_mul_of_nonneg_right next (two_zpow_pos t).le

/-- A faithful rounding of a value no less than a representable double is no less than it. -/
theorem Faithful.ge_of_ge {t : ℤ} {v w : ℚ} {m : ℕ} {e : ℤ} (faithful : Faithful t v w) (rep : Representable m e)
    (ge : m * 2 ^ e ≤ v) : m * 2 ^ e ≤ w := by
  obtain ⟨⟨F, below, above, rounded, -⟩, least, small, normal⟩ := faithful
  have low : (F : ℚ) * 2 ^ t ≤ w := by
    rcases rounded with down | up
    · rw [down]
    · rw [up]; gcongr; linarith
  refine le_trans ?_ low
  by_cases grid : t ≤ e
  · -- the double lies on the grid, at or below the lower point
    set N := m * 2 ^ (e - t).toNat
    have double : (N : ℚ) * 2 ^ t = m * 2 ^ e := by
      simp only [N, Nat.cast_mul, Nat.cast_pow, Nat.cast_ofNat, mul_assoc]
      rw [← zpow_natCast, ← zpow_add₀ two_ne_zero]
      congr 2
      omega
    rw [← double] at ge ⊢
    have lt : (N : ℚ) < F + 1 := lt_of_mul_lt_mul_right (lt_of_le_of_lt ge above) (two_zpow_pos t).le
    have : N ≤ F := by
      have : N < F + 1 := by exact_mod_cast lt
      omega
    gcongr
  · -- the double is finer than the grid, so it has fewer than 53 bits above it
    have wide : (2 : ℚ) ^ (t + 52) ≤ v := normal.resolve_left (by have := rep.least; omega)
    have many : (2 ^ 52 : ℕ) ≤ F := by
      have : ((2 ^ 52 : ℕ) : ℚ) * 2 ^ t < (F + 1) * 2 ^ t := by
        calc ((2 ^ 52 : ℕ) : ℚ) * 2 ^ t = 2 ^ (t + 52) := by rw [zpow_add₀ two_ne_zero]; norm_cast; ring
          _ < (F + 1) * 2 ^ t := wide.trans_lt above
      have := lt_of_mul_lt_mul_right this (two_zpow_pos t).le
      have : 2 ^ 52 < F + 1 := by exact_mod_cast this
      omega
    calc (m : ℚ) * 2 ^ e ≤ (2 ^ 53 : ℕ) * 2 ^ (t - 1) := by
          gcongr
          · exact_mod_cast rep.small.le
          · norm_num
          · omega
      _ = (2 ^ 52 : ℕ) * 2 ^ t := by rw [zpow_sub₀ two_ne_zero]; push_cast; ring
      _ ≤ F * 2 ^ t := by gcongr


/-- Between representable doubles, the order of values is that of exponents, then
mantissas. -/
theorem Representable.lex_of_le {m e m' e'} (rep : Representable m e) (rep' : Representable m' e')
    (le : (m' : ℚ) * 2 ^ e' ≤ m * 2 ^ e) : e' < e ∨ e' = e ∧ m' ≤ m := by
  rcases lt_trichotomy e' e with lower | same | higher
  · exact Or.inl lower
  · subst same
    exact Or.inr ⟨rfl, by exact_mod_cast le_of_mul_le_mul_right le (two_zpow_pos e')⟩
  · -- a higher exponent has 53 bits, so its double is above every double of a lower one
    have wide : 2 ^ 52 ≤ m' := rep'.normal.resolve_right (by have := rep.least; omega)
    have : (m : ℚ) * 2 ^ e < m' * 2 ^ e' := by
      calc (m : ℚ) * 2 ^ e < (2 ^ 53 : ℕ) * 2 ^ e := by gcongr; exact_mod_cast rep.small
        _ = (2 ^ 52 : ℕ) * 2 ^ (e + 1) := by rw [zpow_add_one₀ two_ne_zero]; push_cast; ring
        _ ≤ m' * 2 ^ e' := by
          gcongr
          · norm_num
          · omega
    exact absurd le (not_le.mpr this)

theorem rank_le_of_le {m e m' e'} {pos : 0 < m} {pos' : 0 < m'} (rep : Representable m e) (rep' : Representable m' e')
    (le : (m' : ℚ) * 2 ^ e' ≤ m * 2 ^ e) : rank (.finite .positive m' e' pos') ≤ rank (.finite .positive m e pos) := by
  have lex := rep.lex_of_le rep' le
  simp [rank, Prod.Lex.le_iff]
  omega

section Packing

theorem toNat_packComponents (s : Sign) (e : BitVec 11) (m : BitVec 52) :
    (packComponents .binary64 s e m).toNat = s.toBitVec.toNat * 2 ^ 63 + e.toNat * 2 ^ 52 + m.toNat := by
  simp only [packComponents, BitVec.toNat_append]
  rw [← Nat.shiftLeft_add_eq_or_of_lt m.isLt, ← Nat.shiftLeft_add_eq_or_of_lt e.isLt]
  simp only [Nat.shiftLeft_eq]
  ring

theorem ofBitVec_toBitVec (s : Sign) : Sign.ofBitVec s.toBitVec = s := by
  cases s <;> rfl

theorem unpack_packComponents_fields (s : Sign) (e : BitVec 11) (m : BitVec 52) :
    unpackSign (packComponents .binary64 s e m) = s.toBitVec ∧ unpackExponent (packComponents .binary64 s e m) = e ∧
      unpackMantissa (packComponents .binary64 s e m) = m := by
  have bits := toNat_packComponents s e m
  have sign : s.toBitVec.toNat < 2 := s.toBitVec.isLt
  have expo := e.isLt
  have mant := m.isLt
  refine ⟨BitVec.eq_of_toNat_eq ?_, BitVec.eq_of_toNat_eq ?_, BitVec.eq_of_toNat_eq ?_⟩
  · rw [toNat_unpackSign, bits]; omega
  · rw [toNat_unpackExponent, bits]; omega
  · rw [toNat_unpackMantissa, bits]; omega

theorem unpack_pack_finite {s : Sign} {m : ℕ} {e : ℤ} {pos : 0 < m} (rep : Representable m e) (fits : e ≤ 971) :
    unpack .binary64 (pack .binary64 (.finite s m e pos)) = .finite s m e pos := by
  obtain ⟨small, least, normal⟩ := rep
  have biased : ((e + (Format.binary64.exponentBias : ℕ) + (Format.binary64.mantissaBitsWithoutImplicit : ℕ)).toNat) =
      (e + 1075).toNat := by
    simp [Format.exponentBias]
    omega
  simp only [UnpackedFloat.pack, biased]
  rw [if_neg (by change ¬ 2048 ≤ _; omega)]
  by_cases wide : 2 ^ 52 ≤ m
  · -- a normal double: the exponent field holds the biased exponent, the fraction the low bits
    have bits : m.log2 + 1 = Format.binary64.mantissaBits := by
      have : m.log2 = 52 := (Nat.log2_eq_iff pos.ne').mpr ⟨wide, small⟩
      rw [this]; rfl
    rw [if_pos bits]
    obtain ⟨sign, expo, mant⟩ := unpack_packComponents_fields s (BitVec.ofNat 11 (e + 1075).toNat) (BitVec.ofNat 52 m)
    have field : (BitVec.ofNat 11 (e + 1075).toNat).toNat = (e + 1075).toNat := by
      rw [BitVec.toNat_ofNat]; omega
    have notTop : BitVec.ofNat 11 (e + 1075).toNat ≠ -1#11 := by
      intro top
      have := congrArg BitVec.toNat top
      rw [field] at this
      simp at this
      omega
    have notBottom : BitVec.ofNat 11 (e + 1075).toNat ≠ 0#11 := by
      intro bottom
      have := congrArg BitVec.toNat bottom
      rw [field] at this
      simp at this
      omega
    simp only [UnpackedFloat.unpack, sign, expo, mant, notTop, notBottom, if_false, ofBitVec_toBitVec]
    congr 1
    · rw [toNat_one_append, BitVec.toNat_ofNat]; omega
    · rw [field]; simp [Format.exponentBias]; omega
  · -- a subnormal double: the exponent field is zero and the fraction is the mantissa
    have bottom : e = -1074 := normal.resolve_left wide
    have bits : ¬ m.log2 + 1 = Format.binary64.mantissaBits := by
      have : m.log2 < 52 := (Nat.log2_lt pos.ne').mpr (by omega)
      change ¬ _ = 53
      omega
    rw [if_neg bits]
    obtain ⟨sign, expo, mant⟩ := unpack_packComponents_fields s 0#11 (BitVec.ofNat 52 m)
    have field : (BitVec.ofNat 52 m).toNat = m := by rw [BitVec.toNat_ofNat]; omega
    have nonzero : BitVec.ofNat 52 m ≠ 0#52 := by
      intro zero
      have := congrArg BitVec.toNat zero
      rw [field] at this
      simp at this
      omega
    simp only [UnpackedFloat.unpack, sign, expo, mant, nonzero, ofBitVec_toBitVec]
    simp [field, bottom, Format.exponentBias]

@[simp] theorem unpack_pack_zero (s : Sign) : unpack .binary64 (pack .binary64 (.zero s)) = .zero s := by
  cases s <;> rfl

@[simp] theorem unpack_pack_infinity (s : Sign) : unpack .binary64 (pack .binary64 (.infinity s)) = .infinity s := by
  cases s <;> rfl

@[simp] theorem unpack_pack_notANumber : unpack .binary64 (pack .binary64 .notANumber) = .notANumber := rfl

theorem unpack_pack_overflow {s : Sign} {m : ℕ} {e : ℤ} {pos : 0 < m} (large : 971 < e) :
    unpack .binary64 (pack .binary64 (.finite s m e pos)) = .infinity s := by
  have biased : ((e + (Format.binary64.exponentBias : ℕ) + (Format.binary64.mantissaBitsWithoutImplicit : ℕ)).toNat) =
      (e + 1075).toNat := by
    simp [Format.exponentBias]
    omega
  simp only [UnpackedFloat.pack, biased]
  rw [if_pos (by change 2048 ≤ _; omega)]
  exact unpack_pack_infinity s

/-- A representable double is packed as it is, or as an infinity above the largest
exponent. -/
theorem unpack_pack_representable {s : Sign} {m : ℕ} {e : ℤ} {pos : 0 < m} (rep : Representable m e) :
    unpack .binary64 (pack .binary64 (.finite s m e pos)) = if e ≤ 971 then .finite s m e pos else .infinity s := by
  split
  · exact unpack_pack_finite rep ‹_›
  · exact unpack_pack_overflow (by omega)

/-- The finite doubles a double unpacks to are representable, below the largest exponent. -/
theorem representable_of_unpack {b : BitVec Format.binary64.numBits} {s : Sign} {m : ℕ} {e : ℤ} {pos : 0 < m}
    (unpacked : unpack .binary64 b = .finite s m e pos) : Representable m e ∧ e ≤ 971 := by
  have mant : (unpackMantissa b).toNat < 2 ^ 52 := (unpackMantissa b).isLt
  have expo : (unpackExponent b).toNat < 2 ^ 11 := (unpackExponent b).isLt
  simp only [UnpackedFloat.unpack] at unpacked
  split at unpacked
  · split at unpacked <;> cases unpacked
  · rename_i notTop
    have notTop : (unpackExponent b).toNat ≠ 2047 := fun h => notTop (BitVec.eq_of_toNat_eq h)
    split at unpacked
    · rename_i bottom
      have bottom : (unpackExponent b).toNat = 0 := by rw [bottom]; rfl
      split at unpacked
      · cases unpacked
      · cases unpacked
        refine ⟨⟨by omega, ?_, Or.inr ?_⟩, ?_⟩ <;> simp [bottom, Format.exponentBias]
    · rename_i inside
      have inside : (unpackExponent b).toNat ≠ 0 := fun h => inside (BitVec.eq_of_toNat_eq h)
      cases unpacked
      rw [toNat_one_append]
      refine ⟨⟨by omega, ?_, Or.inl (by omega)⟩, ?_⟩ <;> simp [Format.exponentBias] <;> omega

end Packing

end Decimal
end AgentMemory
