import Mathlib
import AgentMemory.Proofs.Decimal.Bits

namespace AgentMemory
namespace Decimal

/-!
# Reading a decimal rounds it to nearest

A double `x` with mantissa `m` and exponent `q` stands for the reals that round to it:
those within half a unit of its last place of `m * 2^q`, a quarter below at the bottom
of a binade, with the midpoints themselves when `m` is even (`Binary.Rounds`).  Both
directions of the decimal conversion are about this interval: the writer's check
`readsBack` decides it (`readsBack_iff`), and the reader `nearest` returns `x` for every
decimal in it (`nearest_of_rounds`).

The reader works on the exact fraction of the decimal.  It guesses the binary exponent
from the lengths of numerator and denominator, which leaves a quotient between `2^51` and
`2^53`, and corrects the guess by one (`binaryExponent_spec`); the quotient then has 53
bits, and only one exponent gives that (`exponent_eq_of_scaled`).  For a decimal that
rounds to `x` this exponent is the exponent of `x`, or one lower under the bottom of a
binade (`binaryExponent_of_rounds`); rounding the quotient half to even gives the
mantissa of `x` (`roundHalfEven_eq`), or `2^53` that carries into the exponent of `x`.
All of it is exact arithmetic on rationals.
-/


/-- How far below a binary the reals that round to it reach, in units of its last place:
half a unit, or a quarter where the gap below is half the gap above. -/
def Binary.reachBelow (x : Binary) : ℚ := if x.narrowBelow then 1 / 4 else 1 / 2

/-- `v` rounds to `x`, to nearest with ties to even: it lies between the midpoints to the
neighbours of `x`, and on one of them only when the mantissa of `x` is even. -/
def Binary.Rounds (x : Binary) (v : ℚ) : Prop :=
  ((x.m - x.reachBelow) * 2 ^ x.q < v ∨ Even x.m ∧ v = (x.m - x.reachBelow) * 2 ^ x.q) ∧
    (v < (x.m + 1 / 2) * 2 ^ x.q ∨ Even x.m ∧ v = (x.m + 1 / 2) * 2 ^ x.q)

theorem compare_nat_cast (a b : ℕ) : compare (a : ℚ) b = compare a b := by
  rw [← cmp_eq_compare, ← cmp_eq_compare]
  exact Nat.strictMono_cast.cmp_map_eq a b

theorem compare_mul_pos {a b c : ℚ} (hc : 0 < c) : compare (a * c) (b * c) = compare a b := by
  rw [← cmp_eq_compare, ← cmp_eq_compare]
  exact (strictMono_mul_right_of_pos hc).cmp_map_eq a b

theorem cmpScaled_eq (a : ℕ) (i : ℤ) (n : ℕ) (j : ℤ) :
    cmpScaled a i n j = compare ((a : ℚ) * 10 ^ i) (n * 2 ^ j) := by
  have scale : (0 : ℚ) < 10 ^ (-i).toNat * 2 ^ (-j).toNat := by positivity
  have ten : (10 : ℚ) ^ i * 10 ^ (-i).toNat = 10 ^ i.toNat := by
    rw [← zpow_natCast, ← zpow_natCast, ← zpow_add₀ (by norm_num)]
    congr 1
    omega
  have two : (2 : ℚ) ^ j * 2 ^ (-j).toNat = 2 ^ j.toNat := by
    rw [← zpow_natCast, ← zpow_natCast, ← zpow_add₀ (by norm_num)]
    congr 1
    omega
  rw [← compare_mul_pos scale, cmpScaled, ← compare_nat_cast]
  congr 1
  · push_cast [Nat.pow_eq]
    rw [← ten]
    ring
  · push_cast [Nat.pow_eq]
    rw [← two]
    ring

theorem compare_gt_or_eq_iff (v w : ℚ) (incl : Bool) :
    (compare v w == .gt || incl && compare v w == .eq) = true ↔ w < v ∨ incl = true ∧ v = w := by
  rcases lt_trichotomy v w with h | h | h
  · simp [compare_lt_iff_lt.mpr h, h.le, h.ne]
  · simp [h]
  · simp [compare_gt_iff_gt.mpr h, h]

theorem compare_lt_or_eq_iff (v w : ℚ) (incl : Bool) :
    (compare v w == .lt || incl && compare v w == .eq) = true ↔ v < w ∨ incl = true ∧ v = w := by
  rcases lt_trichotomy v w with h | h | h
  · simp [compare_lt_iff_lt.mpr h, h]
  · simp [h]
  · simp [compare_gt_iff_gt.mpr h, h.le, h.ne']

/-- `readsBack` decides whether a decimal rounds to the binary. -/
theorem readsBack_iff (x : Binary) (pos : 0 < x.m) (digits : ℕ) (exp : ℤ) :
    x.readsBack digits exp = true ↔ x.Rounds (digits * 10 ^ exp) := by
  have lo : ((if x.narrowBelow then 4 * x.m - 1 else 4 * x.m - 2 : ℕ) : ℚ) * 2 ^ (x.q - 2) =
      (x.m - x.reachBelow) * 2 ^ x.q := by
    rw [zpow_sub₀ (by norm_num), Binary.reachBelow]
    split <;> (push_cast [Nat.cast_sub (by omega : 1 ≤ 4 * x.m), Nat.cast_sub (by omega : 2 ≤ 4 * x.m)]; ring)
  have hi : ((4 * x.m + 2 : ℕ) : ℚ) * 2 ^ (x.q - 2) = (x.m + 1 / 2) * 2 ^ x.q := by
    rw [zpow_sub₀ (by norm_num)]
    push_cast
    ring
  simp only [Binary.readsBack, Bool.and_eq_true, cmpScaled_eq, lo, hi, compare_gt_or_eq_iff, compare_lt_or_eq_iff,
    beq_iff_eq, ← Nat.even_iff, Binary.Rounds]

theorem fraction_value (m : ℕ) (e : ℤ) :
    0 < (fraction m e).2 ∧ ((fraction m e).1 : ℚ) / (fraction m e).2 = m * 10 ^ e := by
  unfold fraction
  split
  · rename_i nonneg
    refine ⟨Nat.one_pos, ?_⟩
    push_cast [Nat.pow_eq]
    rw [div_one, ← zpow_natCast, Int.toNat_of_nonneg nonneg]
  · rename_i neg
    refine ⟨Nat.pos_of_ne_zero (by simp [Nat.pow_eq]), ?_⟩
    push_cast [Nat.pow_eq]
    rw [← zpow_natCast, show ((e.natAbs : ℕ) : ℤ) = -e by omega, zpow_neg, div_eq_mul_inv, inv_inv]

theorem div_add_mod_div (a b : ℕ) (pos : 0 < b) : ((a / b : ℕ) : ℚ) + ((a % b : ℕ) : ℚ) / b = a / b := by
  have pos : (b : ℚ) ≠ 0 := by positivity
  field_simp
  exact_mod_cast Nat.div_add_mod' a b

theorem divideScaled_spec (num den : ℕ) (k : ℤ) (hd : 0 < den) :
    (divideScaled num den k).2.1 < (divideScaled num den k).2.2 ∧
      ((divideScaled num den k).1 : ℚ) + (divideScaled num den k).2.1 / (divideScaled num den k).2.2 =
        num / den / 2 ^ k := by
  unfold divideScaled
  split
  · rename_i nonneg
    have pos : 0 < den * Nat.pow 2 k.toNat := Nat.mul_pos hd (by simp [Nat.pow_eq])
    refine ⟨Nat.mod_lt _ pos, ?_⟩
    rw [div_add_mod_div _ _ pos]
    push_cast [Nat.pow_eq]
    rw [← zpow_natCast, Int.toNat_of_nonneg nonneg, div_div]
  · rename_i neg
    refine ⟨Nat.mod_lt _ hd, ?_⟩
    rw [div_add_mod_div _ _ hd]
    push_cast [Nat.pow_eq]
    rw [← zpow_natCast, show ((k.natAbs : ℕ) : ℤ) = -k by omega, zpow_neg]
    field_simp

theorem divideScaled_floor (num den : ℕ) (k : ℤ) (hd : 0 < den) :
    ((divideScaled num den k).1 : ℚ) ≤ num / den / 2 ^ k ∧
      (num / den / 2 ^ k : ℚ) < (divideScaled num den k).1 + 1 := by
  obtain ⟨below, parts⟩ := divideScaled_spec num den k hd
  have divisor : (0 : ℚ) < (divideScaled num den k).2.2 := by exact_mod_cast (Nat.zero_le _).trans_lt below
  have part : ((divideScaled num den k).2.1 : ℚ) / (divideScaled num den k).2.2 < 1 := by
    rw [div_lt_one divisor]
    exact_mod_cast below
  constructor <;> linarith [div_nonneg (Nat.cast_nonneg (α := ℚ) (divideScaled num den k).2.1) divisor.le]

section Exponent

variable {v : ℚ}

theorem scaled_anti (nonneg : 0 ≤ v) {j k : ℤ} (le : j ≤ k) : v / 2 ^ k ≤ v / 2 ^ j :=
  div_le_div_of_nonneg_left nonneg (by positivity) (zpow_le_zpow_right₀ (by norm_num) le)

theorem scaled_pred (k : ℤ) : v / 2 ^ (k - 1) = 2 * (v / 2 ^ k) := by
  rw [zpow_sub_one₀ (by norm_num)]
  field_simp

theorem scaled_succ (k : ℤ) : v / 2 ^ (k + 1) = v / 2 ^ k / 2 := by
  rw [zpow_add_one₀ (by norm_num), div_div]

theorem exponent_lt_of_scaled {κ j : ℤ} (hκ : 2 ^ 52 ≤ v / 2 ^ κ) (hj : v / 2 ^ j < 2 ^ 52) : κ < j := by
  have pos : 0 < v := by
    by_contra nonpos
    have : v / 2 ^ κ ≤ 0 := div_nonpos_of_nonpos_of_nonneg (not_lt.mp nonpos) (by positivity)
    linarith [show (0 : ℚ) < 2 ^ 52 by norm_num]
  by_contra not_below
  have := scaled_anti pos.le (not_lt.mp not_below)
  linarith

/-- At most one exponent gives a quotient of 53 bits: one step halves it. -/
theorem exponent_eq_of_scaled {κ j : ℤ} (hκ : 2 ^ 52 ≤ v / 2 ^ κ) (hκ' : v / 2 ^ κ < 2 ^ 53)
    (hj : 2 ^ 52 ≤ v / 2 ^ j) (hj' : v / 2 ^ j < 2 ^ 53) : κ = j := by
  have above_κ : v / 2 ^ (κ + 1) < 2 ^ 52 := by rw [scaled_succ]; linarith
  have above_j : v / 2 ^ (j + 1) < 2 ^ 52 := by rw [scaled_succ]; linarith
  have := exponent_lt_of_scaled hj above_κ
  have := exponent_lt_of_scaled hκ above_j
  omega

end Exponent

theorem two_pow_log2_bounds {n : ℕ} (pos : 0 < n) : (2 : ℚ) ^ (n.log2 : ℤ) ≤ n ∧ (n : ℚ) < 2 ^ ((n.log2 : ℤ) + 1) := by
  have low := Nat.log2_self_le (Nat.pos_iff_ne_zero.mp pos)
  have high := Nat.lt_log2_self (n := n)
  constructor
  · rw [zpow_natCast]; exact_mod_cast low
  · rw [← Nat.cast_one, ← Nat.cast_add, zpow_natCast]; exact_mod_cast high

/-- The first guess of `binaryExponent`, from the lengths of numerator and denominator, leaves
a quotient between `2^51` and `2^53`. -/
theorem guess_bounds {num den : ℕ} (hn : 0 < num) (hd : 0 < den) :
    let g : ℤ := (Nat.log2 num : ℤ) - (Nat.log2 den : ℤ) - 52
    2 ^ 51 < (num / den : ℚ) / 2 ^ g ∧ (num / den : ℚ) / 2 ^ g < 2 ^ 53 := by
  intro g
  obtain ⟨num_low, num_high⟩ := two_pow_log2_bounds hn
  obtain ⟨den_low, den_high⟩ := two_pow_log2_bounds hd
  have den_pos : (0 : ℚ) < den := by exact_mod_cast hd
  have unit : (0 : ℚ) < 2 ^ g := by positivity
  constructor
  · -- `num ≥ 2^a` and `den < 2^(b+1)`
    rw [lt_div_iff₀ unit, lt_div_iff₀ den_pos]
    calc (2 : ℚ) ^ 51 * 2 ^ g * den < 2 ^ 51 * 2 ^ g * 2 ^ ((Nat.log2 den : ℤ) + 1) := by gcongr
      _ = 2 ^ (Nat.log2 num : ℤ) := by
        rw [← zpow_natCast, ← zpow_add₀ (by norm_num), ← zpow_add₀ (by norm_num)]
        congr 1
        push_cast [g]
        ring
      _ ≤ num := num_low
  · -- `num < 2^(a+1)` and `den ≥ 2^b`
    rw [div_lt_iff₀ unit, div_lt_iff₀ den_pos]
    calc (num : ℚ) < 2 ^ ((Nat.log2 num : ℤ) + 1) := num_high
      _ = 2 ^ 53 * 2 ^ g * 2 ^ (Nat.log2 den : ℤ) := by
        rw [← zpow_natCast, ← zpow_add₀ (by norm_num), ← zpow_add₀ (by norm_num)]
        congr 1
        push_cast [g]
        ring
      _ ≤ 2 ^ 53 * 2 ^ g * den := by gcongr

/-- `binaryExponent` finds the exponent at which the quotient has 53 bits, raised to the
least exponent `-1074` where that is lower. -/
theorem binaryExponent_spec {num den : ℕ} (hn : 0 < num) (hd : 0 < den) :
    ∃ κ : ℤ, (2 ^ 52 ≤ (num / den : ℚ) / 2 ^ κ ∧ (num / den : ℚ) / 2 ^ κ < 2 ^ 53) ∧
      binaryExponent num den = max κ (-1074) := by
  obtain ⟨above, below⟩ := guess_bounds hn hd
  obtain ⟨floor_le, lt_floor⟩ := divideScaled_floor num den ((Nat.log2 num : ℤ) - (Nat.log2 den : ℤ) - 52) hd
  set g : ℤ := (Nat.log2 num : ℤ) - (Nat.log2 den : ℤ) - 52 with hg
  set Q := (divideScaled num den g).1 with hQ
  have wide : ¬ Q ≥ 2 ^ 53 := by
    have : (Q : ℚ) < 2 ^ 53 := floor_le.trans_lt below
    exact_mod_cast not_le.mpr this
  have clamp : ∀ k : ℤ, (if k < -1074 then -1074 else k) = max k (-1074) := by
    intro k
    split <;> omega
  simp only [binaryExponent, Nat.pow_eq, ← hg, ← hQ, if_neg wide]
  by_cases narrow : Q < 2 ^ 52
  · rw [if_pos narrow, clamp]
    refine ⟨g - 1, ⟨?_, ?_⟩, rfl⟩ <;> rw [scaled_pred]
    · linarith
    · have : (num / den : ℚ) / 2 ^ g < 2 ^ 52 := by
        have : (Q : ℚ) + 1 ≤ 2 ^ 52 := by exact_mod_cast narrow
        linarith
      linarith
  · rw [if_neg narrow, clamp]
    refine ⟨g, ⟨?_, below⟩, rfl⟩
    have : (2 : ℚ) ^ 52 ≤ Q := by exact_mod_cast not_lt.mp narrow
    linarith

/-- Rounding `Q + R / D` to nearest with ties to even, as `nearest` does, gives the natural
number within half a unit of it, the even one at a tie. -/
theorem roundHalfEven_eq {Q R D n : ℕ} (hR : R < D) (near : |(Q : ℚ) + R / D - n| ≤ 1 / 2)
    (tie : |(Q : ℚ) + R / D - n| = 1 / 2 → Even n) :
    (if 2 * R > D || (2 * R == D && Q % 2 == 1) then Q + 1 else Q) = n := by
  have hD : (0 : ℚ) < D := by exact_mod_cast (Nat.zero_le R).trans_lt hR
  have part : (R : ℚ) / D < 1 := by
    rw [div_lt_one hD]
    exact_mod_cast hR
  have part_nonneg : (0 : ℚ) ≤ R / D := div_nonneg (Nat.cast_nonneg R) hD.le
  have at_half : 2 * R = D → (R : ℚ) / D = 1 / 2 := by
    intro at_tie
    rw [div_eq_iff hD.ne', ← at_tie]
    push_cast
    ring
  obtain ⟨lo, hi⟩ := abs_le.mp near
  have candidates : n = Q ∨ n = Q + 1 := by
    have : n < Q + 2 := by exact_mod_cast (by linarith : (n : ℚ) < Q + 2)
    have : Q < n + 1 := by exact_mod_cast (by linarith : (Q : ℚ) < n + 1)
    omega
  rcases candidates with rfl | rfl
  · have half : 2 * R ≤ D := by
      have : (R : ℚ) / D ≤ 1 / 2 := by linarith
      rw [div_le_iff₀ hD] at this
      exact_mod_cast (by linarith : (2 * R : ℚ) ≤ D)
    rw [if_neg]
    simp only [Bool.or_eq_true, decide_eq_true_eq, Bool.and_eq_true, beq_iff_eq, not_or, not_and]
    refine ⟨by omega, fun at_tie => ?_⟩
    have even := tie (by rw [add_sub_cancel_left, at_half at_tie]; norm_num)
    have := Nat.even_iff.mp even
    omega
  · have half : D ≤ 2 * R := by
      have : 1 / 2 ≤ (R : ℚ) / D := by push_cast at lo; linarith
      rw [le_div_iff₀ hD] at this
      exact_mod_cast (by linarith : (D : ℚ) ≤ 2 * R)
    rw [if_pos]
    simp only [Bool.or_eq_true, decide_eq_true_eq, Bool.and_eq_true, beq_iff_eq]
    rcases half.lt_or_eq with beyond | at_tie
    · exact Or.inl beyond
    · have even := tie (by
        rw [at_half at_tie.symm]
        push_cast
        norm_num)
      have := Nat.even_iff.mp even
      exact Or.inr ⟨at_tie.symm, by omega⟩

namespace Binary.Rounds

variable {x : Binary} {v : ℚ}

theorem reachBelow_le_half (x : Binary) : x.reachBelow ≤ 1 / 2 := by
  unfold Binary.reachBelow
  split <;> norm_num

theorem scaled (rounds : x.Rounds v) :
    (x.m - x.reachBelow < v / 2 ^ x.q ∨ Even x.m ∧ v / 2 ^ x.q = x.m - x.reachBelow) ∧
      (v / 2 ^ x.q < x.m + 1 / 2 ∨ Even x.m ∧ v / 2 ^ x.q = x.m + 1 / 2) := by
  have unit : (0 : ℚ) < 2 ^ x.q := by positivity
  obtain ⟨lower, upper⟩ := rounds
  refine ⟨?_, ?_⟩
  · rcases lower with below | ⟨even, rfl⟩
    · exact Or.inl ((lt_div_iff₀ unit).mpr below)
    · exact Or.inr ⟨even, mul_div_cancel_right₀ _ unit.ne'⟩
  · rcases upper with above | ⟨even, rfl⟩
    · exact Or.inl ((div_lt_iff₀ unit).mpr above)
    · exact Or.inr ⟨even, mul_div_cancel_right₀ _ unit.ne'⟩

/-- A value that rounds to `x` lies within half a unit of its mantissa, at the scale of its
last place, and exactly half a unit away only for an even mantissa. -/
theorem near (rounds : x.Rounds v) :
    |v / 2 ^ x.q - x.m| ≤ 1 / 2 ∧ (|v / 2 ^ x.q - x.m| = 1 / 2 → Even x.m) := by
  have reach := reachBelow_le_half x
  obtain ⟨lower, upper⟩ := rounds.scaled
  have low : (x.m : ℚ) - 1 / 2 ≤ v / 2 ^ x.q := by rcases lower with h | ⟨_, h⟩ <;> linarith
  have high : v / 2 ^ x.q ≤ x.m + 1 / 2 := by rcases upper with h | ⟨_, h⟩ <;> linarith
  refine ⟨abs_le.mpr ⟨by linarith, by linarith⟩, fun tie => ?_⟩
  rcases abs_eq (by norm_num : (0 : ℚ) ≤ 1 / 2) |>.mp tie with top | bottom
  · rcases upper with h | ⟨even, _⟩
    · linarith
    · exact even
  · rcases lower with h | ⟨even, _⟩
    · linarith
    · exact even

/-- What rounds to a double lies between half the least positive double and the largest
power of two no double reaches. -/
theorem bounds (canon : x.Canonical) (rounds : x.Rounds v) : 2 ^ (-1075 : ℤ) ≤ v ∧ v < 2 ^ (1024 : ℤ) := by
  have reach := reachBelow_le_half x
  have unit : (0 : ℚ) < 2 ^ x.q := by positivity
  have one : (1 : ℚ) ≤ x.m := by exact_mod_cast canon.pos
  obtain ⟨lower, upper⟩ := rounds
  constructor
  · calc (2 : ℚ) ^ (-1075 : ℤ) = 1 / 2 * 2 ^ (-1074 : ℤ) := by
          rw [show (-1075 : ℤ) = -1074 - 1 by norm_num, zpow_sub_one₀ (by norm_num)]
          ring
      _ ≤ (x.m - x.reachBelow) * 2 ^ x.q :=
          mul_le_mul (by linarith) (zpow_le_zpow_right₀ (by norm_num) canon.least) (by positivity)
            (by linarith)
      _ ≤ v := by rcases lower with h | ⟨_, h⟩ <;> linarith
  · calc v ≤ (x.m + 1 / 2) * 2 ^ x.q := by rcases upper with h | ⟨_, h⟩ <;> linarith
      _ < 2 ^ 53 * 2 ^ x.q := by
          have : (x.m : ℚ) + 1 / 2 < 2 ^ 53 := by linarith [show (x.m : ℚ) + 1 ≤ 2 ^ 53 by exact_mod_cast canon.lt]
          gcongr
      _ ≤ (2 : ℚ) ^ 53 * 2 ^ (971 : ℤ) := by
          gcongr
          · norm_num
          · exact canon.most
      _ = 2 ^ (1024 : ℤ) := by
          rw [← zpow_natCast, ← zpow_add₀ (by norm_num)]
          norm_num

end Binary.Rounds

/-- A decimal `M * 10^E` from half the least positive double up to `2^1024` passes the quick
exits of `nearest`: its exponent is at most 400, and below `-400` by no more than the length
of `M` in bits. -/
theorem exponent_bounds {M : ℕ} {E : ℤ} (pos : 0 < M) (low : 2 ^ (-1075 : ℤ) ≤ (M * 10 ^ E : ℚ))
    (high : (M * 10 ^ E : ℚ) < 2 ^ (1024 : ℤ)) : E ≤ 400 ∧ -400 - (Nat.log2 M : ℤ) ≤ E := by
  have one : (1 : ℚ) ≤ M := by exact_mod_cast pos
  constructor
  · by_contra big
    have huge : (10 : ℚ) ^ (401 : ℤ) ≤ M * 10 ^ E :=
      calc (10 : ℚ) ^ (401 : ℤ) ≤ 10 ^ E := zpow_le_zpow_right₀ (by norm_num) (by omega)
        _ ≤ M * 10 ^ E := le_mul_of_one_le_left (by positivity) one
    have : (2 : ℚ) ^ (1024 : ℤ) < 10 ^ (401 : ℤ) := by
      rw [show (1024 : ℤ) = (1024 : ℕ) from rfl, show (401 : ℤ) = (401 : ℕ) from rfl, zpow_natCast, zpow_natCast]
      exact_mod_cast (by decide +kernel : (2 : ℕ) ^ 1024 < 10 ^ 401)
    exact absurd (huge.trans_lt (high.trans this)) (lt_irrefl _)
  · by_contra tiny
    -- `M` has `log2 M + 1` bits, and each decimal place below `-400` outweighs one bit
    set L := Nat.log2 M
    have bits : (M : ℚ) < 2 ^ (L + 1) := by exact_mod_cast Nat.lt_log2_self
    have scale : (10 : ℚ) ^ E ≤ 10 ^ (-401 - (L : ℤ)) := zpow_le_zpow_right₀ (by norm_num) (by omega)
    have ratio : (2 : ℚ) ^ L / 10 ^ L ≤ 1 := by
      rw [div_le_one (by positivity)]
      exact pow_le_pow_left₀ (by norm_num) (by norm_num) L
    have small : (M : ℚ) * 10 ^ E < 2 ^ (-1075 : ℤ) :=
      calc (M : ℚ) * 10 ^ E < 2 ^ (L + 1) * 10 ^ (-401 - (L : ℤ)) :=
            mul_lt_mul_of_lt_of_le_of_nonneg_of_pos bits scale (by positivity) (by positivity)
        _ = 2 * (2 ^ L / 10 ^ L) / 10 ^ 401 := by
            rw [show (-401 - (L : ℤ)) = -((401 + L : ℕ) : ℤ) by push_cast; ring, zpow_neg, zpow_natCast,
              pow_add (10 : ℚ) 401 L, pow_succ]
            field_simp
        _ ≤ 2 / 10 ^ 401 := by gcongr; linarith
        _ < 2 ^ (-1075 : ℤ) := by
            rw [zpow_neg, show (1075 : ℤ) = (1075 : ℕ) from rfl, zpow_natCast, div_lt_iff₀ (by positivity),
              inv_mul_eq_div, lt_div_iff₀ (by positivity)]
            exact_mod_cast (by decide +kernel : 2 * 2 ^ 1075 < (10 : ℕ) ^ 401)
    exact absurd (low.trans_lt small) (lt_irrefl _)

theorem least_le_binaryExponent (num den : ℕ) : -1074 ≤ binaryExponent num den := by
  simp only [binaryExponent]
  split <;> omega

/-- The exponent `nearest` works at, for a fraction that rounds to `x`: the exponent of `x`,
or one less where the fraction lies below the bottom of the binade of `x`. -/
theorem binaryExponent_of_rounds {x : Binary} (canon : x.Canonical) {num den : ℕ} (hn : 0 < num)
    (hd : 0 < den) (rounds : x.Rounds (num / den)) :
    binaryExponent num den = x.q ∨
      binaryExponent num den = x.q - 1 ∧ x.m = 2 ^ 52 ∧ (num / den : ℚ) / 2 ^ x.q < 2 ^ 52 := by
  obtain ⟨κ, ⟨low, high⟩, chosen⟩ := binaryExponent_spec hn hd
  obtain ⟨near, -⟩ := rounds.near
  obtain ⟨below, above⟩ := abs_le.mp near
  have top : (x.m : ℚ) + 1 ≤ 2 ^ 53 := by exact_mod_cast canon.lt
  by_cases wide : 2 ^ 52 ≤ (num / den : ℚ) / 2 ^ x.q
  · -- the quotient at the exponent of `x` has 53 bits
    left
    rw [chosen, exponent_eq_of_scaled low high wide (by linarith)]
    exact max_eq_left canon.least
  · by_cases least : x.q = -1074
    · left
      have := exponent_lt_of_scaled low (not_le.mp wide)
      rw [chosen, least]
      exact max_eq_right (by omega)
    · -- above the least exponent `x` is normal: the quotient falls short of 53 bits only
      right
      have normal : 2 ^ 52 ≤ x.m := canon.normal.resolve_right least
      have bottom : x.m = 2 ^ 52 := by
        by_contra beyond
        have : (2 : ℚ) ^ 52 + 1 ≤ x.m := by exact_mod_cast (by omega : 2 ^ 52 + 1 ≤ x.m)
        linarith
      have doubled := scaled_pred (v := (num / den : ℚ)) x.q
      have lower : (2 : ℚ) ^ 52 ≤ x.m := by exact_mod_cast normal
      rw [chosen, exponent_eq_of_scaled low high (j := x.q - 1) (by rw [doubled]; linarith)
        (by rw [doubled]; linarith)]
      exact ⟨max_eq_left (by have := canon.least; omega), bottom, not_le.mp wide⟩

/-- Reading `M * 10^E` gives the double of `x` whenever the decimal rounds to `x`. -/
theorem nearest_of_rounds {x : Binary} (canon : x.Canonical) {M : ℕ} {E : ℤ} (pos : 0 < M)
    (rounds : x.Rounds (M * 10 ^ E)) : nearest M E = Float.ofBits (packBits x.m x.q) := by
  obtain ⟨low, high⟩ := rounds.bounds canon
  obtain ⟨not_huge, not_tiny⟩ := exponent_bounds pos low high
  obtain ⟨den_pos, exact⟩ := fraction_value M E
  rcases frac : fraction M E with ⟨num, den⟩
  rw [frac] at den_pos exact
  dsimp only at den_pos exact
  have num_pos : 0 < num := by
    have : (0 : ℚ) < num / den := by rw [exact]; positivity
    exact_mod_cast (div_pos_iff_of_pos_right (by exact_mod_cast den_pos)).mp this
  rw [← exact] at rounds
  unfold nearest
  rw [if_neg (by simpa using pos.ne'), if_neg (by omega), if_neg (by omega)]
  simp only [frac]
  rcases binaryExponent_of_rounds canon num_pos den_pos rounds with at_q | ⟨below_q, bottom, under⟩
  · obtain ⟨near, tie⟩ := rounds.near
    obtain ⟨hR, parts⟩ := divideScaled_spec num den x.q den_pos
    have rounded := roundHalfEven_eq hR (by rw [parts]; exact near) (by rw [parts]; exact tie)
    rw [at_q]
    rcases div : divideScaled num den x.q with ⟨Q, R, D⟩
    rw [div] at rounded
    dsimp only at rounded
    -- no carry, as the mantissa of `x` is below `2^53`, and no overflow, as its exponent is
    -- at most 971
    have no_carry : (x.m == Nat.pow 2 53) = false := by
      simpa [Nat.pow_eq] using canon.lt.ne
    simp only [rounded, no_carry, Bool.false_eq_true, if_false]
    rw [if_neg (by have := canon.most; omega)]
  · -- under the bottom of the binade the quotient one exponent lower rounds up to `2^53`,
    have above_least : -1074 < x.q := by
      have := least_le_binaryExponent num den
      omega
    have narrow : x.narrowBelow = true := canon.narrow.mpr ⟨bottom, above_least⟩
    obtain ⟨lower, -⟩ := rounds.scaled
    have reach : x.reachBelow = 1 / 4 := by simp [Binary.reachBelow, narrow]
    have doubled := scaled_pred (v := (num / den : ℚ)) x.q
    have start : (2 : ℚ) ^ 52 - 1 / 4 ≤ (num / den : ℚ) / 2 ^ x.q := by
      rw [reach, bottom] at lower
      push_cast at lower
      rcases lower with h | ⟨_, h⟩ <;> linarith
    obtain ⟨hR, parts⟩ := divideScaled_spec num den (x.q - 1) den_pos
    have near : |((divideScaled num den (x.q - 1)).1 : ℚ) + (divideScaled num den (x.q - 1)).2.1 /
        (divideScaled num den (x.q - 1)).2.2 - ((2 ^ 53 : ℕ) : ℚ)| ≤ 1 / 2 := by
      rw [parts, doubled, abs_le]
      push_cast
      constructor <;> linarith
    have rounded := roundHalfEven_eq hR near (fun _ => by decide)
    rw [below_q]
    rcases div : divideScaled num den (x.q - 1) with ⟨Q, R, D⟩
    rw [div] at rounded
    dsimp only at rounded
    have carry : (2 ^ 53 == Nat.pow 2 53) = true := by simp [Nat.pow_eq]
    simp only [rounded, carry, if_true]
    rw [if_neg (by have := canon.most; omega)]
    simp [bottom, Nat.pow_eq]

/-- The bits `packBits` writes of a mantissa below `2^53` at an exponent in range have an
exponent field below its top. -/
theorem packBits_lt {q : ℕ} {k : ℤ} (small : q < 2 ^ 53) (least : -1074 ≤ k) (most : k ≤ 971) :
    (packBits q k).toNat < 2047 * 2 ^ 52 := by
  unfold packBits
  simp only [Nat.pow_eq]
  split
  · rw [UInt64.toNat_ofNat']
    omega
  · rw [UInt64.toNat_ofNat']
    have : (k + 1075).toNat ≤ 2046 := by omega
    have : (k + 1075).toNat * 2 ^ 52 ≤ 2046 * 2 ^ 52 := Nat.mul_le_mul_right _ this
    omega

/-- `nearest` gives zero, the overflow value, or the double of bits whose exponent field is
below its top. -/
theorem nearest_cases (M : ℕ) (E : ℤ) :
    nearest M E = 0 ∨ nearest M E = Float.ofScientific 1 false 400 ∨
      ∃ c : UInt64, c.toNat < 2047 * 2 ^ 52 ∧ nearest M E = Float.ofBits c := by
  unfold nearest
  split
  · exact Or.inl rfl
  split
  · exact Or.inr (Or.inl rfl)
  split
  · exact Or.inl rfl
  rename_i nonzero _ _
  obtain ⟨den_pos, exact⟩ := fraction_value M E
  rcases frac : fraction M E with ⟨num, den⟩
  rw [frac] at den_pos exact
  dsimp only at den_pos exact
  have num_pos : 0 < num := by
    have : (0 : ℚ) < num / den := by
      rw [exact]
      have : 0 < M := Nat.pos_of_ne_zero (by simpa using nonzero)
      positivity
    exact_mod_cast (div_pos_iff_of_pos_right (by exact_mod_cast den_pos)).mp this
  obtain ⟨κ, ⟨-, high⟩, chosen⟩ := binaryExponent_spec num_pos den_pos
  obtain ⟨floor_le, -⟩ := divideScaled_floor num den (binaryExponent num den) den_pos
  have nonneg : (0 : ℚ) ≤ num / den := by positivity
  have small : (divideScaled num den (binaryExponent num den)).1 < 2 ^ 53 := by
    have := scaled_anti nonneg (show κ ≤ binaryExponent num den by rw [chosen]; exact le_max_left _ _)
    exact_mod_cast floor_le.trans_lt (this.trans_lt high)
  have least := least_le_binaryExponent num den
  rcases div : divideScaled num den (binaryExponent num den) with ⟨Q, R, D⟩
  rw [div] at small
  simp only [div]
  -- rounding adds at most one, and `2^53` carries into the exponent
  have rounded : (if 2 * R > D || (2 * R == D && Q % 2 == 1) then Q + 1 else Q) ≤ 2 ^ 53 := by
    split <;> omega
  generalize (if 2 * R > D || (2 * R == D && Q % 2 == 1) then Q + 1 else Q) = q at rounded
  by_cases carry : q = 2 ^ 53
  · have carried : (q == Nat.pow 2 53) = true := by simp [carry, Nat.pow_eq]
    simp only [carried, if_true]
    split
    · exact Or.inr (Or.inl rfl)
    · rename_i fits
      exact Or.inr (Or.inr ⟨_, packBits_lt (by simp [Nat.pow_eq]) (by omega) (by omega), rfl⟩)
  · have kept : (q == Nat.pow 2 53) = false := by simpa [Nat.pow_eq] using carry
    simp only [kept, Bool.false_eq_true, if_false]
    split
    · exact Or.inr (Or.inl rfl)
    · rename_i fits
      exact Or.inr (Or.inr ⟨_, packBits_lt (by omega) least (by omega), rfl⟩)

end Decimal
end AgentMemory
