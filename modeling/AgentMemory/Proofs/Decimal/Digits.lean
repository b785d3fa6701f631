import Mathlib
import AgentMemory.Proofs.Decimal.Rounding

namespace AgentMemory
namespace Decimal

/-!
# The shortest digits round to their double

The writer prints a double other than zero with the digits `Binary.shortest` finds: the
fewest digits that land among the reals rounding to it.  What the reader needs of them is
only that they do land there: every candidate the search returns passed `readsBack`, which
decides the rounding interval (`readsBack_iff`), and the last resort past seventeen digits is
the exact value of the double, which lies in the middle of it (`shortest_rounds`).  The
digits are spelled as decimal digits, and `Digits.ofScaled` keeps the value of the decimal
it spells while moving trailing zeros into the exponent (`ofScaled_value`).
-/

/-- The value of a decimal in the `Digits` layout: the number its digits spell, scaled so
that the point stands where `point` puts it. -/
def Digits.value (d : Digits) : ℚ :=
  (Nat.ofDigitChars 10 (digitChars d.digits) 0 : ℕ) * 10 ^ (d.point - d.digits.length)

/-- A decimal spelled with at least one digit, each below ten. -/
structure Digits.Spelled (d : Digits) : Prop where
  nonempty : d.digits ≠ []
  small : ∀ n ∈ d.digits, n < 10

theorem stripZeros_go_value (fuel c : ℕ) (e : ℤ) :
    ((stripZeros.go fuel c e).1 : ℚ) * 10 ^ (stripZeros.go fuel c e).2 = c * 10 ^ e := by
  induction fuel generalizing c e with
  | zero => rfl
  | succ fuel ih =>
    simp only [stripZeros.go]
    split
    · rename_i zero
      simp only [Bool.and_eq_true, bne_iff_ne, ne_eq, beq_iff_eq] at zero
      rw [ih, zpow_add_one₀ (by norm_num)]
      have : ((c / 10 : ℕ) : ℚ) * 10 = c := by
        exact_mod_cast Nat.div_mul_cancel (Nat.dvd_of_mod_eq_zero zero.2)
      rw [← this]
      ring
    · rfl

theorem stripZeros_value (c : ℕ) (e : ℤ) :
    ((stripZeros c e).1 : ℚ) * 10 ^ (stripZeros c e).2 = c * 10 ^ e :=
  stripZeros_go_value 20 c e

theorem digitChars_toDigits (n : ℕ) :
    digitChars ((Nat.toDigits 10 n).map (fun ch => ch.toNat - '0'.toNat)) = Nat.toDigits 10 n := by
  rw [digitChars, List.map_map]
  conv_rhs => rw [← List.map_id (Nat.toDigits 10 n)]
  apply List.map_congr_left
  intro ch mem
  have digit := Nat.isDigit_of_mem_toDigits (by decide) (by decide) mem
  simp only [Char.isDigit, Bool.and_eq_true, decide_eq_true_eq] at digit
  have above : '0'.toNat ≤ ch.toNat := digit.1
  show Char.ofNat ('0'.toNat + (ch.toNat - '0'.toNat)) = ch
  rw [Nat.add_sub_cancel' above, Char.ofNat_toNat]

/-- `Digits.ofScaled c e` spells `c * 10^e`. -/
theorem ofScaled_value (c : ℕ) (e : ℤ) : (Digits.ofScaled c e).value = c * 10 ^ e := by
  rw [← stripZeros_value]
  rcases strip : stripZeros c e with ⟨c', e'⟩
  simp only [Digits.ofScaled, strip, Digits.value, digitChars_toDigits, Nat.ofDigitChars_ten_toDigits,
    List.length_map, add_sub_cancel_right]

theorem ofScaled_spelled (c : ℕ) (e : ℤ) : (Digits.ofScaled c e).Spelled := by
  rcases strip : stripZeros c e with ⟨c', e'⟩
  simp only [Digits.ofScaled, strip]
  constructor
  · simp [Nat.toDigits_ne_nil]
  · intro n mem
    obtain ⟨ch, listed, rfl⟩ := List.mem_map.mp mem
    have digit := Nat.isDigit_of_mem_toDigits (by decide) (by decide) listed
    simp only [Char.isDigit, Bool.and_eq_true, decide_eq_true_eq] at digit
    have below : ch.toNat ≤ '9'.toNat := digit.2
    have nine : '9'.toNat = 57 := rfl
    have zero : '0'.toNat = 48 := rfl
    omega

theorem rounds_self (x : Binary) : x.Rounds (x.m * 2 ^ x.q) := by
  have unit : (0 : ℚ) < 2 ^ x.q := by positivity
  have reach : 0 < x.reachBelow := by
    unfold Binary.reachBelow
    split <;> norm_num
  constructor
  · left
    nlinarith
  · left
    nlinarith

theorem exact_value (x : Binary) :
    ((x.m * Nat.pow 2 x.q.toNat * Nat.pow 5 (-x.q).toNat : ℕ) : ℚ) * 10 ^ (if x.q < 0 then x.q else 0) =
      x.m * 2 ^ x.q := by
  push_cast [Nat.pow_eq]
  split
  · rename_i neg
    have twos : x.q.toNat = 0 := by omega
    have fives : (((-x.q).toNat : ℕ) : ℤ) = -x.q := by omega
    rw [twos, pow_zero, mul_one, ← zpow_natCast (5 : ℚ), fives, show (10 : ℚ) = 2 * 5 by norm_num, mul_zpow,
      zpow_neg]
    field_simp
  · rename_i nonneg
    have twos : ((x.q.toNat : ℕ) : ℤ) = x.q := by omega
    have fives : (-x.q).toNat = 0 := by omega
    rw [fives, pow_zero, mul_one, zpow_zero, mul_one, ← zpow_natCast (2 : ℚ), twos]

/-- Every decimal the search of `shortest` returns is spelled with digits and rounds to the
binary: each candidate it returns passed `readsBack`, and the last resort is the exact value. -/
theorem search_rounds (x : Binary) (pos : 0 < x.m) (k : ℤ) (n fuel : ℕ) :
    (Binary.shortest.search x k n fuel).Spelled ∧ x.Rounds (Binary.shortest.search x k n fuel).value := by
  have found : ∀ c e, x.readsBack c e = true →
      (Digits.ofScaled c e).Spelled ∧ x.Rounds (Digits.ofScaled c e).value := fun c e ok =>
    ⟨ofScaled_spelled c e, by rw [ofScaled_value]; exact (readsBack_iff x pos c e).mp ok⟩
  induction fuel generalizing n with
  | zero =>
    simp only [Binary.shortest.search]
    exact ⟨ofScaled_spelled _ _, by rw [ofScaled_value, exact_value]; exact rounds_self x⟩
  | succ fuel ih =>
    simp only [Binary.shortest.search]
    split
    · rename_i both
      simp only [Bool.and_eq_true] at both
      obtain ⟨⟨-, lo_ok⟩, hi_ok⟩ := both
      split
      · exact found _ _ hi_ok
      · exact found _ _ lo_ok
      · split
        · exact found _ _ lo_ok
        · exact found _ _ hi_ok
    · split
      · rename_i lo_ok
        simp only [Bool.and_eq_true] at lo_ok
        exact found _ _ lo_ok.2
      · split
        · rename_i hi_ok
          exact found _ _ hi_ok
        · exact ih (n + 1)

/-- The shortest digits of a binary other than zero are spelled with digits and round to it. -/
theorem shortest_rounds (x : Binary) (pos : 0 < x.m) : x.shortest.Spelled ∧ x.Rounds x.shortest.value :=
  search_rounds x pos x.scale 1 17

end Decimal
end AgentMemory
