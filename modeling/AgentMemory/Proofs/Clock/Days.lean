import AgentMemory.Clock.Span
import AgentMemory.Proofs.Json.Records
import AgentMemory.Proofs.Decimal.Values

namespace AgentMemory
namespace Clock

open Decimal Json Float.Model UnpackedFloat

/-!
# Whole days of a span

Spans of days are taken in 64-bit nanoseconds: a count of days times 24, then times an hour,
each product wrapping (`daysSpan`).  While the span fits 64 bits it is counted exactly
(`daysSpan_of_fits`).

The other way round, a span is counted in whole days as the program counts them: its hours
as a double, whole hours plus the fraction of the last one (`spanHours`), a 24th of that,
truncated to a whole number (`truncate64`).  Every step rounds, but by less than `2 ^ -30`
hours in all (`spanHours_bounds`), so the count is the exact number of whole days unless the
span ends within a millisecond before a whole day (`truncate64_spanHours_div`).  Right before
a whole day the rounding can carry the count on to it.
-/

/-! ## Spans of days -/

theorem wrap64_of_fits {n : Int} (fits : Fits64 n) : wrap64 n = n := by
  obtain ⟨lo, hi⟩ := fits
  unfold wrap64
  dsimp only
  split <;> omega

/-- A span of days that fits 64 bits is counted exactly; so does its count of hours. -/
theorem daysSpan_of_fits {days : Int} (fits : Fits64 (days * 24 * hour)) :
    daysSpan days = days * 24 * hour := by
  have hours : Fits64 (days * 24) := by
    obtain ⟨lo, hi⟩ := fits
    simp only [hour, minute, second] at lo hi
    constructor <;> omega
  unfold daysSpan
  rw [wrap64_of_fits hours, wrap64_of_fits fits]

/-! ## Counting whole days -/

theorem hourDouble : (60 * 60 * 1e9 : Float) = Float.ofNat 3600000000000 := by decide +kernel

theorem twoPow63_bits :
    (9223372036854775808.0 : Float).toModel = Float.Model.pack (.finite .positive (2 ^ 52) 11 (by decide)) := by
  decide +kernel

theorem negTwoPow63_bits :
    (-9223372036854775808.0 : Float).toModel = Float.Model.pack (.finite .negative (2 ^ 52) 11 (by decide)) := by
  decide +kernel

theorem denotes_twoPow63 : Denotes (9223372036854775808.0 : Float).toModel.unpack (2 ^ 63) := by
  have rep : Representable (2 ^ 52) 11 := ⟨by norm_num, by norm_num, Or.inl le_rfl⟩
  refine Or.inr ⟨2 ^ 52, 11, by decide, ?_, rep, by norm_num, by norm_num⟩
  rw [twoPow63_bits]
  exact unpack_pack_finite rep (by norm_num)

theorem truncate64_of_denotes {x : Float} {v : ℚ} (denotes : Denotes x.toModel.unpack v) (lt : v < 2 ^ 63) :
    truncate64 x = ⌊v⌋₊ := by
  have notTop : ¬ x ≥ 9223372036854775808.0 := by
    rw [ge_iff_le, denotes_twoPow63.float_le_iff denotes, not_le]
    exact lt
  have notBottom : ¬ x < -9223372036854775808.0 := by
    have rep : Representable (2 ^ 52) 11 := ⟨by norm_num, by norm_num, Or.inl le_rfl⟩
    have bottom : (-9223372036854775808.0 : Float).toModel.unpack = .finite .negative (2 ^ 52) 11 (by decide) := by
      rw [negTwoPow63_bits]
      exact unpack_pack_finite rep (by norm_num)
    rw [float_lt_iff_unpack, lt_iff_rank_lt denotes.ne_notANumber (by rw [bottom]; simp), bottom, not_lt]
    rcases denotes with ⟨unpacked, -⟩ | ⟨m, e, pos, unpacked, -⟩ <;>
      simp [unpacked, rank, Prod.Lex.le_iff]
  unfold truncate64
  simp only [denotes.isNaN_eq_false, notTop, notBottom, denotes.not_lt_zero, decide_false, Bool.or_false,
    Bool.false_eq_true, if_false]
  rw [toUInt64_of_denotes denotes (lt.trans (by norm_num))]


/-- The hours of a span of `n` nanoseconds, `0 < n < 2 ^ 63`, as a double: at least the
whole hours and `2 ^ -42`, and less than `2 ^ -30` above the exact hours. -/
theorem spanHours_bounds {n : ℕ} (pos : 0 < n) (fits : n < 2 ^ 63) :
    ∃ w, Denotes (spanHours n).toModel.unpack w ∧ ((n / 3600000000000 : ℕ) : ℚ) ≤ w ∧ 2 ^ (-42 : ℤ) ≤ w ∧
      w < n / 3600000000000 + 2 ^ (-30 : ℤ) := by
  norm_num at fits
  set q := n / 3600000000000
  set r := n % 3600000000000
  have pieces : spanHours n = Float.ofNat q + Float.ofNat r / (60 * 60 * 1e9) := rfl
  have hq : Denotes (Float.ofNat q).toModel.unpack q := denotes_ofNat (by omega)
  have hr : Denotes (Float.ofNat r).toModel.unpack r := denotes_ofNat (by omega)
  have hh : Denotes (60 * 60 * 1e9 : Float).toModel.unpack 3600000000000 := by
    rw [hourDouble]
    exact_mod_cast denotes_ofNat (show 3600000000000 < 2 ^ 53 by norm_num)
  have hours : (2 : ℚ) ^ (-42 : ℤ) ≤ 1 / 3600000000000 := by norm_num
  have fraction : (r : ℚ) / 3600000000000 < 2 ^ (0 : ℤ) := by
    rw [zpow_zero, div_lt_one (by norm_num)]
    exact_mod_cast Nat.mod_lt n (by norm_num)
  have least₁ : (1 : ℚ) ≤ r → 2 ^ (-42 : ℤ) ≤ (r : ℚ) / 3600000000000 := fun one =>
    hours.trans (div_le_div_of_nonneg_right one (by norm_num))
  obtain ⟨w₁, t₁, d₁, f₁⟩ := hr.div hh (by norm_num) (by
      rcases Nat.eq_zero_or_pos r with zero | some
      · exact Or.inl (by simp [zero])
      · exact Or.inr ((zpow_le_zpow_right₀ (by norm_num) (by norm_num)).trans (least₁ (by exact_mod_cast some))))
    (lt_two_pow_thousand fraction (by norm_num))
  have above₁ : w₁ < r / 3600000000000 + 2 ^ ((0 : ℤ) - 53) := f₁.lt_add fraction (by norm_num)
  have small : (q : ℚ) + w₁ < 2 ^ (22 : ℤ) := by
    have : (q : ℚ) ≤ 2562047 := by exact_mod_cast (show q ≤ 2562047 by omega)
    have : (2 : ℚ) ^ ((0 : ℤ) - 53) ≤ 1 := by norm_num
    have : (r : ℚ) / 3600000000000 < 1 := by simpa using fraction
    norm_num
    linarith
  obtain ⟨w₂, t₂, d₂, f₂⟩ := hq.add d₁ (lt_two_pow_thousand small (by norm_num))
  have above₂ : w₂ < q + w₁ + 2 ^ ((22 : ℤ) - 53) := f₂.lt_add small (by norm_num)
  have whole : (q : ℚ) ≤ w₂ := f₂.nat_le (small.trans (by norm_num)) (by linarith [d₁.nonneg])
  have exact : (q : ℚ) + (r : ℚ) / 3600000000000 = (n : ℚ) / 3600000000000 := by
    exact_mod_cast div_add_mod_div n 3600000000000 (by norm_num)
  refine ⟨w₂, by rw [pieces, unpack_add, unpack_div]; exact d₂, whole, ?_, ?_⟩
  · -- a span of a nanosecond or more is at least `2 ^ -42` hours, and so are its roundings
    have least₂ : (2 : ℚ) ^ (-42 : ℤ) ≤ q + w₁ := by
      rcases Nat.eq_zero_or_pos q with none | some
      · have fractionOnly : (1 : ℚ) ≤ r := by exact_mod_cast (show 1 ≤ r by omega)
        have := f₁.two_zpow_le (by norm_num) (least₁ fractionOnly)
        rw [none, Nat.cast_zero, zero_add]
        exact this
      · have : (1 : ℚ) ≤ q := by exact_mod_cast some
        have : (2 : ℚ) ^ (-42 : ℤ) ≤ 1 := by norm_num
        linarith [d₁.nonneg]
    exact f₂.two_zpow_le (by norm_num) least₂
  · norm_num at above₁ above₂ ⊢
    linarith


/-- The whole days of a span, as the program counts them (its hours as a double, a 24th of
them, truncated), are its exact whole days, unless it ends within a millisecond before a
whole day. -/
theorem truncate64_spanHours_div {d : ℤ} (nonneg : 0 ≤ d) (fits : d < 2 ^ 63)
    (early : d % (24 * hour) + millisecond ≤ 24 * hour) :
    truncate64 (spanHours d / 24) = d / (24 * hour) := by
  obtain ⟨n, rfl⟩ := Int.eq_ofNat_of_zero_le nonneg
  have day : (24 * hour : ℤ) = ((86400000000000 : ℕ) : ℤ) := by decide
  rw [day] at early ⊢
  rw [← Int.natCast_ediv]
  rcases Nat.eq_zero_or_pos n with zero | pos
  · subst zero
    decide +kernel
  have fits : n < 2 ^ 63 := by exact_mod_cast fits
  have days : n / 86400000000000 ≤ 106751 := by
    norm_num at fits
    omega
  have early : n + 1000000 ≤ 86400000000000 * (n / 86400000000000 + 1) := by
    simp only [millisecond] at early
    omega
  set K := n / 86400000000000
  obtain ⟨w₂, d₂, whole₂, least₂, above₂⟩ := spanHours_bounds pos fits
  have h24 : Denotes (24 : Float).toModel.unpack 24 := by
    exact_mod_cast denotes_ofNat (show 24 < 2 ^ 53 by norm_num)
  have small : w₂ / 24 < 2 ^ (18 : ℤ) := by
    have : (n : ℚ) < 9223372036854775808 := by exact_mod_cast fits
    norm_num at above₂ ⊢
    linarith
  obtain ⟨w₃, t₃, d₃, f₃⟩ := d₂.div h24 (by norm_num)
    (Or.inr (by
      have tiny : (2 : ℚ) ^ (-1074 : ℤ) ≤ 2 ^ (-47 : ℤ) := zpow_le_zpow_right₀ (by norm_num) (by norm_num)
      have : (2 : ℚ) ^ (-47 : ℤ) * 24 ≤ 2 ^ (-42 : ℤ) := by norm_num
      rw [le_div_iff₀ (by norm_num)]
      linarith))
    (lt_two_pow_thousand small (by norm_num))
  have above₃ : w₃ < w₂ / 24 + 2 ^ ((18 : ℤ) - 53) := f₃.lt_add small (by norm_num)
  have whole₃ : (K : ℚ) ≤ w₃ := by
    refine f₃.nat_le (small.trans (by norm_num)) ?_
    have : ((24 * K : ℕ) : ℚ) ≤ ((n / 3600000000000 : ℕ) : ℚ) := by exact_mod_cast (show 24 * K ≤ n / 3600000000000 by omega)
    push_cast at this
    linarith
  -- the margin before the next day outweighs every rounding on the way
  have below : w₃ < K + 1 := by
    have : (n : ℚ) + 1000000 ≤ 86400000000000 * (K + 1) := by exact_mod_cast early
    norm_num at above₂ above₃ ⊢
    linarith
  have floor : ⌊w₃⌋₊ = K := (Nat.floor_eq_iff d₃.nonneg).mpr ⟨whole₃, below⟩
  have double : Denotes (spanHours n / 24).toModel.unpack w₃ := by
    rw [unpack_div]
    exact d₃
  have room : (K : ℚ) + 1 < 2 ^ 63 := by
    have : (K : ℚ) ≤ 106751 := by exact_mod_cast days
    norm_num
    linarith
  rw [truncate64_of_denotes double (below.trans room), floor]

end Clock
end AgentMemory
