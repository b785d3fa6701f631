import AgentMemory.Proofs.Decimal.Arithmetic
import AgentMemory.Proofs.Decimal.Rounding

namespace AgentMemory
namespace Decimal

open Float.Model UnpackedFloat

/-!
# The values doubles compute

The positive zero and the positive finite doubles stand for rationals (`Denotes`).  On
them the arithmetic of the logical model of `Float` computes the exact result and rounds
it once, faithfully on the grid of doubles around it: a product (`Denotes.mul`), a
quotient by a positive double (`Denotes.div`) and a sum (`Denotes.add`) each denote a
faithful rounding of the exact value.  A natural number of at most 53 bits is converted
exactly (`denotes_ofNat`), and conversion to a 64-bit word truncates the value
(`toUInt64_of_denotes`).

A faithful rounding never crosses a point of its grid (`Faithful.ge_of_grid`,
`Faithful.le_of_grid`).  Below `2 ^ 53` the grid is no coarser than the integers, so a
whole number at most a value stays at most its rounding (`Faithful.nat_le`).  Rounding
moves a value below `2 ^ k` up by less than `2 ^ (k - 53)` (`Faithful.lt_add`), and on
doubles that denote values the order of doubles is the order of the values
(`Denotes.float_le_iff`).
-/

/-! ## Rounding on a grid -/

section Grid

variable {t : ℤ} {v w : ℚ}

/-- A faithful rounding is at least every grid point at most the value. -/
theorem Faithful.ge_of_grid (faithful : Faithful t v w) {N : ℕ} (le : (N : ℚ) * 2 ^ t ≤ v) :
    (N : ℚ) * 2 ^ t ≤ w := by
  obtain ⟨⟨F, -, above, rounded, -⟩, -⟩ := faithful
  have step := two_zpow_pos t
  have lt : (N : ℚ) < F + 1 := lt_of_mul_lt_mul_right (le.trans_lt above) step.le
  have floor : (N : ℚ) ≤ F := by exact_mod_cast Nat.lt_succ_iff.mp (by exact_mod_cast lt)
  rcases rounded with down | up
  · rw [down]
    exact mul_le_mul_of_nonneg_right floor step.le
  · rw [up]
    exact mul_le_mul_of_nonneg_right (by linarith) step.le

/-- A faithful rounding is at most every grid point at least the value. -/
theorem Faithful.le_of_grid (faithful : Faithful t v w) {N : ℕ} (le : v ≤ (N : ℚ) * 2 ^ t) :
    w ≤ (N : ℚ) * 2 ^ t := by
  obtain ⟨⟨F, below, -, rounded, onGrid⟩, -⟩ := faithful
  have step := two_zpow_pos t
  have floor : (F : ℚ) ≤ N := le_of_mul_le_mul_right (below.trans le) step
  rcases rounded with down | up
  · rw [down]
    exact mul_le_mul_of_nonneg_right floor step.le
  · by_cases exact : v = F * 2 ^ t
    · rw [onGrid exact]
      exact le
    · -- off the grid the value is above the lower point, so the upper one is no greater
      have lt : (F : ℚ) < N := lt_of_mul_lt_mul_right ((lt_of_le_of_ne below (Ne.symm exact)).trans_le le) step.le
      have next : (F : ℚ) + 1 ≤ N := by exact_mod_cast (by exact_mod_cast lt : F < N)
      rw [up]
      exact mul_le_mul_of_nonneg_right next step.le

theorem Faithful.eq_of_grid (faithful : Faithful t v w) {N : ℕ} (onGrid : v = (N : ℚ) * 2 ^ t) : w = v := by
  rw [onGrid]
  exact le_antisymm (faithful.le_of_grid onGrid.le) (faithful.ge_of_grid onGrid.ge)

theorem Faithful.exponent_le (faithful : Faithful t v w) {k : ℤ} (lt : v < 2 ^ k) : t = -1074 ∨ t ≤ k - 53 := by
  rcases faithful.normal with bottom | wide
  · exact Or.inl bottom
  · have : (2 : ℚ) ^ (t + 52) < 2 ^ k := wide.trans_lt lt
    have := (zpow_lt_zpow_iff_right₀ (by norm_num : (1 : ℚ) < 2)).mp this
    omega

theorem nat_on_grid (K : ℕ) (fine : t ≤ 0) : (K : ℚ) = ((K * 2 ^ (-t).toNat : ℕ) : ℚ) * 2 ^ t := by
  push_cast
  rw [mul_assoc, ← zpow_natCast, ← zpow_add₀ two_ne_zero, show ((-t).toNat : ℤ) + t = 0 by omega, zpow_zero,
    mul_one]

theorem Faithful.fine (faithful : Faithful t v w) (small : v < 2 ^ (53 : ℤ)) : t ≤ 0 := by
  rcases faithful.exponent_le small with bottom | le
  · omega
  · omega

/-- A whole number at most a value below `2 ^ 53` is at most its rounding. -/
theorem Faithful.nat_le (faithful : Faithful t v w) (small : v < 2 ^ (53 : ℤ)) {K : ℕ} (le : (K : ℚ) ≤ v) :
    (K : ℚ) ≤ w := by
  rw [nat_on_grid K (faithful.fine small)] at le ⊢
  exact faithful.ge_of_grid le

theorem Faithful.eq_nat (faithful : Faithful t v w) {K : ℕ} (small : K < 2 ^ 53) (whole : v = K) : w = K := by
  have lt : v < 2 ^ (53 : ℤ) := by rw [whole]; exact_mod_cast small
  rw [← whole]
  exact faithful.eq_of_grid (whole.trans (nat_on_grid K (faithful.fine lt)))

theorem Faithful.lt_add_step (faithful : Faithful t v w) : w < v + 2 ^ t := by
  obtain ⟨⟨F, below, -, rounded, onGrid⟩, -⟩ := faithful
  have step := two_zpow_pos t
  rcases rounded with down | up
  · rw [down]
    linarith
  · by_cases exact : v = F * 2 ^ t
    · rw [onGrid exact]
      linarith
    · have := lt_of_le_of_ne below (Ne.symm exact)
      rw [up]
      linarith

/-- Rounding moves a value below `2 ^ k` up by less than `2 ^ (k - 53)`, when that is no
finer than the least double. -/
theorem Faithful.lt_add (faithful : Faithful t v w) {k : ℤ} (lt : v < 2 ^ k) (wide : -1021 ≤ k) :
    w < v + 2 ^ (k - 53) := by
  have grid : t ≤ k - 53 := by
    rcases faithful.exponent_le lt with bottom | le
    · omega
    · exact le
  calc w < v + 2 ^ t := faithful.lt_add_step
    _ ≤ v + 2 ^ (k - 53) := by gcongr; norm_num

/-- A faithful rounding of a value at least a power of two in the range of normal doubles
is at least that power. -/
theorem Faithful.two_zpow_le (faithful : Faithful t v w) {k : ℤ} (normal : -1022 ≤ k) (le : 2 ^ k ≤ v) :
    (2 : ℚ) ^ k ≤ w := by
  have power : (2 : ℚ) ^ k = ((2 ^ 52 : ℕ) : ℚ) * 2 ^ (k - 52) := by
    rw [zpow_sub₀ two_ne_zero]
    push_cast
    field_simp
  rw [power] at le ⊢
  exact faithful.ge_of_ge ⟨by norm_num, by omega, Or.inl le_rfl⟩ le

theorem faithful_zero : Faithful (-1074) 0 0 :=
  ⟨⟨0, by simp, by simp, Or.inl (by simp), fun _ => rfl⟩, le_rfl, two_zpow_pos _, Or.inl rfl⟩

theorem faithful_self {m : ℕ} {e : ℤ} (rep : Representable m e) : Faithful e (m * 2 ^ e) (m * 2 ^ e) := by
  have step := two_zpow_pos e
  refine ⟨⟨m, le_rfl, by linarith, Or.inl rfl, fun _ => rfl⟩, rep.least, ?_, ?_⟩
  · calc (m : ℚ) * 2 ^ e < (2 ^ 53 : ℕ) * 2 ^ e := by gcongr; exact_mod_cast rep.small
      _ = 2 ^ (e + 53) := by rw [zpow_add₀ two_ne_zero]; norm_cast; ring
  · rcases rep.normal with wide | bottom
    · right
      calc (2 : ℚ) ^ (e + 52) = (2 ^ 52 : ℕ) * 2 ^ e := by rw [zpow_add₀ two_ne_zero]; norm_cast; ring
        _ ≤ m * 2 ^ e := by gcongr
    · exact Or.inl bottom

end Grid

/-- A value below a power of two no higher than `2 ^ 1000` is below `2 ^ 1000`, the bound
under which rounding stays finite. -/
theorem lt_two_pow_thousand {x : ℚ} {k : ℤ} (lt : x < 2 ^ k) (le : k ≤ 1000) : x < 2 ^ 1000 :=
  lt.trans_le (by rw [← zpow_natCast]; exact zpow_le_zpow_right₀ (by norm_num) (by omega))

/-! ## Doubles that stand for values -/

/-- An unpacked double standing for the rational `v`: the positive zero for zero, or a
positive finite double, below the largest exponent, whose value is `v`. -/
def Denotes (u : UnpackedFloat) (v : ℚ) : Prop :=
  (u = .zero .positive ∧ v = 0) ∨
    ∃ m e pos, u = .finite .positive m e pos ∧ Representable m e ∧ e ≤ 971 ∧ v = m * 2 ^ e

theorem Denotes.nonneg {u : UnpackedFloat} {v : ℚ} (denotes : Denotes u v) : 0 ≤ v := by
  rcases denotes with ⟨-, rfl⟩ | ⟨m, e, -, -, -, -, rfl⟩
  · exact le_rfl
  · positivity

theorem Denotes.ne_notANumber {u : UnpackedFloat} {v : ℚ} (denotes : Denotes u v) : u ≠ .notANumber := by
  rcases denotes with ⟨rfl, -⟩ | ⟨m, e, pos, rfl, -⟩ <;> simp

/-- A positive value below `2 ^ 1000`, rounded faithfully to zero or to a representable
double, and packed, gives a double that denotes the rounding. -/
theorem denotes_of_rounded {u : UnpackedFloat} {t : ℤ} {v : ℚ} (below : v < 2 ^ 1000)
    (rounded : (u = .zero .positive ∧ Faithful t v 0) ∨
      ∃ m e pos, u = .finite .positive m e pos ∧ Representable m e ∧ Faithful t v (m * 2 ^ e)) :
    ∃ w, Denotes (unpack .binary64 (pack .binary64 u)) w ∧ Faithful t v w := by
  rcases rounded with ⟨rfl, faithful⟩ | ⟨m, e, pos, rfl, rep, faithful⟩
  · exact ⟨0, Or.inl ⟨unpack_pack_zero _, rfl⟩, faithful⟩
  · -- rounding does not pass the double `2 ^ 1000`, so the exponent is in range
    have top : ((2 ^ 52 : ℕ) : ℚ) * 2 ^ (948 : ℤ) = 2 ^ 1000 := by
      rw [show (948 : ℤ) = ((948 : ℕ) : ℤ) from rfl, zpow_natCast]
      simp only [Nat.cast_pow, Nat.cast_ofNat, ← pow_add]
    have bound : (m : ℚ) * 2 ^ e ≤ ((2 ^ 52 : ℕ) : ℚ) * 2 ^ (948 : ℤ) :=
      faithful.le_of_le ⟨by norm_num, by norm_num, Or.inl le_rfl⟩ (by rw [top]; exact below.le)
    have fits : e ≤ 971 := by
      rcases rep.normal with wide | bottom
      · have wide : ((2 ^ 52 : ℕ) : ℚ) ≤ m := by exact_mod_cast wide
        have scaled : (2 : ℚ) ^ e ≤ 2 ^ (948 : ℤ) :=
          le_of_mul_le_mul_left ((mul_le_mul_of_nonneg_right wide (two_zpow_pos e).le).trans bound) (by positivity)
        have := (zpow_le_zpow_iff_right₀ (by norm_num : (1 : ℚ) < 2)).mp scaled
        omega
      · omega
    exact ⟨_, Or.inr ⟨m, e, pos, unpack_pack_finite rep fits, rep, fits, rfl⟩, faithful⟩

/-! ## Arithmetic -/

/-- A product of doubles that denote values denotes a faithful rounding of the product. -/
theorem Denotes.mul {a b : UnpackedFloat} {p q : ℚ} (ha : Denotes a p) (hb : Denotes b q) (below : p * q < 2 ^ 1000) :
    ∃ w t, Denotes (unpack .binary64 (pack .binary64 (UnpackedFloat.mul .binary64 a b))) w ∧ Faithful t (p * q) w := by
  rcases ha with ⟨rfl, rfl⟩ | ⟨m, e, pos, rfl, rep, -, rfl⟩
  · -- zero times a number is the positive zero
    refine ⟨0, -1074, Or.inl ⟨?_, rfl⟩, by simpa using faithful_zero⟩
    rcases hb with ⟨rfl, -⟩ | ⟨m', e', pos', rfl, -⟩
    · rfl
    · rw [show UnpackedFloat.mul .binary64 (.zero .positive) (.finite .positive m' e' pos') = .zero .positive from rfl,
        unpack_pack_zero]
  rcases hb with ⟨rfl, rfl⟩ | ⟨m', e', pos', rfl, rep', -, rfl⟩
  · refine ⟨0, -1074, Or.inl ⟨?_, rfl⟩, by simpa using faithful_zero⟩
    rw [show UnpackedFloat.mul .binary64 (.finite .positive m e pos) (.zero .positive) = .zero .positive from rfl,
      unpack_pack_zero]
  have shiftable : 52 ≤ (m * m').log2 ∨ e + e' ≤ -1074 := by
    have nonzero := (Nat.mul_pos pos pos').ne'
    rcases rep.normal with wide | bottom
    · exact Or.inl ((Nat.le_log2 nonzero).mpr (wide.trans (Nat.le_mul_of_pos_right m pos')))
    rcases rep'.normal with wide' | bottom'
    · exact Or.inl ((Nat.le_log2 nonzero).mpr (wide'.trans (Nat.le_mul_of_pos_left m' pos)))
    · exact Or.inr (by omega)
  have exact : ((m * m' : ℕ) : ℚ) * 2 ^ (e + e') = m * 2 ^ e * (m' * 2 ^ e') := by
    push_cast
    rw [zpow_add₀ two_ne_zero]
    ring
  obtain ⟨w, denotes, faithful⟩ := denotes_of_rounded below
    (roundWithAccuracy_faithful (Nat.mul_pos pos pos') (exact ▸ approximates_exact (m * m') (e + e')) shiftable .positive)
  exact ⟨w, _, denotes, faithful⟩

/-- A quotient of natural numbers, held with the accuracy of its remainder, stands for the
exact quotient on every grid. -/
theorem approximates_quotient (M d : ℕ) (pos : 0 < d) (T : ℤ) :
    Approximates (ExtendedMantissa.ofMantissaAndAccuracy (M / d) (accuracyOfFraction (M % d) d)) T
      ((M : ℚ) / d * 2 ^ T) := by
  have step := two_zpow_pos T
  have split : ((M / d : ℕ) : ℚ) + ((M % d : ℕ) : ℚ) / d = M / d := div_add_mod_div M d pos
  have rem : ((M % d : ℕ) : ℚ) / d < 1 := by
    rw [div_lt_one (by exact_mod_cast pos)]
    exact_mod_cast Nat.mod_lt M pos
  have remNonneg : 0 ≤ ((M % d : ℕ) : ℚ) / d := by positivity
  rw [← split]
  refine ⟨?_, ?_, ?_⟩ <;> rw [mantissa_ofMantissaAndAccuracy]
  · exact mul_le_mul_of_nonneg_right (by linarith) step.le
  · exact mul_lt_mul_of_pos_right (by linarith) step
  · by_cases exact : M % d = 0
    · simp [accuracyOfFraction, exact, ExtendedMantissa.ofMantissaAndAccuracy]
    · -- a remainder leaves the quotient below the value and sets a residual bit
      have gap : ((M / d : ℕ) : ℚ) * 2 ^ T ≠ (((M / d : ℕ) : ℚ) + ((M % d : ℕ) : ℚ) / d) * 2 ^ T := by
        have : 0 < ((M % d : ℕ) : ℚ) / d := by
          have : 0 < M % d := Nat.pos_of_ne_zero exact
          positivity
        intro same
        nlinarith
      simp only [accuracyOfFraction, if_neg exact, gap, iff_false]
      generalize compare (2 * (M % d)) d = o
      cases o <;> simp [ExtendedMantissa.ofMantissaAndAccuracy]

/-- A number of at least `2 ^ a` over a positive one below `2 ^ (b + 1)` is at least
`2 ^ (a - (b + 1))`. -/
theorem pow_le_div {M d a b : ℕ} (pos : 0 < d) (high : 2 ^ a ≤ M) (low : d < 2 ^ (b + 1)) (le : b + 1 ≤ a) :
    2 ^ (a - (b + 1)) ≤ M / d := by
  rw [Nat.le_div_iff_mul_le pos]
  calc 2 ^ (a - (b + 1)) * d ≤ 2 ^ (a - (b + 1)) * 2 ^ (b + 1) := Nat.mul_le_mul_left _ low.le
    _ = 2 ^ a := by rw [← Nat.pow_add, Nat.sub_add_cancel le]
    _ ≤ M := high

/-- Division of two positive doubles first takes the quotient of the first mantissa,
shifted left far enough, by the second, with the accuracy of the remainder: it stands for
the exact quotient, and has 53 bits unless its exponent is at most the least one. -/
theorem divCore_spec {m₁ m₂ : ℕ} (pos₁ : 0 < m₁) (pos₂ : 0 < m₂) (e₁ e₂ : ℤ) :
    Approximates (ExtendedMantissa.ofMantissaAndAccuracy (divCore .binary64 m₁ e₁ m₂ e₂).1
        (divCore .binary64 m₁ e₁ m₂ e₂).2.2) (divCore .binary64 m₁ e₁ m₂ e₂).2.1 (m₁ * 2 ^ e₁ / (m₂ * 2 ^ e₂)) ∧
      (52 ≤ (divCore .binary64 m₁ e₁ m₂ e₂).1.log2 ∨ (divCore .binary64 m₁ e₁ m₂ e₂).2.1 ≤ -1074) := by
  set T := min (e₁ - e₂) (Format.binary64.targetExponent (totalExponent m₁ e₁ - totalExponent m₂ e₂)) with target
  set s := (e₁ - e₂ - T).toNat with shift
  have core : divCore .binary64 m₁ e₁ m₂ e₂ = ((m₁ <<< s) / m₂, T, accuracyOfFraction ((m₁ <<< s) % m₂) m₂) := rfl
  have exponents : (s : ℤ) + T = e₁ - e₂ := by omega
  have value : (m₁ : ℚ) * 2 ^ e₁ / (m₂ * 2 ^ e₂) = ((m₁ <<< s : ℕ) : ℚ) / m₂ * 2 ^ T := by
    rw [Nat.shiftLeft_eq]
    push_cast
    rw [← zpow_natCast, div_mul_eq_mul_div, mul_assoc, ← zpow_add₀ two_ne_zero, exponents, zpow_sub₀ two_ne_zero]
    field_simp
  rw [core, value]
  refine ⟨approximates_quotient _ _ pos₂ T, ?_⟩
  by_cases bottom : T ≤ -1074
  · exact Or.inr bottom
  · -- above the least exponent the shift leaves the quotient 53 bits
    left
    have room : T ≤ (m₁.log2 : ℤ) - m₂.log2 + e₁ - e₂ - 53 := by
      simp only [target, Format.targetExponent, totalExponent, Format.mantissaBits, Format.minExponent] at bottom ⊢
      norm_num at bottom ⊢
      omega
    have high : 2 ^ (m₁.log2 + s) ≤ m₁ <<< s := by
      rw [Nat.shiftLeft_eq, Nat.pow_add]
      exact Nat.mul_le_mul_right _ (Nat.log2_self_le pos₁.ne')
    have quotient := pow_le_div pos₂ high Nat.lt_log2_self (by omega)
    have wide : 2 ^ 52 ≤ m₁ <<< s / m₂ := (Nat.pow_le_pow_right (by decide) (by omega)).trans quotient
    exact (Nat.le_log2 (by positivity)).mpr wide

/-- A quotient of doubles that denote values, the divisor positive, denotes a faithful
rounding of the quotient, when that is zero or at least the least double. -/
theorem Denotes.div {a b : UnpackedFloat} {p q : ℚ} (ha : Denotes a p) (hb : Denotes b q) (pos : 0 < q)
    (least : p = 0 ∨ 2 ^ (-1074 : ℤ) ≤ p / q) (below : p / q < 2 ^ 1000) :
    ∃ w t, Denotes (unpack .binary64 (pack .binary64 (UnpackedFloat.div .binary64 a b))) w ∧ Faithful t (p / q) w := by
  rcases hb with ⟨-, rfl⟩ | ⟨m₂, e₂, pos₂, rfl, -, -, rfl⟩
  · exact absurd pos (lt_irrefl 0)
  rcases ha with ⟨rfl, rfl⟩ | ⟨m₁, e₁, pos₁, rfl, -, -, rfl⟩
  · refine ⟨0, -1074, Or.inl ⟨?_, rfl⟩, by simpa using faithful_zero⟩
    rw [show UnpackedFloat.div .binary64 (.zero .positive) (.finite .positive m₂ e₂ pos₂) = .zero .positive from rfl,
      unpack_pack_zero]
  obtain ⟨approx, shiftable⟩ := divCore_spec pos₁ pos₂ e₁ e₂
  have quotient : 0 < (divCore .binary64 m₁ e₁ m₂ e₂).1 := by
    rcases shiftable with wide | bottom
    · by_contra zero
      rw [Nat.eq_zero_of_not_pos zero] at wide
      simp at wide
    · have value : (0 : ℚ) < m₁ * 2 ^ e₁ := by positivity
      rcases least with zero | least
      · exact absurd zero value.ne'
      · by_contra zero
        have above := approx.above
        rw [mantissa_ofMantissaAndAccuracy, Nat.eq_zero_of_not_pos zero] at above
        have : (2 : ℚ) ^ (divCore .binary64 m₁ e₁ m₂ e₂).2.1 ≤ 2 ^ (-1074 : ℤ) :=
          zpow_le_zpow_right₀ (by norm_num) bottom
        simp only [Nat.cast_zero, zero_add, one_mul] at above
        linarith
  obtain ⟨w, denotes, faithful⟩ := denotes_of_rounded below
    (roundWithAccuracy_faithful quotient approx shiftable .positive)
  exact ⟨w, _, denotes, faithful⟩

/-- A sum of doubles that denote values denotes a faithful rounding of the sum. -/
theorem Denotes.add {a b : UnpackedFloat} {p q : ℚ} (ha : Denotes a p) (hb : Denotes b q) (below : p + q < 2 ^ 1000) :
    ∃ w t, Denotes (unpack .binary64 (pack .binary64 (UnpackedFloat.add .binary64 a b))) w ∧ Faithful t (p + q) w := by
  rcases ha with ⟨rfl, rfl⟩ | ⟨m, e, pos, rfl, rep, fits, rfl⟩ <;>
    rcases hb with ⟨rfl, rfl⟩ | ⟨m', e', pos', rfl, rep', fits', rfl⟩
  · exact ⟨0, -1074, Or.inl ⟨rfl, by simp⟩, by simpa using faithful_zero⟩
  · -- a zero adds nothing
    refine ⟨_, e', Or.inr ⟨m', e', pos', ?_, rep', fits', rfl⟩, by simpa using faithful_self rep'⟩
    rw [show UnpackedFloat.add .binary64 (.zero .positive) (.finite .positive m' e' pos') = .finite .positive m' e' pos'
      from rfl, unpack_pack_finite rep' fits']
  · refine ⟨_, e, Or.inr ⟨m, e, pos, ?_, rep, fits, rfl⟩, by simpa using faithful_self rep⟩
    rw [show UnpackedFloat.add .binary64 (.finite .positive m e pos) (.zero .positive) = .finite .positive m e pos
      from rfl, unpack_pack_finite rep fits]
  · -- the exact sum on the grid of the lower exponent, rounded once
    set t := min e e'
    set M := (decreaseExponent m e t).1 + (decreaseExponent m' e' t).1
    have value : (M : ℚ) * 2 ^ t = m * 2 ^ e + m' * 2 ^ e' := by
      simp only [M, Nat.cast_add, add_mul]
      rw [decreaseExponent_value m (min_le_left e e'), decreaseExponent_value m' (min_le_right e e')]
    have positive : 0 < M := by
      have : 0 < (decreaseExponent m e t).1 := by
        simp only [decreaseExponent, Nat.shiftLeft_eq]
        positivity
      omega
    have sum : UnpackedFloat.add .binary64 (.finite .positive m e pos) (.finite .positive m' e' pos') =
        round .binary64 .positive M t := by
      change UnpackedFloat.normalize .binary64 (((decreaseExponent m e t).1 : ℤ) + (decreaseExponent m' e' t).1) t
        .positive = _
      rw [normalize_of_pos (by omega)]
      congr 1
    obtain ⟨w, denotes, faithful⟩ := denotes_of_rounded (value ▸ below) (round_faithful positive t .positive)
    rw [sum]
    exact ⟨w, _, denotes, value ▸ faithful⟩

/-! ## Order and conversions -/

theorem Denotes.rank_le_iff {u u' : UnpackedFloat} {v v' : ℚ} (hu : Denotes u v) (hu' : Denotes u' v') :
    rank u ≤ rank u' ↔ v ≤ v' := by
  rcases hu with ⟨rfl, rfl⟩ | ⟨m, e, pos, rfl, rep, -, rfl⟩ <;>
    rcases hu' with ⟨rfl, rfl⟩ | ⟨m', e', pos', rfl, rep', -, rfl⟩
  · simp
  · exact ⟨fun _ => by positivity, fun _ => by simp [rank, Prod.Lex.le_iff]⟩
  · -- a positive double is above zero
    refine ⟨fun le => by simp [rank, Prod.Lex.le_iff] at le, fun le => ?_⟩
    have : (0 : ℚ) < m * 2 ^ e := by positivity
    linarith
  · refine ⟨fun le => ?_, fun le => rank_le_of_le rep' rep le⟩
    -- equal ranks are equal doubles, so a strictly larger value has a strictly larger rank
    by_contra gt
    have same := le_antisymm le (rank_le_of_le rep rep' (le_of_lt (not_le.mp gt)))
    simp only [rank, toLex_inj, Prod.mk.injEq, true_and, Nat.cast_inj] at same
    obtain ⟨rfl, rfl⟩ := same
    exact gt le_rfl

/-- Between doubles that denote values, the order of doubles is the order of the values. -/
theorem Denotes.float_le_iff {x y : Float} {v v' : ℚ} (hx : Denotes x.toModel.unpack v) (hy : Denotes y.toModel.unpack v') :
    x ≤ y ↔ v ≤ v' := by
  rw [le_iff_place_le, place, place, hx.rank_le_iff hy]
  exact ⟨fun le => le.2.2, fun le => ⟨hx.ne_notANumber, hy.ne_notANumber, le⟩⟩

theorem Denotes.not_lt_zero {x : Float} {v : ℚ} (denotes : Denotes x.toModel.unpack v) : ¬ x < 0 := by
  rw [not_lt_zero_iff]
  rcases denotes with ⟨unpacked, -⟩ | ⟨m, e, pos, unpacked, -⟩ <;> simp [unpacked]

theorem Denotes.isNaN_eq_false {x : Float} {v : ℚ} (denotes : Denotes x.toModel.unpack v) : x.isNaN = false := by
  rcases denotes with ⟨unpacked, -⟩ | ⟨m, e, pos, unpacked, -⟩ <;>
    simp only [Float.isNaN, Float.Model.isNaN, unpacked, UnpackedFloat.isNaN]

/-- Rounding a positive mantissa at an exponent toward zero to a whole number takes the
whole part of its value. -/
theorem roundToInt_positive (m : ℕ) (e : ℤ) : roundToInt .positive m e = (⌊(m : ℚ) * 2 ^ e⌋₊ : ℤ) := by
  simp only [roundToInt, decreaseExponent, shiftToExponent, shiftRight_mantissa, mantissa_ofMantissaAndAccuracy]
  change ((_ : ℕ) : ℤ) = _
  congr 1
  rcases le_or_gt 0 e with nonneg | neg
  · -- a whole value: the mantissa is shifted left onto the integers
    have whole : (m : ℚ) * 2 ^ e = ((m * 2 ^ e.toNat : ℕ) : ℚ) := by
      push_cast
      rw [← zpow_natCast, Int.toNat_of_nonneg nonneg]
    rw [whole, Nat.floor_natCast, show (e - 0).toNat = e.toNat by simp, show (0 - (e - (e.toNat : ℤ))).toNat = 0 by omega,
      Nat.shiftLeft_eq, pow_zero, Nat.div_one]
  · -- a fraction: the bits below the point are dropped
    have fraction : (m : ℚ) * 2 ^ e = (m : ℚ) / ((2 ^ (-e).toNat : ℕ) : ℚ) := by
      push_cast
      rw [← zpow_natCast, Int.toNat_of_nonneg (by omega), zpow_neg, div_eq_mul_inv, inv_inv]
    rw [fraction, Nat.floor_div_eq_div, show (e - 0).toNat = 0 by omega, show (0 - (e - ((0 : ℕ) : ℤ))).toNat = (-e).toNat by omega,
      Nat.shiftLeft_zero]

theorem denotes_one : Denotes (Float.exactlyRepresentablePowersOfTen[0]).toModel.unpack 1 := by
  have bits : (Float.exactlyRepresentablePowersOfTen[0]).toModel =
      Float.Model.pack (.finite .positive (2 ^ 52) (-52) (by decide)) := by
    decide +kernel
  have rep : Representable (2 ^ 52) (-52) := ⟨by norm_num, by norm_num, Or.inl le_rfl⟩
  refine Or.inr ⟨2 ^ 52, -52, by decide, ?_, rep, by norm_num, by norm_num⟩
  rw [bits]
  exact unpack_pack_finite rep (by norm_num)

/-- A natural number of at most 53 bits converts exactly. -/
theorem denotes_ofNat {k : ℕ} (small : k < 2 ^ 53) : Denotes (Float.ofNat k).toModel.unpack k := by
  have word : Denotes (k.toUInt64.toFloat).toModel.unpack k := by
    have toNat : k.toUInt64.toNat = k := by
      rw [Nat.toUInt64_eq, UInt64.toNat_ofNat_of_lt' (small.trans (by decide))]
    show Denotes (unpack .binary64 (pack .binary64 (UnpackedFloat.ofNat .binary64 k.toUInt64.toNat))) k
    rw [toNat]
    rcases Nat.eq_zero_or_pos k with zero | pos
    · subst zero
      exact Or.inl ⟨rfl, by simp⟩
    · have converted : UnpackedFloat.ofNat .binary64 k = round .binary64 .positive k 0 := by
        rw [UnpackedFloat.ofNat, UnpackedFloat.ofInt, normalize_of_pos (by omega)]
        rfl
      have below : (k : ℚ) * 2 ^ (0 : ℤ) < 2 ^ 1000 := by
        rw [zpow_zero, mul_one]
        exact_mod_cast small.trans (Nat.pow_lt_pow_right (by norm_num) (by norm_num))
      obtain ⟨w, denotes, faithful⟩ := denotes_of_rounded below (round_faithful pos 0 .positive)
      rw [converted, ← faithful.eq_nat small (by simp)]
      exact denotes
  obtain ⟨w, t, denotes, faithful⟩ := word.mul denotes_one (by rw [mul_one]; exact_mod_cast small.trans (Nat.pow_lt_pow_right (by norm_num) (by norm_num)))
  show Denotes (Float.ofScientific k false 0).toModel.unpack k
  unfold Float.ofScientific
  rw [dif_pos ⟨small, by decide⟩]
  simp only [Bool.false_eq_true, if_false]
  rw [unpack_mul, ← faithful.eq_nat small (mul_one _)]
  exact denotes

/-- Converting a double that denotes a value below `2 ^ 64` to a 64-bit word takes the
whole part of the value. -/
theorem toUInt64_of_denotes {x : Float} {v : ℚ} (denotes : Denotes x.toModel.unpack v) (lt : v < 2 ^ 64) :
    x.toUInt64.toNat = ⌊v⌋₊ := by
  show (UInt64.ofNatClamp (x.toModel.unpack.toInt 0 (UInt64.size - 1)).toNat).toNat = _
  rcases denotes with ⟨zero, rfl⟩ | ⟨m, e, pos, unpacked, -, -, rfl⟩
  · rw [zero]
    simp only [UnpackedFloat.toInt, Int.toNat_zero, Nat.floor_zero]
    rfl
  · have fits : ⌊(m : ℚ) * 2 ^ e⌋₊ < UInt64.size :=
      (Nat.floor_lt (by positivity)).mpr (by rw [UInt64.size]; push_cast; exact lt)
    rw [unpacked]
    simp only [UnpackedFloat.toInt, roundToInt_positive, Int.toNat_natCast]
    rw [UInt64.ofNatClamp_eq_ofNat _ fits, UInt64.toNat_ofNat_of_lt' fits]

end Decimal
end AgentMemory
