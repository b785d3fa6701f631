import AgentMemory.Proofs.Decimal.Round

namespace AgentMemory
namespace Decimal

open Float.Model UnpackedFloat

/-!
# Signs and bounds of double arithmetic

What arithmetic on doubles keeps, read through the logical model of `Float`.  Products,
quotients by a double above zero, and conversions of natural numbers are never below zero,
though they may be `NaN` (`not_lt_zero_mul`, `not_lt_zero_div`, `not_lt_zero_ofInt`).  A
finite double at least zero, less a double at least zero, is a number no greater than it
(`float_sub_le_self`), because rounding never passes a double.  On numbers `<` is the strict order
of ranks, so a number that is not below another is at least it (`float_not_lt_iff_le`).

Rounding and packing never make a `NaN` of a number (`unpack_pack_ne_notANumber`), so the
only `NaN` arithmetic makes of numbers is zero times an infinity and the like: a number
times, or divided by, a finite double above zero is a number, and so is every converted
natural number (`isNumber_mul_of_left`, `isNumber_div_of_right`, `isNumber_ofNat`).
-/

section Signs

/-- An unpacked double that is not below zero: `NaN`, a zero of either sign, or a positive
finite double or infinity. -/
def NotBelowZero : UnpackedFloat → Prop
  | .finite .negative .. => False
  | .infinity .negative => False
  | _ => True

@[simp] theorem notBelowZero_finite {s : Sign} {m : ℕ} {e : ℤ} {pos : 0 < m} :
    NotBelowZero (.finite s m e pos) ↔ s = .positive := by
  cases s <;> simp [NotBelowZero]

@[simp] theorem notBelowZero_infinity {s : Sign} : NotBelowZero (.infinity s) ↔ s = .positive := by
  cases s <;> simp [NotBelowZero]

@[simp] theorem notBelowZero_zero (s : Sign) : NotBelowZero (.zero s) := trivial

@[simp] theorem notBelowZero_notANumber : NotBelowZero .notANumber := trivial

theorem float_lt_iff_unpack (a b : Float) : a < b ↔ a.toModel.unpack.lt b.toModel.unpack = true := by
  show a.lt b = true ↔ _
  simp only [Float.lt, decide_eq_true_eq]
  rfl

theorem unpack_float_zero : (0 : Float).toModel.unpack = .zero .positive := rfl

theorem not_lt_zero_iff (x : Float) : ¬ x < 0 ↔ NotBelowZero x.toModel.unpack := by
  rw [float_lt_iff_unpack, unpack_float_zero]
  cases x.toModel.unpack with
  | finite s m e pos => cases s <;> simp [UnpackedFloat.lt, UnpackedFloat.compare]
  | infinity s => cases s <;> simp [UnpackedFloat.lt, UnpackedFloat.compare]
  | zero s => simp [UnpackedFloat.lt, UnpackedFloat.compare]
  | notANumber => simp [UnpackedFloat.lt, UnpackedFloat.compare]

theorem unpackSign_pack_finite (s : Sign) (m : ℕ) (e : ℤ) (pos : 0 < m) :
    unpackSign (pack .binary64 (.finite s m e pos)) = s.toBitVec := by
  simp only [UnpackedFloat.pack]
  split_ifs
  · exact (unpack_packComponents_fields s _ _).1
  · exact (unpack_packComponents_fields s _ _).1
  · exact (unpack_packComponents_fields s _ _).1

theorem notBelowZero_unpack {b : BitVec Format.binary64.numBits} (sign : unpackSign b = Sign.positive.toBitVec) :
    NotBelowZero (unpack .binary64 b) := by
  have positive : Sign.ofBitVec (unpackSign b) = .positive := by rw [sign]; rfl
  simp only [UnpackedFloat.unpack, positive]
  split_ifs <;> simp

theorem NotBelowZero.settle {u : UnpackedFloat} (h : NotBelowZero u) :
    NotBelowZero (unpack .binary64 (pack .binary64 u)) := by
  cases u with
  | finite s m e pos =>
    rw [notBelowZero_finite] at h
    subst h
    exact notBelowZero_unpack (unpackSign_pack_finite _ m e pos)
  | infinity s => simpa using h
  | zero s => simp
  | notANumber => simp

theorem notBelowZero_roundWithAccuracy (M : ℕ) (x : ℤ) (acc : Accuracy) :
    NotBelowZero (roundWithAccuracy .binary64 .positive M x acc) := by
  rw [roundWithAccuracy_eq]
  split_ifs <;> simp

@[simp] theorem positive_mul_positive : Sign.positive * Sign.positive = .positive := rfl

@[simp] theorem positive_div_positive : Sign.positive / Sign.positive = .positive := rfl

theorem NotBelowZero.mul {a b : UnpackedFloat} (ha : NotBelowZero a) (hb : NotBelowZero b) :
    NotBelowZero (UnpackedFloat.mul .binary64 a b) := by
  cases a <;> cases b <;> simp_all [UnpackedFloat.mul, notBelowZero_roundWithAccuracy]

theorem NotBelowZero.div {a b : UnpackedFloat} (ha : NotBelowZero a)
    (hb : b = .notANumber ∨ (∃ m e pos, b = .finite .positive m e pos) ∨ b = .infinity .positive) :
    NotBelowZero (UnpackedFloat.div .binary64 a b) := by
  rcases hb with rfl | ⟨m, e, pos, rfl⟩ | rfl <;> cases a <;>
    simp_all [UnpackedFloat.div, notBelowZero_roundWithAccuracy]

theorem notBelowZero_round (M : ℕ) (x : ℤ) : NotBelowZero (round .binary64 .positive M x) :=
  notBelowZero_roundWithAccuracy _ _ _

theorem notBelowZero_normalize {D : ℤ} (nonneg : 0 ≤ D) (x : ℤ) :
    NotBelowZero (UnpackedFloat.normalize .binary64 D x .positive) := by
  unfold UnpackedFloat.normalize
  split
  · rename_i below
    exact absurd (Int.compare_eq_lt.mp below) (by omega)
  · simp
  · exact notBelowZero_round _ _

theorem unpack_mul (a b : Float) :
    (a * b).toModel.unpack = unpack .binary64 (pack .binary64 (UnpackedFloat.mul .binary64 a.toModel.unpack b.toModel.unpack)) :=
  rfl

theorem unpack_div (a b : Float) :
    (a / b).toModel.unpack = unpack .binary64 (pack .binary64 (UnpackedFloat.div .binary64 a.toModel.unpack b.toModel.unpack)) :=
  rfl

theorem unpack_sub (a b : Float) :
    (a - b).toModel.unpack = unpack .binary64 (pack .binary64 (UnpackedFloat.sub .binary64 a.toModel.unpack b.toModel.unpack)) :=
  rfl

theorem unpack_add (a b : Float) :
    (a + b).toModel.unpack = unpack .binary64 (pack .binary64 (UnpackedFloat.add .binary64 a.toModel.unpack b.toModel.unpack)) :=
  rfl

/-- A product of doubles that are not below zero is not below zero. -/
theorem not_lt_zero_mul {a b : Float} (ha : ¬ a < 0) (hb : ¬ b < 0) : ¬ a * b < 0 := by
  rw [not_lt_zero_iff] at ha hb ⊢
  rw [unpack_mul]
  exact (ha.mul hb).settle

theorem unpack_of_not_le_zero {b : Float} (h : ¬ b ≤ 0) :
    b.toModel.unpack = .notANumber ∨ (∃ m e pos, b.toModel.unpack = .finite .positive m e pos) ∨
      b.toModel.unpack = .infinity .positive := by
  rw [float_le_iff_unpack, unpack_float_zero] at h
  cases unpacked : b.toModel.unpack with
  | notANumber => exact Or.inl rfl
  | zero s => rw [unpacked] at h; cases s <;> simp [UnpackedFloat.le, UnpackedFloat.compare] at h
  | finite s m e pos =>
    cases s
    · rw [unpacked] at h; simp [UnpackedFloat.le, UnpackedFloat.compare] at h
    · exact Or.inr (Or.inl ⟨m, e, pos, rfl⟩)
  | infinity s =>
    cases s
    · rw [unpacked] at h; simp [UnpackedFloat.le, UnpackedFloat.compare] at h
    · exact Or.inr (Or.inr rfl)

/-- A double that is not below zero, divided by one that is not at most zero, is not below zero. -/
theorem not_lt_zero_div {a b : Float} (ha : ¬ a < 0) (hb : ¬ b ≤ 0) : ¬ a / b < 0 := by
  rw [not_lt_zero_iff] at ha ⊢
  rw [unpack_div]
  exact (ha.div (unpack_of_not_le_zero hb)).settle

theorem notBelowZero_ofScientific (m : ℕ) (e : ℤ) : NotBelowZero (UnpackedFloat.ofScientific .binary64 m e) := by
  rw [UnpackedFloat.ofScientific]
  split
  · exact notBelowZero_zero _
  split
  · exact notBelowZero_infinity.mpr rfl
  split
  · exact notBelowZero_zero _
  split
  · exact NotBelowZero.mul (notBelowZero_finite.mpr rfl) (notBelowZero_finite.mpr rfl)
  · exact NotBelowZero.div (notBelowZero_finite.mpr rfl) (Or.inr (Or.inl ⟨_, _, _, rfl⟩))

theorem powersOfTen_not_lt_zero : ∀ x ∈ Float.exactlyRepresentablePowersOfTen.toList, ¬ x < 0 := by
  decide +kernel

theorem not_lt_zero_ofNat (k : ℕ) : ¬ Float.ofNat k < 0 := by
  show ¬ Float.ofScientific k false 0 < 0
  unfold Float.ofScientific
  split
  · -- a number of at most 53 bits is converted exactly and multiplied by one
    simp only [Bool.false_eq_true, if_false]
    refine not_lt_zero_mul ?_ (powersOfTen_not_lt_zero _ (Array.mem_toList_iff.mpr (Array.getElem_mem _)))
    rw [not_lt_zero_iff]
    exact (notBelowZero_normalize (Int.natCast_nonneg _) 0).settle
  · -- a larger one goes through the logical model's conversion
    rw [not_lt_zero_iff]
    exact (notBelowZero_ofScientific _ _).settle

/-- An integer that is not negative is converted to a double that is not below zero. -/
theorem not_lt_zero_ofInt {n : ℤ} (nonneg : 0 ≤ n) : ¬ Float.ofInt n < 0 := by
  obtain ⟨k, rfl⟩ := Int.eq_ofNat_of_zero_le nonneg
  exact not_lt_zero_ofNat k

end Signs


section Order

theorem isLT_then_compare (e f : Int) (m n : Nat) :
    (compare e f).then (compare m n) = .lt ↔ e < f ∨ e = f ∧ m < n := by
  rw [Ordering.then_eq_lt]
  simp only [Int.compare_eq_lt, Int.compare_eq_eq, Nat.compare_eq_lt]

theorem lt_iff_rank_lt {u v : UnpackedFloat} (hu : u ≠ .notANumber) (hv : v ≠ .notANumber) :
    u.lt v = true ↔ rank u < rank v := by
  cases u with
  | notANumber => exact absurd rfl hu
  | infinity s => cases v with
    | notANumber => exact absurd rfl hv
    | infinity t => cases s <;> cases t <;> decide
    | zero t => cases s <;> cases t <;> decide
    | finite t n f hn => cases s <;> cases t <;> simp [UnpackedFloat.lt, UnpackedFloat.compare, rank, Prod.Lex.lt_iff]
  | zero s => cases v with
    | notANumber => exact absurd rfl hv
    | infinity t => cases s <;> cases t <;> decide
    | zero t => cases s <;> cases t <;> decide
    | finite t n f hn => cases s <;> cases t <;> simp [UnpackedFloat.lt, UnpackedFloat.compare, rank, Prod.Lex.lt_iff]
  | finite s m e hm => cases v with
    | notANumber => exact absurd rfl hv
    | infinity t => cases s <;> cases t <;> simp [UnpackedFloat.lt, UnpackedFloat.compare, rank, Prod.Lex.lt_iff]
    | zero t => cases s <;> cases t <;> simp [UnpackedFloat.lt, UnpackedFloat.compare, rank, Prod.Lex.lt_iff]
    | finite t n f hn =>
      cases s <;> cases t <;>
        simp [UnpackedFloat.lt, UnpackedFloat.compare, rank, Prod.Lex.lt_iff, isLT_then_compare, Ordering.swap_eq_lt,
          Ordering.then_eq_gt, Int.compare_eq_gt, Nat.compare_eq_gt]

/-- Between numbers, a double is not below another exactly when it is at least it. -/
theorem float_not_lt_iff_le {a b : Float} (ha : IsNumber a) (hb : IsNumber b) : ¬ a < b ↔ b ≤ a := by
  rw [float_lt_iff_unpack, lt_iff_rank_lt ha hb, le_iff_place_le, not_lt]
  exact ⟨fun le => ⟨hb, ha, le⟩, fun ⟨_, _, le⟩ => le⟩

theorem isNumber_iff_isNaN (x : Float) : IsNumber x ↔ x.isNaN = false := by
  unfold IsNumber
  simp only [Float.isNaN, Float.Model.isNaN]
  cases x.toModel.unpack <;> simp [UnpackedFloat.isNaN]

theorem float_le_refl {a : Float} (number : IsNumber a) : a ≤ a :=
  le_iff_place_le.mpr ⟨number, number, le_rfl⟩

theorem isNumber_of_lt {a b : Float} (lt : a < b) : IsNumber a ∧ IsNumber b := by
  rw [float_lt_iff_unpack] at lt
  constructor
  · intro nan
    rw [nan] at lt
    simp [UnpackedFloat.lt, UnpackedFloat.compare] at lt
  · intro nan
    rw [nan] at lt
    revert lt
    cases a.toModel.unpack <;> simp [UnpackedFloat.lt, UnpackedFloat.compare]

theorem float_le_of_lt {a b : Float} (lt : a < b) : a ≤ b := by
  obtain ⟨ha, hb⟩ := isNumber_of_lt lt
  rw [float_lt_iff_unpack, lt_iff_rank_lt ha hb] at lt
  exact le_iff_place_le.mpr ⟨ha, hb, lt.le⟩

/-- A double at least zero unpacks to a zero, a positive finite double or the positive
infinity. -/
theorem unpack_of_nonneg {x : Float} (nonneg : 0 ≤ x) :
    (∃ s, x.toModel.unpack = .zero s) ∨ (∃ m e pos, x.toModel.unpack = .finite .positive m e pos) ∨
      x.toModel.unpack = .infinity .positive := by
  obtain ⟨-, number, below⟩ := le_iff_place_le.mp nonneg
  simp only [place, unpack_float_zero] at below
  cases unpacked : x.toModel.unpack with
  | notANumber => exact absurd unpacked number
  | zero s => exact Or.inl ⟨s, rfl⟩
  | finite s m e pos =>
    cases s
    · rw [unpacked] at below; simp [rank, Prod.Lex.le_iff] at below
    · exact Or.inr (Or.inl ⟨m, e, pos, rfl⟩)
  | infinity s =>
    cases s
    · rw [unpacked] at below; simp [rank, Prod.Lex.le_iff] at below
    · exact Or.inr (Or.inr rfl)

end Order

section Subtraction

theorem normalize_of_pos {D : ℤ} (pos : 0 < D) (x : ℤ) (zs : Sign) :
    UnpackedFloat.normalize .binary64 D x zs = round .binary64 .positive D.toNat x := by
  rw [UnpackedFloat.normalize, show compare D 0 = .gt from compare_gt_iff_gt.mpr pos]

theorem normalize_of_neg {D : ℤ} (neg : D < 0) (x : ℤ) (zs : Sign) :
    UnpackedFloat.normalize .binary64 D x zs = round .binary64 .negative (-D).toNat x := by
  rw [UnpackedFloat.normalize, show compare D 0 = .lt from compare_lt_iff_lt.mpr neg]

theorem normalize_zero (x : ℤ) (zs : Sign) : UnpackedFloat.normalize .binary64 0 x zs = .zero zs := by
  rw [UnpackedFloat.normalize, show compare (0 : ℤ) 0 = .eq from compare_eq_iff_eq.mpr rfl]

theorem decreaseExponent_value (m : ℕ) {e t : ℤ} (le : t ≤ e) :
    ((decreaseExponent m e t).1 : ℚ) * 2 ^ t = m * 2 ^ e := by
  simp only [decreaseExponent, Nat.shiftLeft_eq, Nat.cast_mul, Nat.cast_pow, Nat.cast_ofNat, mul_assoc]
  rw [← zpow_natCast, ← zpow_add₀ two_ne_zero]
  congr 2
  omega

/-- A representable negative double, a negative zero or the negative infinity, once packed and
unpacked, is a number of rank below zero. -/
theorem rank_round_negative (M : ℕ) (pos : 0 < M) (x : ℤ) :
    unpack .binary64 (pack .binary64 (round .binary64 .negative M x)) ≠ .notANumber ∧
      rank (unpack .binary64 (pack .binary64 (round .binary64 .negative M x))) ≤ rank (.zero .positive) := by
  rcases round_faithful pos x .negative with ⟨zero, -⟩ | ⟨m, e, h, rounded, rep, -⟩
  · rw [zero, unpack_pack_zero]
    exact ⟨by simp, le_rfl⟩
  · rw [rounded, unpack_pack_representable rep]
    split <;> simp [rank, Prod.Lex.le_iff]

/-- Subtracting a positive double from a positive representable one gives, packed and
unpacked, a number no greater than the first. -/
theorem sub_finite_le {m e m₂ e₂ : _} {pos : 0 < m} (pos₂ : 0 < m₂) (rep : Representable m e) (fits : e ≤ 971) :
    unpack .binary64 (pack .binary64 (UnpackedFloat.sub .binary64 (.finite .positive m e pos) (.finite .positive m₂ e₂ pos₂))) ≠
        .notANumber ∧
      rank (unpack .binary64 (pack .binary64
        (UnpackedFloat.sub .binary64 (.finite .positive m e pos) (.finite .positive m₂ e₂ pos₂)))) ≤
        rank (.finite .positive m e pos) := by
  simp only [UnpackedFloat.sub, Sign.apply]
  set t := min e e₂
  set D : ℤ := ((decreaseExponent m e t).1 : ℤ) - (decreaseExponent m₂ e₂ t).1
  have value : (D : ℚ) * 2 ^ t = m * 2 ^ e - m₂ * 2 ^ e₂ := by
    simp only [D, Int.cast_sub, Int.cast_natCast, sub_mul]
    rw [decreaseExponent_value m (show t ≤ e from min_le_left e e₂),
      decreaseExponent_value m₂ (show t ≤ e₂ from min_le_right e e₂)]
  have below : rank (.zero .positive) ≤ rank (.finite .positive m e pos) := by simp [rank, Prod.Lex.le_iff]
  rcases lt_trichotomy D 0 with neg | zero | posD
  · rw [normalize_of_neg neg]
    obtain ⟨number, low⟩ := rank_round_negative (-D).toNat (by omega) t
    exact ⟨number, low.trans below⟩
  · rw [zero, normalize_zero, unpack_pack_zero]
    exact ⟨by simp, by simpa [rank] using below⟩
  · rw [normalize_of_pos posD]
    rcases round_faithful (by omega : 0 < D.toNat) t .positive with ⟨rounded, -⟩ | ⟨m', e', h, rounded, rep', faithful⟩
    · rw [rounded, unpack_pack_zero]
      exact ⟨by simp, by simpa [rank] using below⟩
    · -- the difference is below the first double, and rounding does not pass it
      have le : (D.toNat : ℚ) * 2 ^ t ≤ m * 2 ^ e := by
        rw [show ((D.toNat : ℕ) : ℚ) = (D : ℚ) by exact_mod_cast Int.toNat_of_nonneg posD.le, value]
        have : (0 : ℚ) ≤ m₂ * 2 ^ e₂ := by positivity
        linarith
      have le' := faithful.le_of_le rep le
      have lower : e' ≤ e := by
        rcases rep.lex_of_le rep' le' with lower | ⟨same, -⟩ <;> omega
      rw [rounded, unpack_pack_finite rep' (by omega)]
      exact ⟨by simp, rank_le_of_le rep rep' le'⟩

@[simp] theorem neg_positive : -Sign.positive = .negative := rfl

/-- A finite double at least zero, less a double at least zero, is a number no greater than
the first. -/
theorem float_sub_le_self {c p : Float} (finite : c.isFinite = true) (nonneg : 0 ≤ c) (hp : 0 ≤ p) : c - p ≤ c := by
  suffices h : (c - p).toModel.unpack ≠ .notANumber ∧ rank (c - p).toModel.unpack ≤ rank c.toModel.unpack from
    le_iff_place_le.mpr ⟨h.1, isNumber_of_le_right nonneg, h.2⟩
  rw [unpack_sub]
  have noInfinity : c.toModel.unpack.isFinite = true := finite
  rcases unpack_of_nonneg nonneg with ⟨s, hc⟩ | ⟨m, e, pos, hc⟩ | hc <;>
    rcases unpack_of_nonneg hp with ⟨t, hq⟩ | ⟨m₂, e₂, pos₂, hq⟩ | hq <;>
    rw [hc] <;> rw [hc] at noInfinity <;> rw [hq]
  · simp only [UnpackedFloat.sub]
    split <;> simp [rank]
  · obtain ⟨rep₂, fits₂⟩ := representable_of_unpack hq
    simp only [UnpackedFloat.sub, neg_positive, unpack_pack_finite rep₂ fits₂]
    simp [rank, Prod.Lex.le_iff]
  · simp [UnpackedFloat.sub, rank, Prod.Lex.le_iff]
  · obtain ⟨rep, fits⟩ := representable_of_unpack hc
    simp only [UnpackedFloat.sub, unpack_pack_finite rep fits]
    exact ⟨by simp, le_rfl⟩
  · obtain ⟨rep, fits⟩ := representable_of_unpack hc
    exact sub_finite_le pos₂ rep fits
  · simp [UnpackedFloat.sub, rank, Prod.Lex.le_iff]
  all_goals simp [UnpackedFloat.isFinite] at noInfinity

theorem isNumber_of_sub {c p : Float} (number : IsNumber (c - p)) : IsNumber p := by
  intro nan
  apply number
  show unpack .binary64 (pack .binary64 (UnpackedFloat.sub .binary64 c.toModel.unpack p.toModel.unpack)) = .notANumber
  rw [nan]
  cases c.toModel.unpack <;> simp [UnpackedFloat.sub]

theorem isNumber_of_add {a b : Float} (number : IsNumber (a + b)) : IsNumber a ∧ IsNumber b := by
  unfold IsNumber at number
  rw [unpack_add] at number
  constructor
  · intro nan
    apply number
    rw [nan]
    cases b.toModel.unpack <;> simp [UnpackedFloat.add]
  · intro nan
    apply number
    rw [nan]
    cases a.toModel.unpack <;> simp [UnpackedFloat.add]

theorem isFinite_of_le_one {x : Float} (nonneg : 0 ≤ x) (le : x ≤ 1) : x.isFinite = true := by
  show x.toModel.unpack.isFinite = true
  rcases unpack_of_nonneg nonneg with ⟨s, hx⟩ | ⟨m, e, pos, hx⟩ | hx
  · simp [hx, UnpackedFloat.isFinite]
  · simp [hx, UnpackedFloat.isFinite]
  · -- the positive infinity is above one
    obtain ⟨-, -, below⟩ := le_iff_place_le.mp le
    rw [place, hx] at below
    exact absurd below (by decide)

end Subtraction

section Numbers

/-- Packing keeps a double that is not `NaN` one: a finite double is packed with an exponent
field below all ones, or as an infinity when it is too large. -/
theorem unpack_pack_ne_notANumber {u : UnpackedFloat} (number : u ≠ .notANumber) :
    unpack .binary64 (pack .binary64 u) ≠ .notANumber := by
  have fields : ∀ (s : Sign) (x : BitVec 11) (y : BitVec 52), x.toNat ≠ 2047 →
      unpack .binary64 (packComponents .binary64 s x y) ≠ .notANumber := by
    intro s x y notTop nan
    obtain ⟨-, expo, -⟩ := unpack_packComponents_fields s x y
    have below := (unpack_of_exponent_ne_top (b := packComponents .binary64 s x y)
      (by rw [← toNat_unpackExponent, expo]; exact notTop)).1
    simp [nan, UnpackedFloat.isNaN] at below
  cases u with
  | notANumber => exact absurd rfl number
  | infinity s => simp
  | zero s => simp
  | finite s m e pos =>
    simp only [UnpackedFloat.pack]
    split
    · exact unpack_pack_infinity s ▸ by simp
    · rename_i inRange
      split
      · refine fields s _ _ ?_
        rw [BitVec.toNat_ofNat]
        omega
      · exact fields s _ _ (by simp)

theorem roundWithAccuracy_ne_notANumber (s : Sign) (M : ℕ) (x : ℤ) (acc : Accuracy) :
    roundWithAccuracy .binary64 s M x acc ≠ .notANumber := by
  rw [roundWithAccuracy_eq]
  split_ifs <;> simp

theorem unpack_of_finite_pos {x : Float} (finite : x.isFinite = true) (pos : ¬ x ≤ 0) :
    ∃ m e h, x.toModel.unpack = .finite .positive m e h := by
  have bounded : x.toModel.unpack.isFinite = true := finite
  rcases unpack_of_not_le_zero pos with nan | positive | infinite
  · simp [nan, UnpackedFloat.isFinite] at bounded
  · exact positive
  · simp [infinite, UnpackedFloat.isFinite] at bounded

/-- A finite double above zero times a number is a number: `NaN` comes only from a `NaN` or
from zero times an infinity. -/
theorem isNumber_mul_of_left {a b : Float} (finite : a.isFinite = true) (pos : ¬ a ≤ 0) (number : IsNumber b) :
    IsNumber (a * b) := by
  obtain ⟨m, e, h, ha⟩ := unpack_of_finite_pos finite pos
  unfold IsNumber
  rw [unpack_mul, ha]
  apply unpack_pack_ne_notANumber
  cases hb : b.toModel.unpack with
  | notANumber => exact absurd hb number
  | finite => simp [UnpackedFloat.mul, roundWithAccuracy_ne_notANumber]
  | zero => simp [UnpackedFloat.mul]
  | infinity => simp [UnpackedFloat.mul]

theorem isNumber_mul_of_right {a b : Float} (number : IsNumber a) (finite : b.isFinite = true) (pos : ¬ b ≤ 0) :
    IsNumber (a * b) := by
  obtain ⟨m, e, h, hb⟩ := unpack_of_finite_pos finite pos
  unfold IsNumber
  rw [unpack_mul, hb]
  apply unpack_pack_ne_notANumber
  cases ha : a.toModel.unpack with
  | notANumber => exact absurd ha number
  | finite => simp [UnpackedFloat.mul, roundWithAccuracy_ne_notANumber]
  | zero => simp [UnpackedFloat.mul]
  | infinity => simp [UnpackedFloat.mul]

/-- A number divided by a finite double above zero is a number. -/
theorem isNumber_div_of_right {a b : Float} (number : IsNumber a) (finite : b.isFinite = true) (pos : ¬ b ≤ 0) :
    IsNumber (a / b) := by
  obtain ⟨m, e, h, hb⟩ := unpack_of_finite_pos finite pos
  unfold IsNumber
  rw [unpack_div, hb]
  apply unpack_pack_ne_notANumber
  cases ha : a.toModel.unpack with
  | notANumber => exact absurd ha number
  | finite => simp [UnpackedFloat.div, roundWithAccuracy_ne_notANumber]
  | zero => simp [UnpackedFloat.div]
  | infinity => simp [UnpackedFloat.div]

theorem normalize_ne_notANumber (D x : ℤ) (zs : Sign) : UnpackedFloat.normalize .binary64 D x zs ≠ .notANumber := by
  unfold UnpackedFloat.normalize UnpackedFloat.round
  split <;> simp [roundWithAccuracy_ne_notANumber]

theorem ofScientific_ne_notANumber (m : ℕ) (e : ℤ) : UnpackedFloat.ofScientific .binary64 m e ≠ .notANumber := by
  unfold UnpackedFloat.ofScientific
  split_ifs <;> simp [UnpackedFloat.mul, UnpackedFloat.div, roundWithAccuracy_ne_notANumber]

theorem powersOfTen_finite_pos : ∀ x ∈ Float.exactlyRepresentablePowersOfTen.toList, x.isFinite = true ∧ ¬ x ≤ 0 := by
  decide +kernel

/-- A natural number is converted to a number. -/
theorem isNumber_ofNat (k : ℕ) : IsNumber (Float.ofNat k) := by
  show IsNumber (Float.ofScientific k false 0)
  unfold Float.ofScientific
  split
  · -- a number of at most 53 bits is converted exactly and multiplied by one
    simp only [Bool.false_eq_true, if_false]
    obtain ⟨finite, pos⟩ := powersOfTen_finite_pos _ (Array.mem_toList_iff.mpr (Array.getElem_mem _))
    exact isNumber_mul_of_right (unpack_pack_ne_notANumber (normalize_ne_notANumber _ 0 _)) finite pos
  · -- a larger one goes through the logical model's conversion
    exact unpack_pack_ne_notANumber (ofScientific_ne_notANumber _ _)

theorem isNumber_ofInt {n : ℤ} (nonneg : 0 ≤ n) : IsNumber (Float.ofInt n) := by
  obtain ⟨k, rfl⟩ := Int.eq_ofNat_of_zero_le nonneg
  exact isNumber_ofNat k

end Numbers

end Decimal
end AgentMemory
