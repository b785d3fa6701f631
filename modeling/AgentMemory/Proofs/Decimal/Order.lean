import Mathlib

namespace AgentMemory
namespace Decimal

open Float.Model UnpackedFloat

/-!
# The order of doubles

Doubles are compared as IEEE 754 says: `NaN` is comparable with nothing, the two zeros
are equal, and all other values are ordered as the extended reals they stand for.  So
`≤` on doubles is not a preorder, but it is one on the doubles that are numbers.

The comparison of the logical model of `Float` looks at the unpacked form of a double:
its class, sign, exponent and mantissa.  Here every unpacked double gets a `rank` in a
lexicographic order, and `≤` between numbers is shown to be `≤` between ranks
(`le_iff_place_le`).  Transitivity and totality on numbers follow from the order of
ranks; they are what sorting by confidence needs.
-/

/-- Where an unpacked double stands on the extended real line: first its class
(negative infinity, negative, zero, positive, positive infinity), then its exponent and
mantissa, both taken backwards below zero.  `NaN` is given a rank too, and never
compared. -/
def rank : UnpackedFloat → Int ×ₗ Int ×ₗ Int
  | .infinity .negative => toLex (-2, toLex (0, 0))
  | .finite .negative m e _ => toLex (-1, toLex (-e, -(m : Int)))
  | .zero _ => toLex (0, toLex (0, 0))
  | .finite .positive m e _ => toLex (1, toLex (e, (m : Int)))
  | .infinity .positive => toLex (2, toLex (0, 0))
  | .notANumber => toLex (0, toLex (0, 0))

theorem isLE_then_compare (e f : Int) (m n : Nat) :
    ((compare e f).then (compare m n)).isLE = true ↔ e < f ∨ e = f ∧ m ≤ n := by
  rw [Ordering.isLE_iff_ne_gt, Ordering.then_eq_gt]
  simp only [Int.compare_eq_gt, Int.compare_eq_eq, Nat.compare_eq_gt]
  omega

theorem isGE_then_compare (e f : Int) (m n : Nat) :
    ((compare e f).then (compare m n)).isGE = true ↔ f < e ∨ e = f ∧ n ≤ m := by
  rw [Ordering.isGE_iff_ne_lt, Ordering.then_eq_lt]
  simp only [Int.compare_eq_lt, Int.compare_eq_eq, Nat.compare_eq_lt]
  omega

theorem le_iff_rank_le {u v : UnpackedFloat} (hu : u ≠ .notANumber) (hv : v ≠ .notANumber) :
    u.le v = true ↔ rank u ≤ rank v := by
  -- one case per pair of classes; the two finite cases of one sign are lexicographic
  cases u with
  | notANumber => exact absurd rfl hu
  | infinity s => cases v with
    | notANumber => exact absurd rfl hv
    | infinity t => cases s <;> cases t <;> decide
    | zero t => cases s <;> cases t <;> decide
    | finite t n f hn =>
      cases s <;> cases t <;> simp [UnpackedFloat.le, UnpackedFloat.compare, rank, Prod.Lex.le_iff]
  | zero s => cases v with
    | notANumber => exact absurd rfl hv
    | infinity t => cases s <;> cases t <;> decide
    | zero t => cases s <;> cases t <;> decide
    | finite t n f hn =>
      cases s <;> cases t <;> simp [UnpackedFloat.le, UnpackedFloat.compare, rank, Prod.Lex.le_iff]
  | finite s m e hm => cases v with
    | notANumber => exact absurd rfl hv
    | infinity t =>
      cases s <;> cases t <;> simp [UnpackedFloat.le, UnpackedFloat.compare, rank, Prod.Lex.le_iff]
    | zero t =>
      cases s <;> cases t <;> simp [UnpackedFloat.le, UnpackedFloat.compare, rank, Prod.Lex.le_iff]
    | finite t n f hn =>
      cases s <;> cases t <;>
        simp [UnpackedFloat.le, UnpackedFloat.compare, rank, Prod.Lex.le_iff, isLE_then_compare,
          isGE_then_compare]

/-- A double that is a number, not `NaN`. -/
def IsNumber (x : Float) : Prop := x.toModel.unpack ≠ .notANumber

/-- The rank of a double. -/
def place (x : Float) : Int ×ₗ Int ×ₗ Int := rank x.toModel.unpack

theorem float_le_iff_unpack (a b : Float) : a ≤ b ↔ a.toModel.unpack.le b.toModel.unpack = true := by
  show a.le b = true ↔ _
  simp only [Float.le, decide_eq_true_eq]
  rfl

/-- A double is below another exactly when both are numbers and its place is below. -/
theorem le_iff_place_le {a b : Float} : a ≤ b ↔ IsNumber a ∧ IsNumber b ∧ place a ≤ place b := by
  rw [float_le_iff_unpack]
  by_cases ha : IsNumber a
  · by_cases hb : IsNumber b
    · simp only [ha, hb, le_iff_rank_le ha hb, place, true_and]
    · have nan : b.toModel.unpack = .notANumber := Classical.not_not.mp hb
      simp only [hb, nan, false_and, and_false, iff_false]
      cases a.toModel.unpack <;> simp [UnpackedFloat.le, UnpackedFloat.compare]
  · have nan : a.toModel.unpack = .notANumber := Classical.not_not.mp ha
    simp [ha, nan, UnpackedFloat.le, UnpackedFloat.compare]

theorem isNumber_of_le_left {a b : Float} (h : a ≤ b) : IsNumber a := (le_iff_place_le.mp h).1

theorem isNumber_of_le_right {a b : Float} (h : a ≤ b) : IsNumber b := (le_iff_place_le.mp h).2.1

theorem float_le_trans {a b c : Float} (hab : a ≤ b) (hbc : b ≤ c) : a ≤ c := by
  obtain ⟨ha, -, pab⟩ := le_iff_place_le.mp hab
  obtain ⟨-, hc, pbc⟩ := le_iff_place_le.mp hbc
  exact le_iff_place_le.mpr ⟨ha, hc, pab.trans pbc⟩

theorem float_le_total {a b : Float} (ha : IsNumber a) (hb : IsNumber b) : a ≤ b ∨ b ≤ a := by
  rcases le_total (place a) (place b) with h | h
  · exact Or.inl (le_iff_place_le.mpr ⟨ha, hb, h⟩)
  · exact Or.inr (le_iff_place_le.mpr ⟨hb, ha, h⟩)

end Decimal
end AgentMemory
