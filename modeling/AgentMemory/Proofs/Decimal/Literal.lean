import Mathlib
import AgentMemory.Proofs.Decimal.Digits
import AgentMemory.Proofs.Json.Records

/-!
# Reading back the text of a double

A double is written into documents as the text `documentText` gives, its sign and its
shortest digits in positional or scientific layout, and read back by `literalFloat`: the
sign, the digits as a natural number and a decimal exponent (`numberParts`), and the double
nearest to that decimal.  Main statement: `literalFloat_documentText`, reading the text of a
finite double gives the double back.

Each layout reads back as the value of the digits (`numberParts_positional`,
`numberParts_scientific`), the sign in front as the sign (`numberParts_signed`); the digits
round to the double (`shortest_rounds`), so the reader returns the double its bits hold
without their sign (`nearest_of_rounds`), which with the sign is the double itself
(`eq_signed_magnitude`).  Whatever the text, a literal that does not overflow reads as a
finite double (`literalFloat_finite`).
-/

namespace AgentMemory
namespace Json

section Literal

variable {ints fracs : List Char} (whole : ∀ c ∈ ints, c.isDigit = true) (first : ints.head? ≠ some '-')
include whole first

theorem numberParts_digits : numberParts (String.ofList ints) = (false, Nat.ofDigitChars 10 ints 0, 0) := by
  have ints_take : ints.takeWhile Char.isDigit = ints := List.takeWhile_eq_self_iff.mpr whole
  simp only [numberParts, String.toList_ofList]
  split
  · simp_all
  · simp [ints_take, Clock.Instant.foldDigits_eq_ofDigitChars]

theorem numberParts_point (part : ∀ c ∈ fracs, c.isDigit = true) :
    numberParts (String.ofList (ints ++ '.' :: fracs)) =
      (false, Nat.ofDigitChars 10 (ints ++ fracs) 0, -(fracs.length : ℤ)) := by
  have ints_take : (ints ++ '.' :: fracs).takeWhile Char.isDigit = ints := by
    rw [List.takeWhile_append_of_pos whole, List.takeWhile_cons_of_neg (by decide), List.append_nil]
  have fracs_take : fracs.takeWhile Char.isDigit = fracs := List.takeWhile_eq_self_iff.mpr part
  have fracs_drop : fracs.dropWhile Char.isDigit = [] := List.dropWhile_eq_nil_iff.mpr part
  simp only [numberParts, String.toList_ofList]
  split
  · rename_i rest same
    cases ints with
    | nil => simp at same
    | cons c ints => simp_all
  · simp [ints_take, fracs_take, fracs_drop, Clock.Instant.foldDigits_eq_ofDigitChars, Nat.ofDigitChars_append]

variable {s : Char} {exps : List Char} (sign : s = '-' ∨ s = '+')
include sign

theorem numberParts_digits_exponent :
    numberParts (String.ofList (ints ++ 'e' :: s :: exps)) =
      (false, Nat.ofDigitChars 10 ints 0, (if s = '-' then -1 else 1) * (Nat.ofDigitChars 10 exps 0 : ℤ)) := by
  have ints_take : (ints ++ 'e' :: s :: exps).takeWhile Char.isDigit = ints := by
    rw [List.takeWhile_append_of_pos whole, List.takeWhile_cons_of_neg (by decide), List.append_nil]
  simp only [numberParts, String.toList_ofList]
  split
  · rename_i rest same
    cases ints with
    | nil => simp at same
    | cons c ints => simp_all
  · rcases sign with rfl | rfl <;>
      simp [ints_take, Clock.Instant.foldDigits_eq_ofDigitChars]

theorem numberParts_point_exponent (part : ∀ c ∈ fracs, c.isDigit = true) :
    numberParts (String.ofList (ints ++ '.' :: (fracs ++ 'e' :: s :: exps))) =
      (false, Nat.ofDigitChars 10 (ints ++ fracs) 0,
        (if s = '-' then -1 else 1) * (Nat.ofDigitChars 10 exps 0 : ℤ) - fracs.length) := by
  have ints_take : (ints ++ '.' :: (fracs ++ 'e' :: s :: exps)).takeWhile Char.isDigit = ints := by
    rw [List.takeWhile_append_of_pos whole, List.takeWhile_cons_of_neg (by decide), List.append_nil]
  have fracs_take : (fracs ++ 'e' :: s :: exps).takeWhile Char.isDigit = fracs := by
    rw [List.takeWhile_append_of_pos part, List.takeWhile_cons_of_neg (by decide), List.append_nil]
  have fracs_drop : (fracs ++ 'e' :: s :: exps).dropWhile Char.isDigit = 'e' :: s :: exps := by
    rw [List.dropWhile_append_of_pos part, List.dropWhile_cons_of_neg (by decide)]
  simp only [numberParts, String.toList_ofList]
  split
  · rename_i rest same
    cases ints with
    | nil => simp at same
    | cons c ints => simp_all
  · rcases sign with rfl | rfl <;>
      simp [ints_take, fracs_take, fracs_drop, Clock.Instant.foldDigits_eq_ofDigitChars, Nat.ofDigitChars_append]

end Literal

theorem unsigned_of_numberParts {lit : String} (unsigned : (numberParts lit).1 = false) :
    lit.toList.head? ≠ some '-' := by
  intro minus
  obtain ⟨rest, text⟩ : ∃ rest, lit.toList = '-' :: rest := by
    cases h : lit.toList with
    | nil => simp [h] at minus
    | cons c rest =>
      simp only [h, List.head?_cons, Option.some.injEq] at minus
      exact ⟨rest, by rw [minus]⟩
  simp [numberParts, text] at unsigned

/-- A minus sign in front of a literal without one makes it negative and reads the rest
alike. -/
theorem numberParts_minus {cs : List Char} (unsigned : cs.head? ≠ some '-') :
    numberParts (String.ofList ('-' :: cs)) = (true, (numberParts (String.ofList cs)).2) := by
  cases cs with
  | nil => rfl
  | cons c rest =>
    have : c ≠ '-' := by simpa using unsigned
    simp [numberParts, this]

/-- A sign written in front of an unsigned literal is read as its sign. -/
theorem numberParts_signed (neg : Bool) {body : String} (unsigned : (numberParts body).1 = false) :
    numberParts ((if neg then "-" else "") ++ body) = (neg, (numberParts body).2) := by
  cases neg with
  | false =>
    rw [if_neg (by decide), String.empty_append]
    exact Prod.ext unsigned rfl
  | true =>
    have text : "-" ++ body = String.ofList ('-' :: body.toList) := by
      apply String.ext
      simp
    rw [if_pos rfl, text, numberParts_minus (unsigned_of_numberParts unsigned), String.ofList_toList]

end Json

namespace Decimal

open Json

theorem head_ne_minus {cs : List Char} (digits : ∀ c ∈ cs, c.isDigit = true) : cs.head? ≠ some '-' := by
  cases cs with
  | nil => simp
  | cons c rest =>
    intro same
    simp only [List.head?_cons, Option.some.injEq] at same
    have := digits c (by simp)
    rw [same] at this
    exact absurd this (by decide)

theorem isDigit_ofNat {n : ℕ} (small : n < 10) : (Char.ofNat ('0'.toNat + n)).isDigit = true := by
  have code : (Char.ofNat ('0'.toNat + n)).toNat = 48 + n := by
    rw [Char.toNat_ofNat, if_pos (Or.inl (by simp [Char.toNat]; omega))]
    rfl
  simp only [Char.isDigit, Bool.and_eq_true, decide_eq_true_eq, ge_iff_le, UInt32.le_iff_toNat_le]
  change 48 ≤ (Char.ofNat _).toNat ∧ (Char.ofNat _).toNat ≤ 57
  omega

theorem isDigit_digitChars {ds : List ℕ} (small : ∀ n ∈ ds, n < 10) : ∀ c ∈ digitChars ds, c.isDigit = true := by
  intro c mem
  obtain ⟨n, listed, rfl⟩ := List.mem_map.mp mem
  exact isDigit_ofNat (small n listed)

theorem isDigit_zeros (k : ℕ) : ∀ c ∈ zeros k, c.isDigit = true := by
  intro c mem
  rw [List.eq_of_mem_replicate mem]
  decide

theorem ofDigitChars_zeros_append (k : ℕ) (cs : List Char) :
    Nat.ofDigitChars 10 (zeros k ++ cs) 0 = Nat.ofDigitChars 10 cs 0 := by
  rw [Nat.ofDigitChars_append, zeros, Nat.ofDigitChars_replicate_zero, Nat.mul_zero]

/-- The positional layout of a decimal reads back as its value, unsigned. -/
theorem numberParts_positional {d : Digits} (spelled : d.Spelled) :
    (numberParts d.positional).1 = false ∧
      ((numberParts d.positional).2.1 : ℚ) * 10 ^ (numberParts d.positional).2.2 = d.value := by
  have digits := isDigit_digitChars spelled.small
  have length : (digitChars d.digits).length = d.digits.length := List.length_map _
  have nonempty : digitChars d.digits ≠ [] := by simpa [digitChars] using spelled.nonempty
  unfold Digits.positional
  dsimp only
  split
  · rename_i before
    have text : ['0', '.'] ++ zeros d.point.natAbs ++ digitChars d.digits =
        ['0'] ++ '.' :: (zeros d.point.natAbs ++ digitChars d.digits) := rfl
    have zero_digit : ∀ c ∈ ['0'], c.isDigit = true := by
      intro c mem
      rw [List.mem_singleton.mp mem]
      rfl
    rw [text, numberParts_point zero_digit (by simp)]
    · have zero : Nat.ofDigitChars 10 ['0'] 0 = 0 := rfl
      refine ⟨rfl, ?_⟩
      dsimp only
      rw [Nat.ofDigitChars_append, zero, ofDigitChars_zeros_append, Digits.value, List.length_append, zeros,
        List.length_replicate, length]
      congr 1
      push_cast
      rw [abs_of_nonpos before]
      congr 1
      ring
    · intro c mem
      rcases List.mem_append.mp mem with zero | digit
      · exact isDigit_zeros _ c zero
      · exact digits c digit
  · rename_i after
    split
    · rename_i whole
      have padded : ∀ c ∈ digitChars d.digits ++ zeros (d.point.toNat - (digitChars d.digits).length),
          c.isDigit = true := by
        intro c mem
        rcases List.mem_append.mp mem with digit | zero
        · exact digits c digit
        · exact isDigit_zeros _ c zero
      have first : (digitChars d.digits ++ zeros (d.point.toNat - (digitChars d.digits).length)).head? ≠
          some '-' := head_ne_minus padded
      have shift : ((d.point.toNat - d.digits.length : ℕ) : ℤ) = d.point - d.digits.length := by omega
      rw [numberParts_digits padded first]
      refine ⟨rfl, ?_⟩
      dsimp only
      rw [Nat.ofDigitChars_append, zeros, Nat.ofDigitChars_replicate_zero, Digits.value, length]
      push_cast
      rw [mul_one, ← zpow_natCast, shift, mul_comm]
    · rename_i inside
      have split_at : digitChars d.digits = (digitChars d.digits).take d.point.toNat ++
          (digitChars d.digits).drop d.point.toNat := (List.take_append_drop _ _).symm
      have text : (digitChars d.digits).take d.point.toNat ++ ['.'] ++ (digitChars d.digits).drop d.point.toNat =
          (digitChars d.digits).take d.point.toNat ++ '.' :: (digitChars d.digits).drop d.point.toNat := by simp
      have first : ((digitChars d.digits).take d.point.toNat).head? ≠ some '-' :=
        head_ne_minus (fun c mem => digits c (List.mem_of_mem_take mem))
      have shift : -(((d.digits.length - d.point.toNat : ℕ) : ℤ)) = d.point - d.digits.length := by omega
      rw [text, numberParts_point (fun c mem => digits c (List.mem_of_mem_take mem)) first
        (fun c mem => digits c (List.mem_of_mem_drop mem))]
      refine ⟨rfl, ?_⟩
      dsimp only
      rw [← split_at, Digits.value, List.length_drop, length, shift]

theorem exponentText_value (e : ℤ) (width : ℕ) :
    ∃ s padded, exponentText e width = String.ofList (s :: padded) ∧ (s = '-' ∨ s = '+') ∧
      (if s = '-' then -1 else 1) * (Nat.ofDigitChars 10 padded 0 : ℤ) = e := by
  refine ⟨if e < 0 then '-' else '+', zeros (width - (Nat.toDigits 10 e.natAbs).length) ++ Nat.toDigits 10 e.natAbs,
    rfl, by split <;> simp, ?_⟩
  rw [ofDigitChars_zeros_append, Nat.ofDigitChars_ten_toDigits]
  split
  · rename_i neg
    simp only [if_true]
    omega
  · rename_i nonneg
    simp only [show ('+' = '-') = False by decide, if_false]
    omega

/-- The scientific layout of a decimal reads back as its value, unsigned. -/
theorem numberParts_scientific {d : Digits} (spelled : d.Spelled) (width : ℕ) :
    (numberParts (d.scientific width)).1 = false ∧
      ((numberParts (d.scientific width)).2.1 : ℚ) * 10 ^ (numberParts (d.scientific width)).2.2 = d.value := by
  have digits := isDigit_digitChars spelled.small
  have length : (digitChars d.digits).length = d.digits.length := List.length_map _
  obtain ⟨s, padded, exponent, sign, power⟩ := exponentText_value (d.point - 1) width
  unfold Digits.scientific
  rw [exponent, Digits.value, ← length]
  generalize chars : digitChars d.digits = cs at digits ⊢
  rcases cs with _ | ⟨c, _ | ⟨r, rest⟩⟩
  · have : d.digits = [] := List.map_eq_nil_iff.mp chars
    exact absurd this spelled.nonempty
  · -- one digit: no point before the exponent
    have text : String.ofList [c] ++ "e" ++ String.ofList (s :: padded) = String.ofList ([c] ++ 'e' :: s :: padded) := by
      apply String.ext
      simp
    dsimp only
    rw [text, numberParts_digits_exponent digits (head_ne_minus digits) sign]
    refine ⟨rfl, ?_⟩
    dsimp only
    rw [power]
    simp
  · -- the first digit, the point and the others before the exponent
    have text : String.ofList (c :: '.' :: r :: rest) ++ "e" ++ String.ofList (s :: padded) =
        String.ofList ([c] ++ '.' :: ((r :: rest) ++ 'e' :: s :: padded)) := by
      apply String.ext
      simp
    have first : ∀ x ∈ [c], x.isDigit = true := fun x mem => digits x (by simp_all)
    dsimp only
    rw [text, numberParts_point_exponent first (head_ne_minus first) sign (fun x mem => digits x (by simp [mem]))]
    refine ⟨rfl, ?_⟩
    dsimp only
    rw [power]
    congr 1
    simp
    ring

/-- The document text of a double is its sign and an unsigned literal that reads as the
value of its shortest digits. -/
theorem documentText_parts (x : Float) (spelled : (shortestOf x).2.Spelled) :
    ∃ body, documentText x = (if (shortestOf x).1 then "-" else "") ++ body ∧ (numberParts body).1 = false ∧
      ((numberParts body).2.1 : ℚ) * 10 ^ (numberParts body).2.2 = (shortestOf x).2.value := by
  rcases digits : shortestOf x with ⟨neg, d⟩
  rw [digits] at spelled
  simp only [documentText, digits]
  split
  · exact ⟨_, rfl, numberParts_scientific spelled _⟩
  · exact ⟨_, rfl, numberParts_positional spelled⟩

/-- The digits `shortestOf` gives a finite double: `0` for zero, and otherwise digits that
round to the value of its bits. -/
theorem shortestOf_spec (x : Float) :
    (shortestOf x).1 = (x.toBits >>> 63 == 1) ∧ (shortestOf x).2.Spelled ∧
      ((Binary.ofBits x.toBits).m = 0 → (shortestOf x).2.value = 0) ∧
      (0 < (Binary.ofBits x.toBits).m → (Binary.ofBits x.toBits).Rounds (shortestOf x).2.value) := by
  unfold shortestOf
  dsimp only
  split
  · rename_i zero
    have zero : (Binary.ofBits x.toBits).m = 0 := by simpa using zero
    have spelled_zero : Nat.ofDigitChars 10 (digitChars [0]) 0 = 0 := rfl
    refine ⟨rfl, ⟨by simp, by simp⟩, fun _ => by simp [Digits.value, spelled_zero], fun pos => by omega⟩
  · rename_i nonzero
    have pos : 0 < (Binary.ofBits x.toBits).m := Nat.pos_of_ne_zero (by simpa using nonzero)
    obtain ⟨spelled, rounds⟩ := shortest_rounds _ pos
    exact ⟨rfl, spelled, fun zero => by omega, fun _ => rounds⟩

theorem zero_eq_ofBits : (0 : Float) = Float.ofBits 0 := by
  have bits : (0 : Float).toBits = 0 := by decide +kernel
  rw [← bits, Float.ofBits_toBits]

/-- Reading the document text of a finite double gives the double back. -/
theorem literalFloat_documentText (x : Float) (finite : isFiniteValue x = true) :
    literalFloat (documentText x) = x := by
  obtain ⟨sign, spelled, zero_value, rounds⟩ := shortestOf_spec x
  obtain ⟨body, text, unsigned, value⟩ := documentText_parts x spelled
  have signed := eq_signed_magnitude x finite
  rw [← packBits_ofBits finite, ← sign] at signed
  unfold literalFloat
  rw [text, numberParts_signed _ unsigned]
  dsimp only
  have magnitude : nearest (numberParts body).2.1 (numberParts body).2.2 =
      Float.ofBits (packBits (Binary.ofBits x.toBits).m (Binary.ofBits x.toBits).q) := by
    rcases Nat.eq_zero_or_pos (Binary.ofBits x.toBits).m with zero | pos
    · have digits_zero : (numberParts body).2.1 = 0 := by
        have := value.trans (zero_value zero)
        rcases mul_eq_zero.mp this with h | h
        · exact_mod_cast h
        · exact absurd h (by positivity)
      rw [zero, digits_zero]
      simp [nearest, packBits, ← zero_eq_ofBits]
    · have canon := canonical_ofBits finite pos.ne'
      have reads := value ▸ rounds pos
      have digits_pos : 0 < (numberParts body).2.1 := by
        have positive : (0 : ℚ) < (numberParts body).2.1 * 10 ^ (numberParts body).2.2 :=
          lt_of_lt_of_le (by positivity) (reads.bounds canon).1
        exact_mod_cast pos_of_mul_pos_left positive (by positivity)
      exact nearest_of_rounds canon digits_pos reads
  rw [magnitude]
  exact signed.symm

/-- A literal that does not overflow reads as a finite double: `nearest` gives zero, the
overflow value or the double of bits below the top exponent, and negation keeps that. -/
theorem literalFloat_finite (lit : String) (bounded : (literalFloat lit).isInf = false) :
    isFiniteValue (literalFloat lit) = true := by
  have zero : isFiniteValue (0 : Float) = true := by decide +kernel
  have neg_zero : isFiniteValue (-0 : Float) = true := by decide +kernel
  have overflow : (Float.ofScientific 1 false 400).isInf = true := by decide +kernel
  have neg_overflow : (-Float.ofScientific 1 false 400).isInf = true := by decide +kernel
  unfold literalFloat at bounded ⊢
  rcases parts : numberParts lit with ⟨neg, M, E⟩
  simp only [parts] at bounded ⊢
  rcases nearest_cases M E with near | near | ⟨c, below, near⟩ <;> rw [near] at bounded ⊢ <;> cases neg
  · exact zero
  · exact neg_zero
  · simp [overflow] at bounded
  · simp [neg_overflow] at bounded
  · exact ofBits_finite (by omega)
  · -- the bits with the sign bit set, the exponent field unchanged
    have lt : c.toNat < 2 ^ 63 := by omega
    obtain ⟨number, -⟩ := unpack_of_exponent_ne_top (b := c.toBitVec) (by simp only [UInt64.toNat_toBitVec]; omega)
    have sum : (c + 0x8000000000000000).toNat = c.toNat + 2 ^ 63 := by
      rw [UInt64.toNat_add]
      simp only [UInt64.reduceToNat]
      omega
    simp only [if_true]
    rw [neg_ofBits lt (by intro nan; simp [nan, Float.Model.UnpackedFloat.isNaN] at number)]
    exact ofBits_finite (by rw [sum]; omega)

/-! ## The text of a double is a literal of the grammar -/

/-- The digits of a decimal start with one other than zero, as the shortest digits of a
double other than zero do. -/
def Digits.Leading (d : Digits) : Prop := ∃ c t, digitChars d.digits = c :: t ∧ c ≠ '0'

theorem stripZeros_go_pos (fuel c : ℕ) (e : ℤ) (pos : 0 < c) : 0 < (stripZeros.go fuel c e).1 := by
  induction fuel generalizing c e with
  | zero => exact pos
  | succ fuel ih =>
    simp only [stripZeros.go]
    split
    · rename_i zero
      simp only [Bool.and_eq_true, bne_iff_ne, ne_eq, beq_iff_eq] at zero
      exact ih _ _ (by omega)
    · exact pos

theorem ofScaled_leading {c : ℕ} (e : ℤ) (pos : 0 < c) : (Digits.ofScaled c e).Leading := by
  have stripped : 0 < (stripZeros c e).1 := stripZeros_go_pos 20 c e pos
  rcases strip : stripZeros c e with ⟨c', e'⟩
  rw [strip] at stripped
  simp only [Digits.ofScaled, strip, Digits.Leading, digitChars_toDigits]
  exact toDigits_head_ne_zero c' stripped

/-- Every candidate the search of `shortest` returns is a positive number: the lower one is
taken only when it is not zero, and the upper one and the exact value are positive. -/
theorem search_leading (x : Binary) (pos : 0 < x.m) (k : ℤ) (n fuel : ℕ) :
    (Binary.shortest.search x k n fuel).Leading := by
  induction fuel generalizing n with
  | zero =>
    simp only [Binary.shortest.search]
    apply ofScaled_leading
    simp only [Nat.pow_eq]
    positivity
  | succ fuel ih =>
    simp only [Binary.shortest.search]
    split
    · rename_i both
      simp only [Bool.and_eq_true, bne_iff_ne, ne_eq] at both
      obtain ⟨⟨lo_pos, -⟩, -⟩ := both
      split
      · exact ofScaled_leading _ (by omega)
      · exact ofScaled_leading _ (Nat.pos_of_ne_zero lo_pos)
      · split
        · exact ofScaled_leading _ (Nat.pos_of_ne_zero lo_pos)
        · exact ofScaled_leading _ (by omega)
    · split
      · rename_i lo_ok
        simp only [Bool.and_eq_true, bne_iff_ne, ne_eq] at lo_ok
        exact ofScaled_leading _ (Nat.pos_of_ne_zero lo_ok.1)
      · split
        · exact ofScaled_leading _ (by omega)
        · exact ih (n + 1)

theorem shortest_leading (x : Binary) (pos : 0 < x.m) : x.shortest.Leading :=
  search_leading x pos x.scale 1 17

theorem shortestOf_leading (x : Float) : (shortestOf x).2 = ⟨[0], 1⟩ ∨ (shortestOf x).2.Leading := by
  unfold shortestOf
  dsimp only
  split
  · exact Or.inl rfl
  · rename_i nonzero
    exact Or.inr (shortest_leading _ (Nat.pos_of_ne_zero (by simpa using nonzero)))

/-- The positional layout of digits that lead with one other than zero, signed or not, is a
literal of the grammar. -/
theorem numberText_positional {d : Digits} (spelled : d.Spelled) (leading : d.Leading) {sign : List Char}
    (signed : sign = [] ∨ sign = ['-']) : NumberText (sign ++ d.positional.toList) := by
  have digits := isDigit_digitChars spelled.small
  obtain ⟨c, t, chars, nonzero⟩ := leading
  rw [chars] at digits
  unfold Digits.positional
  dsimp only
  rw [chars]
  split
  · -- `0.` and zeros in front of the digits
    refine ⟨sign, ['0'], '.' :: (zeros d.point.natAbs ++ c :: t), [], by simp, signed, Or.inl rfl,
      Or.inr ⟨_, rfl, by simp, ?_⟩, Or.inl rfl⟩
    intro x mem
    rcases List.mem_append.mp mem with zero | digit
    · exact isDigit_zeros _ x zero
    · exact digits x digit
  · split
    · -- the digits and zeros up to the point
      refine ⟨sign, c :: (t ++ zeros (d.point.toNat - (c :: t).length)), [], [], by simp, signed,
        Or.inr ⟨c, _, rfl, digits c (by simp), nonzero, ?_⟩, Or.inl rfl, Or.inl rfl⟩
      intro x mem
      rcases List.mem_append.mp mem with digit | zero
      · exact digits x (List.mem_cons_of_mem _ digit)
      · exact isDigit_zeros _ x zero
    · -- the point among the digits, after at least one of them
      rename_i before inside
      obtain ⟨p, point⟩ : ∃ p, d.point.toNat = p + 1 := ⟨d.point.toNat - 1, by omega⟩
      rw [point] at inside ⊢
      have within : p < t.length := by
        simp only [List.length_cons, ge_iff_le, not_le] at inside
        omega
      refine ⟨sign, c :: t.take p, '.' :: t.drop p, [], by simp, signed,
        Or.inr ⟨c, _, rfl, digits c (by simp), nonzero, fun x mem => digits x (by simp [List.mem_of_mem_take mem])⟩,
        Or.inr ⟨_, rfl, ⟨by simp; omega, fun x mem => digits x (List.mem_cons_of_mem _ (List.mem_of_mem_drop mem))⟩⟩,
        Or.inl rfl⟩

theorem exponentText_digits (e : ℤ) (width : ℕ) :
    ∃ s padded, exponentText e width = String.ofList (s :: padded) ∧ ExponentSign [s] ∧ DigitRun padded := by
  refine ⟨if e < 0 then '-' else '+', zeros (width - (Nat.toDigits 10 e.natAbs).length) ++ Nat.toDigits 10 e.natAbs,
    rfl, by split <;> simp [ExponentSign], by simp [Nat.toDigits_ne_nil], ?_⟩
  intro c mem
  rcases List.mem_append.mp mem with zero | digit
  · exact isDigit_zeros _ c zero
  · exact Nat.isDigit_of_mem_toDigits (by decide) (by decide) digit

theorem integerPart_digit {c : Char} (digit : c.isDigit = true) : IntegerPart [c] := by
  by_cases zero : c = '0'
  · exact Or.inl (by rw [zero])
  · exact Or.inr ⟨c, [], rfl, digit, zero, by simp⟩

theorem numberText_scientific {d : Digits} (spelled : d.Spelled) (width : ℕ) {sign : List Char}
    (signed : sign = [] ∨ sign = ['-']) : NumberText (sign ++ (d.scientific width).toList) := by
  have digits := isDigit_digitChars spelled.small
  obtain ⟨s, padded, exponent, expSign, run⟩ := exponentText_digits (d.point - 1) width
  have exponentPart : ExponentPart ('e' :: ([s] ++ padded)) := Or.inr ⟨'e', [s], padded, rfl, Or.inl rfl, expSign, run⟩
  unfold Digits.scientific
  rw [exponent]
  generalize chars : digitChars d.digits = cs at digits ⊢
  rcases cs with _ | ⟨c, _ | ⟨r, rest⟩⟩
  · exact absurd (List.map_eq_nil_iff.mp chars) spelled.nonempty
  · exact ⟨sign, [c], [], _, by simp, signed, integerPart_digit (digits c (by simp)), Or.inl rfl, exponentPart⟩
  · exact ⟨sign, [c], '.' :: r :: rest, _, by simp, signed, integerPart_digit (digits c (by simp)),
      Or.inr ⟨_, rfl, by simp, fun x mem => digits x (List.mem_cons_of_mem _ mem)⟩, exponentPart⟩

theorem numberText_documentText (x : Float) : NumberText (documentText x).toList := by
  obtain ⟨-, spelled, -, -⟩ := shortestOf_spec x
  have leading := shortestOf_leading x
  rcases digits : shortestOf x with ⟨neg, d⟩
  rw [digits] at spelled leading
  have signed : (if neg then "-" else "").toList = [] ∨ (if neg then "-" else "").toList = ['-'] := by
    cases neg <;> simp
  simp only [documentText, digits]
  split
  · rw [String.toList_append]
    exact numberText_scientific spelled _ signed
  · rw [String.toList_append]
    rcases leading with rfl | leading
    · have zero : (Digits.positional ⟨[0], 1⟩).toList = ['0'] := by decide
      rw [zero]
      exact ⟨_, ['0'], [], [], by simp, signed, Or.inl rfl, Or.inl rfl, Or.inl rfl⟩
    · exact numberText_positional spelled leading signed

end Decimal

namespace Json

/-- A finite double written as a document number reads back as itself. -/
theorem readFloat_ofFloat {x : Float} (finite : Decimal.isFiniteValue x = true) (current : Float) :
    readFloat (ofFloat x) current = .ok x := by
  have bounded : x.isInf = false := by
    simp only [Decimal.isFiniteValue, Bool.not_or, Bool.and_eq_true, Bool.not_eq_true'] at finite
    exact finite.2
  simp [readFloat, ofFloat, Decimal.literalFloat_documentText x finite, bounded]

theorem spelled_ofFloat (x : Float) : Spelled (ofFloat x) := by
  simp only [ofFloat, Spelled]
  exact Decimal.numberText_documentText x

theorem readFloat_finite {j : Json} {current x : Float} (read : readFloat j current = .ok x) :
    (j = .null ∧ x = current) ∨ Decimal.isFiniteValue x = true := by
  unfold readFloat at read
  split at read
  · cases read
    exact Or.inl ⟨rfl, rfl⟩
  · rename_i lit
    dsimp only at read
    split at read
    · cases read
    · rename_i bounded
      cases read
      exact Or.inr (Decimal.literalFloat_finite lit (by simpa using bounded))
  · cases read

end Json
end AgentMemory
