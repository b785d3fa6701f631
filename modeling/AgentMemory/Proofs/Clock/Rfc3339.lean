import AgentMemory.Proofs.Clock.Civil

namespace AgentMemory
namespace Clock
namespace Instant

/-!
# RFC 3339 text read back

Instants are written as RFC 3339 text (`rfc3339`) and read by `parseStrict`, the strict
reader of documents, before the layout reader is tried.  Main statement:
`parseStrict_rfc3339`, every instant that has a written form (its year at its own offset
is 0..9999 and its offset is less than a day) and whose offset is a whole number of
minutes is read back as itself, the same moment at the same offset.

The proof reads the text piece by piece: each number is written with zeros in front to a
fixed width (`digitsValue_pad`), the fraction keeps the digits of the nanoseconds up to
the last non-zero one (`fracText_nine`), and the zone is `Z` or a signed `hh:mm`
(`strictZone_zoneText`).  `fields_spec` supplies, from the calendar, that the fields of
an instant are a valid date and time.

Whatever text is read, the instant read has an offset of whole minutes
(`parseRfc3339_minutes`), and one read by a list of layouts is in UTC
(`parseFirst_offset`): the second half of what reading back needs holds of every
instant a document can hold.
-/

theorem foldDigits_eq_ofDigitChars (xs : List Char) (init : Nat) :
    xs.foldl (fun acc c => acc * 10 + (c.toNat - 48)) init = Nat.ofDigitChars 10 xs init := by
  rw [Nat.ofDigitChars_eq_foldl]
  congr 1
  funext acc c
  simp [Nat.mul_comm]

theorem toList_pad (w n : Nat) :
    (pad w n).toList = List.replicate (w - (Nat.toDigits 10 n).length) '0' ++ Nat.toDigits 10 n := by
  simp [pad]

theorem length_pad {w n : Nat} (pos : 0 < w) (fits : n < 10 ^ w) : (pad w n).toList.length = w := by
  have short := (Nat.length_toDigits_le_iff (by decide) pos).mpr fits
  rw [toList_pad, List.length_append, List.length_replicate]
  omega

theorem isDigit_of_mem_pad {w n : Nat} {c : Char} (mem : c ∈ (pad w n).toList) : c.isDigit = true := by
  rw [toList_pad, List.mem_append] at mem
  rcases mem with zero | digit
  · rw [List.eq_of_mem_replicate zero]
    decide
  · exact Nat.isDigit_of_mem_toDigits (by decide) (by decide) digit

theorem ofDigitChars_pad (w n : Nat) : Nat.ofDigitChars 10 (pad w n).toList 0 = n := by
  rw [toList_pad, Nat.ofDigitChars_append, Nat.ofDigitChars_replicate_zero, Nat.mul_zero,
    Nat.ofDigitChars_ten_toDigits]

/-- A number written with enough digits reads back as itself. -/
theorem digitsValue_pad {w n : Nat} (pos : 0 < w) (fits : n < 10 ^ w) :
    digitsValue? (pad w n).toList = some n := by
  have nonempty : (pad w n).toList ≠ [] := by
    rw [← List.length_pos_iff, length_pad pos fits]
    exact pos
  have digits : (pad w n).toList.all Char.isDigit = true :=
    List.all_eq_true.mpr fun c mem => isDigit_of_mem_pad mem
  simp [digitsValue?, digits, nonempty, foldDigits_eq_ofDigitChars, ofDigitChars_pad]

theorem pad_two {n : Nat} (fits : n < 100) :
    ∃ a b : Char, (pad 2 n).toList = [a, b] ∧ digitsValue? [a, b] = some n := by
  have value := digitsValue_pad (w := 2) (by decide) fits
  match written : (pad 2 n).toList, length_pad (w := 2) (n := n) (by decide) fits with
  | [a, b], _ => exact ⟨a, b, rfl, written ▸ value⟩

theorem pad_four {n : Nat} (fits : n < 10000) :
    ∃ a b c d : Char, (pad 4 n).toList = [a, b, c, d] ∧ digitsValue? [a, b, c, d] = some n := by
  have value := digitsValue_pad (w := 4) (by decide) fits
  match written : (pad 4 n).toList, length_pad (w := 4) (n := n) (by decide) fits with
  | [a, b, c, d], _ => exact ⟨a, b, c, d, rfl, written ▸ value⟩


/-- A list is what is left of it after its trailing run of a character is dropped,
followed by that run. -/
theorem trimmed_append_run (l : List Char) (x : Char) :
    ((l.reverse.dropWhile (· == x)).reverse ++
      List.replicate (l.reverse.takeWhile (· == x)).length x) = l := by
  have run : l.reverse.takeWhile (· == x) = List.replicate (l.reverse.takeWhile (· == x)).length x := by
    apply List.eq_replicate_iff.mpr
    refine ⟨rfl, fun b mem => ?_⟩
    simpa using List.all_eq_true.mp List.all_takeWhile b mem
  have whole := congrArg List.reverse (List.takeWhile_append_dropWhile (p := (· == x)) (l := l.reverse))
  rw [List.reverse_append, List.reverse_reverse, run, List.reverse_replicate] at whole
  exact whole

/-- The fraction of a second is written as the digits of its nanoseconds, nine with zeros
in front, less their trailing zeros; reading those digits gives the nanoseconds back. -/
theorem fracText_nine {ns : Nat} (pos : 0 < ns) (lt : ns < 10 ^ 9) :
    ∃ ds : List Char, (fracText ns 9).1 = "." ++ String.ofList ds ∧ ds ≠ [] ∧
      (∀ c ∈ ds, c.isDigit = true) ∧ fractionNanos ds = ns := by
  have padded : List.replicate (9 - (Nat.toDigits 10 ns).length) '0' ++ Nat.toDigits 10 ns = (pad 9 ns).toList :=
    (toList_pad 9 ns).symm
  have whole : ns % 1000000000 = ns := Nat.mod_eq_of_lt (by omega)
  obtain ⟨ds, hds⟩ : ∃ ds, ds = ((pad 9 ns).toList.reverse.dropWhile (· == '0')).reverse := ⟨_, rfl⟩
  obtain ⟨k, hk⟩ : ∃ k, k = ((pad 9 ns).toList.reverse.takeWhile (· == '0')).length := ⟨_, rfl⟩
  have split : ds ++ List.replicate k '0' = (pad 9 ns).toList := by
    rw [hds, hk]
    exact trimmed_append_run _ _
  have len : ds.length + k = 9 := by
    have := congrArg List.length split
    rw [List.length_append, List.length_replicate, length_pad (by decide) lt] at this
    exact this
  have value : Nat.ofDigitChars 10 ds 0 * 10 ^ k = ns := by
    have := ofDigitChars_pad 9 ns
    rw [← split, Nat.ofDigitChars_append, Nat.ofDigitChars_replicate_zero] at this
    rw [Nat.mul_comm]
    exact this
  have digits : ∀ c ∈ ds, c.isDigit = true := fun c mem =>
    isDigit_of_mem_pad (split ▸ List.mem_append_left _ mem)
  refine ⟨ds, ?_, ?_, digits, ?_⟩
  · have present : ns ≠ 0 := by omega
    simp only [fracText, whole, padded]
    simp [present, hds]
  · rintro rfl
    simp [Nat.ofDigitChars] at value
    omega
  · have short : ds.take 9 = ds := List.take_of_length_le (by omega)
    simp only [fractionNanos, short, foldDigits_eq_ofDigitChars]
    rw [← value]
    congr
    omega

theorem zoneText_head (off : Int) :
    ∃ c rest, (zoneText off).toList = c :: rest ∧ c.isDigit = false ∧ c ≠ '.' := by
  unfold zoneText
  split
  · exact ⟨'Z', [], by simp, by decide, by decide⟩
  · by_cases neg : off < 0
    · exact ⟨'-', (pad 2 (off.natAbs / 60 / 60)).toList ++ ':' :: (pad 2 (off.natAbs / 60 % 60)).toList,
        by simp [neg], by decide, by decide⟩
    · exact ⟨'+', (pad 2 (off.natAbs / 60 / 60)).toList ++ ':' :: (pad 2 (off.natAbs / 60 % 60)).toList,
        by simp [neg], by decide, by decide⟩

theorem takeWhile_digits_zone {ds : List Char} (digits : ∀ c ∈ ds, c.isDigit = true) (off : Int) :
    (ds ++ (zoneText off).toList).takeWhile Char.isDigit = ds := by
  obtain ⟨c, rest, hz, notDigit, -⟩ := zoneText_head off
  rw [List.takeWhile_append_of_pos digits, hz, List.takeWhile_cons_of_neg (by simp [notDigit]),
    List.append_nil]

/-- The written fraction of the second, followed by the zone, reads back as the
nanoseconds, leaving the zone. -/
theorem strictFraction_written {ns : Nat} (lt : ns < 10 ^ 9) (off : Int) :
    strictFraction ((if ns = 0 then "" else (fracText ns 9).1).toList ++ (zoneText off).toList) =
      (ns, (zoneText off).toList) := by
  rcases Nat.eq_zero_or_pos ns with none | some
  · subst none
    obtain ⟨c, rest, hz, -, notPoint⟩ := zoneText_head off
    simp only [if_true, String.toList_empty, List.nil_append, hz]
    unfold strictFraction
    split
    · rename_i same
      exact absurd (List.cons.inj same).1 notPoint
    · rfl
  · obtain ⟨ds, hfrac, filled, digits, value⟩ := fracText_nine some lt
    obtain ⟨d0, drest, rfl⟩ := List.exists_cons_of_ne_nil filled
    have taken := takeWhile_digits_zone digits off
    simp only [List.cons_append] at taken
    have skip : 1 + (drest.length + 1) = drest.length + 1 + 1 := by omega
    simp [Nat.pos_iff_ne_zero.mp some, hfrac, strictFraction, digits d0 (by simp), taken, value, skip]

/-- A zone of whole minutes, less than a day from UTC, reads back as its offset. -/
theorem strictZone_zoneText {off : Int} (minutes : off % 60 = 0) (day : off = 0 ∨ off.natAbs / 3600 < 24) :
    strictZone (zoneText off).toList = some off := by
  by_cases utc : off = 0
  · subst utc
    rfl
  · have hours := day.resolve_left utc
    obtain ⟨a, b, hab, vab⟩ := pad_two (n := off.natAbs / 60 / 60) (by omega)
    obtain ⟨c, d, hcd, vcd⟩ := pad_two (n := off.natAbs / 60 % 60) (by omega)
    by_cases neg : off < 0
    · have size : (off.natAbs : Int) = -off := by omega
      simp [zoneText, utc, neg, hab, hcd, strictZone, vab, vcd, abs_of_neg neg]
      omega
    · have size : (off.natAbs : Int) = off := by omega
      simp [zoneText, utc, neg, hab, hcd, strictZone, vab, vcd, abs_of_nonneg (not_lt.mp neg)]
      omega

theorem daysIn_le (m : Nat) (y : Int) : daysIn m y ≤ 31 := by
  unfold daysIn
  split
  · split <;> omega
  · split <;> omega

/-- Strict RFC 3339 text of a valid date and time, with a zone of whole minutes less than a
day from UTC, reads back as the instant it names. -/
theorem parseStrict_written {y : Int} {mo d h mi s ns : Nat} {off : Int}
    (hy : 0 ≤ y ∧ y ≤ 9999) (hmo : 1 ≤ mo ∧ mo ≤ 12) (hd : 1 ≤ d ∧ d ≤ daysIn mo y)
    (hh : h ≤ 23) (hmi : mi ≤ 59) (hs : s ≤ 59) (hns : ns < 10 ^ 9)
    (minutes : off % 60 = 0) (day : off = 0 ∨ off.natAbs / 3600 < 24) :
    parseStrict (yearText y ++ "-" ++ pad 2 mo ++ "-" ++ pad 2 d ++ "T" ++ pad 2 h ++ ":" ++ pad 2 mi ++
      ":" ++ pad 2 s ++ (if ns == 0 then "" else (fracText ns 9).1) ++ zoneText off) =
      some ⟨(ofCivil y mo d h mi s ns).nanos - off * 1000000000, off⟩ := by
  have year : yearText y = pad 4 y.toNat := by simp [yearText, show ¬ y < 0 by omega]
  obtain ⟨y1, y2, y3, y4, hY, vY⟩ := pad_four (n := y.toNat) (by omega)
  obtain ⟨m1, m2, hM, vM⟩ := pad_two (n := mo) (by omega)
  obtain ⟨d1, d2, hD, vD⟩ := pad_two (n := d) (by have := daysIn_le mo y; omega)
  obtain ⟨h1, h2, hH, vH⟩ := pad_two (n := h) (by omega)
  obtain ⟨i1, i2, hI, vI⟩ := pad_two (n := mi) (by omega)
  obtain ⟨s1, s2, hS, vS⟩ := pad_two (n := s) (by omega)
  have text : (yearText y ++ "-" ++ pad 2 mo ++ "-" ++ pad 2 d ++ "T" ++ pad 2 h ++ ":" ++ pad 2 mi ++
      ":" ++ pad 2 s ++ (if ns == 0 then "" else (fracText ns 9).1) ++ zoneText off).toList =
      y1 :: y2 :: y3 :: y4 :: '-' :: m1 :: m2 :: '-' :: d1 :: d2 :: 'T' :: h1 :: h2 :: ':' :: i1 :: i2 ::
        ':' :: s1 :: s2 :: ((if ns == 0 then "" else (fracText ns 9).1).toList ++ (zoneText off).toList) := by
    simp only [String.toList_append, year, hY, hM, hD, hH, hI, hS]
    simp
  have yearBack : ((y.toNat : Nat) : Int) = y := Int.toNat_of_nonneg hy.1
  simp only [parseStrict, text]
  simp [vY, vM, vD, vH, vI, vS, yearBack, strictFraction_written hns off, strictZone_zoneText minutes day]
  omega

/-- The civil fields of an instant at its own offset form a valid date and time, and they
name the instant moved by its offset. -/
theorem fields_spec {t : Instant} {y : Int} {mo d h mi s ns : Nat}
    (found : t.fields = (y, mo, d, h, mi, s, ns)) :
    1 ≤ mo ∧ mo ≤ 12 ∧ 1 ≤ d ∧ d ≤ daysIn mo y ∧ h ≤ 23 ∧ mi ≤ 59 ∧ s ≤ 59 ∧ ns < 10 ^ 9 ∧
      (ofCivil y mo d h mi s ns).nanos = t.nanos + t.offset * 1000000000 := by
  rcases date : civilFromDays ((t.nanos + t.offset * 1000000000) / 1000000000 / 86400) with ⟨y', m', d'⟩
  obtain ⟨m1, m12, d1, dLast, back⟩ := civilFromDays_spec date
  simp only [fields, date, Prod.mk.injEq] at found
  obtain ⟨rfl, rfl, rfl, rfl, rfl, rfl, rfl⟩ := found
  refine ⟨m1, m12, d1, dLast, by omega, by omega, by omega, by omega, ?_⟩
  simp only [ofCivil, back]
  omega

/-- An instant with a written form, at an offset of whole minutes, is read back from its
RFC 3339 text exactly: the same moment at the same offset. -/
theorem parseStrict_rfc3339 (t : Instant) (writable : t.writable) (minutes : t.offset % 60 = 0) :
    parseStrict t.rfc3339 = some t := by
  rcases found : t.fields with ⟨y, mo, d, h, mi, s, ns⟩
  obtain ⟨m1, m12, d1, dLast, hh, hmi, hs, hns, back⟩ := fields_spec found
  have year : t.year = y := by simp [year, found]
  have allowed : (0 ≤ y ∧ y ≤ 9999) ∧ (t.offset = 0 ∨ t.offset.natAbs / 3600 < 24) := by
    simp only [Instant.writable, encodingProblem?, year] at writable
    split at writable
    · simp at writable
    · split at writable
      · simp at writable
      · rename_i inRange zoneOk
        simp at inRange zoneOk
        omega
  simp only [rfc3339, found]
  rw [parseStrict_written allowed.1 ⟨m1, m12⟩ ⟨d1, dLast⟩ hh hmi hs hns minutes allowed.2, back]
  congr 1
  cases t
  simp

theorem parseRfc3339_rfc3339 (t : Instant) (writable : t.writable) (minutes : t.offset % 60 = 0) :
    parseRfc3339 t.rfc3339 = some t := by
  simp [parseRfc3339, parseStrict_rfc3339 t writable minutes]

/-! ## Offsets of read instants -/

theorem strictZone_minutes {rest : List Char} {off : Int} (found : strictZone rest = some off) :
    off % 60 = 0 := by
  unfold strictZone at found
  split at found
  · cases found
    rfl
  · split at found
    · split at found
      · cases found
        split <;> omega
      · cases found
    · cases found
  · cases found

theorem parseStrict_minutes {s : String} {t : Instant} (found : parseStrict s = some t) :
    t.offset % 60 = 0 := by
  unfold parseStrict at found
  dsimp only at found
  split at found
  · cases found
  · split at found
    · split at found
      · cases found
      · split at found
        · cases found
        · obtain ⟨off, zone, rfl⟩ := Option.map_eq_some_iff.mp found
          exact strictZone_minutes zone
    · cases found

theorem Piece.step_offset {piece : Piece} {fractionNext : Bool} {cs cs' : List Char} {p p' : Partial}
    (notZone : piece ≠ .zone) (stepped : piece.step fractionNext cs p = some (cs', p')) :
    p'.offset = p.offset := by
  cases piece with
  | zone => exact absurd rfl notZone
  | year | day =>
    obtain ⟨⟨v, r⟩, -, same⟩ := Option.map_eq_some_iff.mp stepped
    cases same
    rfl
  | month | hour | minute =>
    obtain ⟨⟨v, r⟩, -, read⟩ := Option.bind_eq_some_iff.mp stepped
    dsimp only at read
    split_ifs at read
    cases read
    rfl
  | second =>
    obtain ⟨⟨v, r⟩, -, read⟩ := Option.bind_eq_some_iff.mp stepped
    dsimp only at read
    split_ifs at read
    · cases read
      rfl
    · split at read <;> cases read <;> rfl
  | fraction =>
    simp only [Piece.step] at stepped
    split at stepped <;> cases stepped <;> rfl
  | lit c =>
    simp only [Piece.step] at stepped
    split_ifs at stepped <;> split at stepped <;> (try split_ifs at stepped) <;> cases stepped <;> rfl

theorem Piece.step_minutes {piece : Piece} {fractionNext : Bool} {cs cs' : List Char} {p p' : Partial}
    (stepped : piece.step fractionNext cs p = some (cs', p')) (whole : p.offset % 60 = 0) :
    p'.offset % 60 = 0 := by
  by_cases zone : piece = .zone
  · subst zone
    simp only [Piece.step] at stepped
    grind
  · rw [Piece.step_offset zone stepped]
    exact whole

theorem readLayout_minutes (layout : List Piece) (cs : List Char) (p q : Partial)
    (read : readLayout layout cs p = some q) (whole : p.offset % 60 = 0) : q.offset % 60 = 0 := by
  induction layout generalizing cs p with
  | nil =>
    simp only [readLayout, Option.ite_none_right_eq_some, Option.some.injEq] at read
    rw [← read.2]
    exact whole
  | cons piece rest ih =>
    obtain ⟨⟨cs', p'⟩, stepped, later⟩ := Option.bind_eq_some_iff.mp read
    exact ih cs' p' later (Piece.step_minutes stepped whole)

theorem parseLayout_minutes {layout : List Piece} {s : String} {t : Instant}
    (found : parseLayout layout s = some t) : t.offset % 60 = 0 := by
  obtain ⟨p, read, made⟩ := Option.bind_eq_some_iff.mp found
  have whole : p.offset % 60 = 0 := readLayout_minutes layout s.toList {} p read rfl
  unfold Partial.toInstant? at made
  split at made
  · cases made
  · cases made
    exact whole

/-- Every instant read as RFC 3339 text has an offset of whole minutes. -/
theorem parseRfc3339_minutes {s : String} {t : Instant} (found : parseRfc3339 s = some t) :
    t.offset % 60 = 0 := by
  unfold parseRfc3339 at found
  split at found
  · rename_i strict
    cases found
    exact parseStrict_minutes strict
  · exact parseLayout_minutes found

/-- An instant read by the first fitting layout is in UTC. -/
theorem parseFirst_offset {layouts : List (List Piece)} {s : String} {t : Instant}
    (found : parseFirst layouts s = some t) : t.offset = 0 := by
  induction layouts with
  | nil => cases found
  | cons l ls ih =>
    unfold parseFirst at found
    dsimp only at found
    -- which reader the layout takes does not matter: a fit is put in UTC
    generalize (if l == rfc3339Layout then parseRfc3339 s else parseLayout l s) = attempt at found
    cases attempt with
    | some u =>
      cases found
      rfl
    | none => exact ih found

theorem utc_eq_self {t : Instant} (utc : t.offset = 0) : t.utc = t := by
  cases t
  simp_all [Instant.utc]

end Instant
end Clock
end AgentMemory
