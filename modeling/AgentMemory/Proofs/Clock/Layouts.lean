import Mathlib
import AgentMemory.Proofs.Clock.Rfc3339

namespace AgentMemory
namespace Clock
namespace Instant

/-!
# Reading instants by layouts

A layout is read piece by piece, each piece going on from the text the last one left
(`readLayout_cons`), so what holds of every piece's step holds of a whole layout by
induction on it.  Three facts about the layouts of RFC 3339 and naive ISO 8601 text come
out of that:

* text the naive layout reads, with `Z` after it, is read by the RFC 3339 layout as the
  same instant (`parseLayout_rfc3339_append_zulu`): the naive form is read as UTC;
* text the naive layout reads has no zone, and the RFC 3339 layout refuses it
  (`parseLayout_rfc3339_of_naive`);
* the strict reader of RFC 3339 text is a shortcut: where it reads an instant, the RFC
  3339 layout reads the same one (`parseLayout_of_parseStrict`).
-/

theorem readLayout_nil (cs : List Char) (p : Partial) :
    readLayout [] cs p = if cs.isEmpty then some p else none := rfl

theorem readLayout_cons (piece : Piece) (rest : List Piece) (cs : List Char) (p : Partial) :
    readLayout (piece :: rest) cs p =
      (piece.step (rest.head? == some .fraction) cs p).bind fun (cs', p') => readLayout rest cs' p' := rfl

theorem fractionNext_append_zone (rest : List Piece) :
    ((rest ++ [Piece.zone]).head? == some .fraction) = (rest.head? == some .fraction) := by
  cases rest <;> rfl

/-! ## A zone after a layout -/

theorem rfc3339Layout_eq : rfc3339Layout = naiveLayout ++ [.zone] := rfl

theorem readLayout_append_zone_none {layout : List Piece} {cs : List Char} {p q : Partial}
    (read : readLayout layout cs p = some q) : readLayout (layout ++ [.zone]) cs p = none := by
  induction layout generalizing cs p with
  | nil =>
    rw [readLayout_nil] at read
    have empty : cs = [] := by
      cases cs with
      | nil => rfl
      | cons c cs => cases read
    subst empty
    rfl
  | cons piece rest ih =>
    obtain ⟨⟨cs', p'⟩, stepped, later⟩ := Option.bind_eq_some_iff.mp read
    rw [List.cons_append, readLayout_cons, fractionNext_append_zone, stepped, Option.bind_some]
    exact ih later

/-- Text the naive layout reads is refused by the RFC 3339 layout. -/
theorem parseLayout_rfc3339_of_naive {s : String} {t : Instant} (read : parseLayout naiveLayout s = some t) :
    parseLayout rfc3339Layout s = none := by
  obtain ⟨p, readNaive, -⟩ := Option.bind_eq_some_iff.mp read
  rw [parseLayout, rfc3339Layout_eq, readLayout_append_zone_none readNaive, Option.bind_none]

/-! ## A `Z` after the text -/

/-- A piece that leaves a `Z` after the text to the pieces that follow it: not a zone,
and not a literal blank or `Z`. -/
def Piece.plain : Piece → Bool
  | .zone => false
  | .lit c => c != ' ' && c != 'Z'
  | _ => true

theorem zulu_not_digit : 'Z'.isDigit = false := by decide

theorem takeWhile_digit_append_zulu (cs : List Char) :
    (cs ++ ['Z']).takeWhile Char.isDigit = cs.takeWhile Char.isDigit := by
  induction cs with
  | nil => rfl
  | cons c cs ih => simp only [List.cons_append, List.takeWhile_cons, ih]

theorem fixedDigits_append_zulu (n : Nat) (cs : List Char) :
    fixedDigits n (cs ++ ['Z']) = (fixedDigits n cs).map fun (v, r) => (v, r ++ ['Z']) := by
  unfold fixedDigits
  by_cases len : n ≤ cs.length
  · rw [List.take_append_of_le_length len, List.drop_append_of_le_length len]
    dsimp only
    split_ifs <;> rfl
  · have whole : (cs ++ ['Z']).take n = cs ++ ['Z'] := List.take_of_length_le (by simp; omega)
    have short : cs.take n = cs := List.take_of_length_le (by omega)
    have zulu : (cs ++ ['Z']).all Char.isDigit = false := by simp [zulu_not_digit]
    simp only [whole, short, zulu, Bool.and_false, Bool.false_eq_true, if_false]
    rw [if_neg (by simp only [Bool.and_eq_true, beq_iff_eq, not_and]; omega)]
    rfl

theorem shortDigits_append_zulu (cs : List Char) :
    shortDigits (cs ++ ['Z']) = (shortDigits cs).map fun (v, r) => (v, r ++ ['Z']) := by
  rcases cs with _ | ⟨a, _ | ⟨b, rest⟩⟩
  · rfl
  · simp only [List.nil_append, List.cons_append, shortDigits, zulu_not_digit, Bool.and_false,
      Bool.false_eq_true, if_false]
    split_ifs <;> rfl
  · simp only [List.cons_append, shortDigits]
    split_ifs <;> rfl

theorem readFraction_append_zulu (cs : List Char) :
    readFraction (cs ++ ['Z']) = (readFraction cs).map fun (ns, r) => (ns, r ++ ['Z']) := by
  rcases cs with _ | ⟨sep, _ | ⟨d, rest⟩⟩
  · rfl
  · simp [readFraction, zulu_not_digit]
  · simp only [List.cons_append, readFraction, List.drop_succ_cons, List.drop_zero]
    split_ifs
    · have within : 1 + ((d :: rest).takeWhile Char.isDigit).length ≤ (sep :: d :: rest).length := by
        have := (List.takeWhile_prefix Char.isDigit (l := d :: rest)).length_le
        simp only [List.length_cons] at this ⊢
        omega
      rw [← List.cons_append, takeWhile_digit_append_zulu, ← List.cons_append,
        List.drop_append_of_le_length within]
      rfl
    · rfl

/-- A plain piece reads a text with a `Z` after it as it reads the text, and leaves the
`Z` behind. -/
theorem Piece.step_append_zulu {piece : Piece} (plain : piece.plain = true) (fractionNext : Bool)
    (cs : List Char) (p : Partial) :
    piece.step fractionNext (cs ++ ['Z']) p =
      (piece.step fractionNext cs p).map fun (r, q) => (r ++ ['Z'], q) := by
  cases piece with
  | zone => cases plain
  | year | day =>
    simp only [Piece.step, fixedDigits_append_zulu, Option.map_map]
    rfl
  | month | minute =>
    simp only [Piece.step, fixedDigits_append_zulu]
    rcases fixedDigits 2 cs with _ | ⟨v, r⟩
    · rfl
    · dsimp only [Option.map_some, Option.bind_some]
      split_ifs <;> rfl
  | hour =>
    simp only [Piece.step, shortDigits_append_zulu]
    rcases shortDigits cs with _ | ⟨v, r⟩
    · rfl
    · dsimp only [Option.map_some, Option.bind_some]
      split_ifs <;> rfl
  | second =>
    simp only [Piece.step, fixedDigits_append_zulu]
    rcases fixedDigits 2 cs with _ | ⟨v, r⟩
    · rfl
    · dsimp only [Option.map_some, Option.bind_some]
      split_ifs
      · rfl
      · rfl
      · rw [readFraction_append_zulu]
        rcases readFraction r with _ | ⟨ns, r'⟩ <;> rfl
  | fraction =>
    simp only [Piece.step, readFraction_append_zulu]
    rcases readFraction cs with _ | ⟨ns, r⟩ <;> rfl
  | lit c =>
    simp only [Piece.plain, Bool.and_eq_true, bne_iff_ne, ne_eq] at plain
    simp only [Piece.step, beq_iff_eq, plain.1, if_false]
    rcases cs with _ | ⟨c', cs⟩
    · simp [Ne.symm plain.2]
    · simp only [List.cons_append]
      split_ifs <;> rfl

theorem Piece.step_zone_eq_some {fractionNext : Bool} {cs r : List Char} {p q : Partial}
    (stepped : Piece.zone.step fractionNext cs p = some (r, q)) :
    cs = 'Z' :: r ∨ ∃ s h1 h2 m1 m2, cs = s :: h1 :: h2 :: ':' :: m1 :: m2 :: r ∧ m2.isDigit = true := by
  simp only [Piece.step] at stepped
  split at stepped
  · cases stepped
    exact Or.inl rfl
  · rename_i s h1 h2 m1 m2 rest _
    split_ifs at stepped with digits <;> cases stepped <;>
      exact Or.inr ⟨s, h1, h2, m1, m2, rfl, (Bool.and_eq_true _ _ ▸ digits).2⟩
  · cases stepped

/-- A zone read from a text with a `Z` after it leaves something unless the `Z` was all
there was. -/
theorem Piece.step_zone_append_zulu {fractionNext : Bool} {cs r : List Char} {p q : Partial}
    (stepped : Piece.zone.step fractionNext (cs ++ ['Z']) p = some (r, q)) (text : cs ≠ []) : r ≠ [] := by
  rcases Piece.step_zone_eq_some stepped with zulu | ⟨s, h1, h2, m1, m2, signed, digit⟩
  · obtain ⟨c, cs, rfl⟩ := List.exists_cons_of_ne_nil text
    simp only [List.cons_append, List.cons.injEq] at zulu
    rw [← zulu.2]
    simp
  · rintro rfl
    have last := congrArg List.getLast? signed
    simp only [List.getLast?_concat] at last
    simp only [List.getLast?_cons_cons, List.getLast?_singleton, Option.some.injEq] at last
    rw [← last, zulu_not_digit] at digit
    cases digit

/-- Reading a layout of plain pieces and then a zone, a `Z` after the text is the zone:
the text is read as the layout reads it, in UTC. -/
theorem readLayout_append_zulu (layout : List Piece) (plain : layout.all Piece.plain = true)
    (cs : List Char) (p : Partial) (utc : p.offset = 0) :
    readLayout (layout ++ [.zone]) (cs ++ ['Z']) p = readLayout layout cs p := by
  induction layout generalizing cs p with
  | nil =>
    rw [List.nil_append, readLayout_cons, readLayout_nil]
    cases cs with
    | nil =>
      have same : ({ p with offset := 0 } : Partial) = p := by
        cases p
        simp only at utc
        rw [utc]
      simp only [List.nil_append, List.isEmpty_nil, if_true]
      rw [← same]
      rfl
    | cons c cs =>
      simp only [List.isEmpty_cons, Bool.false_eq_true, if_false]
      rcases stepped : Piece.zone.step _ ((c :: cs) ++ ['Z']) p with _ | ⟨r, q⟩
      · rfl
      · have rest : r ≠ [] := Piece.step_zone_append_zulu stepped (List.cons_ne_nil c cs)
        simp only [Option.bind_some, readLayout_nil, List.isEmpty_eq_false_iff.mpr rest,
          Bool.false_eq_true, if_false]
  | cons piece rest ih =>
    simp only [List.all_cons, Bool.and_eq_true] at plain
    rw [List.cons_append, readLayout_cons, readLayout_cons, fractionNext_append_zone,
      Piece.step_append_zulu plain.1]
    rcases stepped : piece.step (rest.head? == some .fraction) cs p with _ | ⟨r, q⟩
    · rfl
    · have notZone : piece ≠ .zone := by
        rintro rfl
        cases plain.1
      simp only [Option.map_some, Option.bind_some]
      exact ih plain.2 r q (by rw [Piece.step_offset notZone stepped, utc])

/-- Text with `Z` after it is read by the RFC 3339 layout as the text without it is read
by the naive layout. -/
theorem parseLayout_rfc3339_append_zulu (s : String) :
    parseLayout rfc3339Layout (s ++ "Z") = parseLayout naiveLayout s := by
  unfold parseLayout
  rw [String.toList_append, show "Z".toList = ['Z'] from rfl, rfc3339Layout_eq,
    readLayout_append_zulu naiveLayout (by decide) s.toList {} rfl]

theorem readLayout_offset {layout : List Piece} (plain : layout.all Piece.plain = true) {cs : List Char}
    {p q : Partial} (read : readLayout layout cs p = some q) : q.offset = p.offset := by
  induction layout generalizing cs p with
  | nil =>
    simp only [readLayout_nil, Option.ite_none_right_eq_some, Option.some.injEq] at read
    rw [read.2]
  | cons piece rest ih =>
    simp only [List.all_cons, Bool.and_eq_true] at plain
    obtain ⟨⟨r, p'⟩, stepped, later⟩ := Option.bind_eq_some_iff.mp read
    have notZone : piece ≠ .zone := by
      rintro rfl
      cases plain.1
    rw [ih plain.2 later, Piece.step_offset notZone stepped]

theorem Partial.toInstant?_offset {p : Partial} {t : Instant} (made : p.toInstant? = some t) :
    t.offset = p.offset := by
  unfold Partial.toInstant? at made
  split at made
  · cases made
  · cases made
    rfl

theorem parseLayout_naive_offset {s : String} {t : Instant} (read : parseLayout naiveLayout s = some t) :
    t.offset = 0 := by
  obtain ⟨q, readNaive, made⟩ := Option.bind_eq_some_iff.mp read
  rw [Partial.toInstant?_offset made, readLayout_offset (by decide) readNaive]

/-! ## The strict reader is a shortcut -/

theorem fixedDigits_of_digitsValue {n : Nat} {cs : List Char} {v : Nat}
    (value : digitsValue? (cs.take n) = some v) (len : n ≤ cs.length) :
    fixedDigits n cs = some (v, cs.drop n) := by
  unfold digitsValue? at value
  split_ifs at value with digits
  cases value
  simp only [Bool.and_eq_true] at digits
  unfold fixedDigits
  dsimp only
  rw [if_pos (by simp only [Bool.and_eq_true, beq_iff_eq, List.length_take, Nat.min_eq_left len]; exact ⟨trivial, digits.1⟩)]

theorem shortDigits_of_digitsValue {cs : List Char} {v : Nat}
    (value : digitsValue? (cs.take 2) = some v) (len : 2 ≤ cs.length) :
    shortDigits cs = some (v, cs.drop 2) := by
  rcases cs with _ | ⟨a, _ | ⟨b, rest⟩⟩
  · simp at len
  · simp at len
  · unfold digitsValue? at value
    split_ifs at value with digits
    cases value
    simp only [List.take_succ_cons, List.take_zero, List.all_cons, List.all_nil, Bool.and_true,
      Bool.and_eq_true, List.isEmpty_cons, Bool.not_false] at digits
    simp only [shortDigits, digits.1, digits.2, Bool.and_self, if_true, List.take_succ_cons,
      List.take_zero, List.foldl_cons, List.foldl_nil, List.drop_succ_cons, List.drop_zero]
    simp

theorem drop_eq_cons_of_getElem? {cs : List Char} {i : Nat} {c : Char} (found : cs[i]? = some c) :
    cs.drop i = c :: cs.drop (i + 1) := by
  obtain ⟨within, rfl⟩ := List.getElem?_eq_some_iff.mp found
  exact List.drop_eq_getElem_cons within

theorem digits_of_digitsValue_two {a b : Char} {v : Nat} (value : digitsValue? [a, b] = some v) :
    a.isDigit = true ∧ b.isDigit = true ∧ v = (a.toNat - 48) * 10 + (b.toNat - 48) := by
  unfold digitsValue? at value
  split_ifs at value with digits
  cases value
  simp only [List.all_cons, List.all_nil, Bool.and_true, List.isEmpty_cons, Bool.not_false,
    Bool.and_eq_true] at digits
  exact ⟨digits.1, digits.2, by simp⟩

/-- The zone of strict text is read by the zone piece as the same offset, and all of the
text is used. -/
theorem Piece.step_zone_strict {rest : List Char} {off : Int} (zone : strictZone rest = some off)
    (fractionNext : Bool) (p : Partial) :
    Piece.zone.step fractionNext rest p = some ([], { p with offset := off }) := by
  unfold strictZone at zone
  split at zone
  · cases zone
    rfl
  · rename_i sign h1 h2 m1 m2
    split at zone
    · rename_i hh mm hours minutes
      obtain ⟨d1, d2, rfl⟩ := digits_of_digitsValue_two hours
      obtain ⟨d3, d4, rfl⟩ := digits_of_digitsValue_two minutes
      dsimp only at zone
      split at zone
      · rename_i ok
        cases zone
        simp only [Bool.and_eq_true, Bool.or_eq_true, beq_iff_eq, decide_eq_true_eq] at ok
        obtain ⟨⟨plus | minus, hoursLe⟩, minutesLe⟩ := ok
        · subst plus
          simp only [Piece.step]
          simp [d1, d2, d3, d4]
          omega
        · subst minus
          simp only [Piece.step]
          simp [d1, d2, d3, d4]
          omega
      · cases zone
    · cases zone
  · cases zone

theorem strictZone_head {rest : List Char} {off : Int} (zone : strictZone rest = some off) :
    rest.head? = some 'Z' ∨ rest.head? = some '+' ∨ rest.head? = some '-' := by
  unfold strictZone at zone
  split at zone
  · exact Or.inl rfl
  · rename_i sign h1 h2 m1 m2
    split at zone
    · split at zone
      · rename_i ok
        simp only [Bool.and_eq_true, Bool.or_eq_true, beq_iff_eq] at ok
        rcases ok.1.1 with plus | minus
        · exact Or.inr (Or.inl (by rw [plus]; rfl))
        · exact Or.inr (Or.inr (by rw [minus]; rfl))
      · cases zone
    · cases zone
  · cases zone

/-- The fraction of strict text is read by the fraction piece as the same number of
nanoseconds. -/
theorem Piece.step_fraction_strict {rest : List Char} {off : Int}
    (zone : strictZone (strictFraction rest).2 = some off) (fractionNext : Bool) (p : Partial)
    (fresh : p.nanos = 0) :
    Piece.fraction.step fractionNext rest p =
      some ((strictFraction rest).2, { p with nanos := (strictFraction rest).1 }) := by
  have unchanged : { p with nanos := 0 } = p := by
    cases p
    simp only at fresh
    rw [fresh]
  simp only [Piece.step]
  unfold strictFraction at zone ⊢
  split
  · -- the piece reads a fraction: after a point it is the strict one, after a comma no zone follows
    rename_i ns cs' read
    unfold readFraction at read
    split at read
    · rename_i sep d tl
      split_ifs at read with marked
      cases read
      simp only [Bool.and_eq_true, Bool.or_eq_true, beq_iff_eq] at marked
      rcases marked.1 with dot | comma
      · subst dot
        simp only [marked.2, if_true] at zone ⊢
      · subst comma
        have head := strictZone_head (show strictZone (',' :: d :: tl) = some off from zone)
        simp at head
    · cases read
  · rename_i none_read
    split
    · rename_i d1 tl
      split_ifs with digit
      · simp [readFraction, digit] at none_read
      · rw [unchanged]
    · rw [unchanged]

section Pieces

variable {fractionNext : Bool} {cs r : List Char} {p : Partial} {v : Nat}

theorem Piece.step_year (read : fixedDigits 4 cs = some (v, r)) :
    Piece.year.step fractionNext cs p = some (r, { p with year := v }) := by
  simp [Piece.step, read]

theorem Piece.step_month (read : fixedDigits 2 cs = some (v, r)) (valid : v ≠ 0 ∧ v ≤ 12) :
    Piece.month.step fractionNext cs p = some (r, { p with month := v }) := by
  simp only [Piece.step, read, Option.bind_some]
  rw [if_neg (by simp only [Bool.or_eq_true, decide_eq_true_eq]; omega)]

theorem Piece.step_day (read : fixedDigits 2 cs = some (v, r)) :
    Piece.day.step fractionNext cs p = some (r, { p with day := v }) := by
  simp [Piece.step, read]

theorem Piece.step_hour (read : shortDigits cs = some (v, r)) (valid : v ≤ 23) :
    Piece.hour.step fractionNext cs p = some (r, { p with hour := v }) := by
  simp only [Piece.step, read, Option.bind_some]
  rw [if_neg (by omega)]

theorem Piece.step_minute (read : fixedDigits 2 cs = some (v, r)) (valid : v ≤ 59) :
    Piece.minute.step fractionNext cs p = some (r, { p with minute := v }) := by
  simp only [Piece.step, read, Option.bind_some]
  rw [if_neg (by omega)]

theorem Piece.step_second (read : fixedDigits 2 cs = some (v, r)) (valid : v ≤ 59) :
    Piece.second.step true cs p = some (r, { p with second := v }) := by
  simp only [Piece.step, read, Option.bind_some]
  rw [if_neg (by omega), if_pos trivial]

theorem Piece.step_lit {c : Char} (notBlank : c ≠ ' ') :
    (Piece.lit c).step fractionNext (c :: r) p = some (r, p) := by
  simp [Piece.step, notBlank]

end Pieces

/-- Where the strict reader reads an instant, the RFC 3339 layout reads the same one. -/
theorem parseLayout_of_parseStrict {s : String} {t : Instant} (strict : parseStrict s = some t) :
    parseLayout rfc3339Layout s = some t := by
  unfold parseStrict at strict
  unfold parseLayout
  generalize s.toList = cs at strict ⊢
  dsimp only at strict
  split_ifs at strict with short seps
  · split at strict <;> cases strict
  · split at strict
    · rename_i y mo d h mi sec year month day hour minute second
      split_ifs at strict with ranges
      simp only [Nat.reduceSub, List.drop_zero] at year month day hour minute second
      simp at seps ranges
      obtain ⟨off, zone, rfl⟩ := Option.map_eq_some_iff.mp strict
      have len : 19 ≤ cs.length := by omega
      have fy : fixedDigits 4 cs = some (y, cs.drop 4) := fixedDigits_of_digitsValue year (by omega)
      have fmo : fixedDigits 2 (cs.drop 5) = some (mo, cs.drop 7) := by
        rw [fixedDigits_of_digitsValue month (by simp; omega), List.drop_drop]
      have fd : fixedDigits 2 (cs.drop 8) = some (d, cs.drop 10) := by
        rw [fixedDigits_of_digitsValue day (by simp; omega), List.drop_drop]
      have fh : shortDigits (cs.drop 11) = some (h, cs.drop 13) := by
        rw [shortDigits_of_digitsValue hour (by simp; omega), List.drop_drop]
      have fmi : fixedDigits 2 (cs.drop 14) = some (mi, cs.drop 16) := by
        rw [fixedDigits_of_digitsValue minute (by simp; omega), List.drop_drop]
      have fs : fixedDigits 2 (cs.drop 17) = some (sec, cs.drop 19) := by
        rw [fixedDigits_of_digitsValue second (by simp; omega), List.drop_drop]
      obtain ⟨⟨⟨⟨c4, c7⟩, c10⟩, c13⟩, c16⟩ := seps
      obtain ⟨⟨⟨⟨⟨⟨mo0, mo12⟩, d0⟩, dmax⟩, h23⟩, mi59⟩, sec59⟩ := ranges
      have front : readLayout rfc3339Layout cs {} =
          readLayout [.fraction, .zone] (cs.drop 19)
            { year := y, month := mo, day := d, hour := h, minute := mi, second := sec } := by
        have next : ([Piece.fraction, .zone].head? == some .fraction) = true := rfl
        rw [show rfc3339Layout = [.year, .lit '-', .month, .lit '-', .day, .lit 'T', .hour, .lit ':', .minute,
            .lit ':', .second, .fraction, .zone] from rfl]
        rw [readLayout_cons, Piece.step_year fy, Option.bind_some]; dsimp only
        rw [readLayout_cons, drop_eq_cons_of_getElem? c4, Piece.step_lit (by decide), Option.bind_some]; dsimp only
        rw [readLayout_cons, Piece.step_month fmo ⟨mo0, mo12⟩, Option.bind_some]; dsimp only
        rw [readLayout_cons, drop_eq_cons_of_getElem? c7, Piece.step_lit (by decide), Option.bind_some]; dsimp only
        rw [readLayout_cons, Piece.step_day fd, Option.bind_some]; dsimp only
        rw [readLayout_cons, drop_eq_cons_of_getElem? c10, Piece.step_lit (by decide), Option.bind_some]; dsimp only
        rw [readLayout_cons, Piece.step_hour fh h23, Option.bind_some]; dsimp only
        rw [readLayout_cons, drop_eq_cons_of_getElem? c13, Piece.step_lit (by decide), Option.bind_some]; dsimp only
        rw [readLayout_cons, Piece.step_minute fmi mi59, Option.bind_some]; dsimp only
        rw [readLayout_cons, drop_eq_cons_of_getElem? c16, Piece.step_lit (by decide), Option.bind_some]; dsimp only
        rw [readLayout_cons, next, Piece.step_second fs sec59, Option.bind_some]
      rw [front, readLayout_cons, Piece.step_fraction_strict zone _ _ rfl, Option.bind_some]
      dsimp only
      rw [readLayout_cons, Piece.step_zone_strict zone, Option.bind_some]
      dsimp only
      rw [readLayout_nil, List.isEmpty_nil, if_pos rfl, Option.bind_some]
      unfold Partial.toInstant?
      rw [if_neg (by simp only [Bool.or_eq_true, decide_eq_true_eq]; omega)]
    · cases strict

theorem parseRfc3339_eq_parseLayout (s : String) : parseRfc3339 s = parseLayout rfc3339Layout s := by
  unfold parseRfc3339
  rcases strict : parseStrict s with _ | t
  · rfl
  · exact (parseLayout_of_parseStrict strict).symm

end Instant
end Clock
end AgentMemory
