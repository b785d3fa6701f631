import AgentMemory.Json.Read

namespace AgentMemory
namespace Json

/-!
# Number literals

A document keeps each number as the text it was written with.  The reader takes a number
as the longest text of the JSON grammar `-? (0 | [1-9][0-9]*) (. [0-9]+)? ([eE] [+-]? [0-9]+)?`
at the start of what is left: its sign, its integer part, its fraction and its exponent, one
reading stage each.  `NumberText` states the grammar part by part.

Main statements: every literal the reader takes is in the grammar, and the text it read is
the literal followed by what is left (`numberText_of_readNumber`); a literal in the grammar
reads back whole when what follows cannot continue it (`readNumber_numberText`).  A tree all
of whose numbers are such literals is `Spelled`, and every tree the reader returns is
(`spelled_of_parse`): so the writers' text of a tree read from any document reads back.
-/

@[simp] theorem except_pure {ε α : Type} (x : α) : (pure x : Except ε α) = .ok x := rfl

@[simp] theorem except_ok_bind {ε α β : Type} (x : α) (f : α → Except ε β) :
    (Except.ok x >>= f) = f x := rfl

@[simp] theorem except_error_bind {ε α β : Type} (e : ε) (f : α → Except ε β) :
    (Except.error e >>= f) = .error e := rfl

/-! ## The grammar -/

/-- A run of decimal digits, at least one. -/
def DigitRun (ds : List Char) : Prop := ds ≠ [] ∧ ∀ d ∈ ds, d.isDigit = true

/-- The integer part of a literal: `0` alone, or a digit other than `0` and more digits. -/
def IntegerPart (cs : List Char) : Prop :=
  cs = ['0'] ∨ ∃ c ds, cs = c :: ds ∧ c.isDigit = true ∧ c ≠ '0' ∧ ∀ d ∈ ds, d.isDigit = true

/-- The fraction of a literal: nothing, or a point and digits. -/
def FractionPart (cs : List Char) : Prop := cs = [] ∨ ∃ ds, cs = '.' :: ds ∧ DigitRun ds

/-- The sign of an exponent: nothing, `+` or `-`. -/
def ExponentSign (cs : List Char) : Prop := cs = [] ∨ cs = ['+'] ∨ cs = ['-']

/-- The exponent of a literal: nothing, or `e` or `E`, a sign and digits. -/
def ExponentPart (cs : List Char) : Prop :=
  cs = [] ∨ ∃ e sign ds, cs = e :: (sign ++ ds) ∧ (e = 'e' ∨ e = 'E') ∧ ExponentSign sign ∧ DigitRun ds

/-- The characters of a number literal in the JSON grammar. -/
def NumberText (cs : List Char) : Prop :=
  ∃ sign int frac expo, cs = sign ++ int ++ frac ++ expo ∧ (sign = [] ∨ sign = ['-']) ∧
    IntegerPart int ∧ FractionPart frac ∧ ExponentPart expo

/-- What follows a literal cannot continue it: the text ends, or goes on with a character
that is no digit, point or exponent mark. -/
def EndsNumber : List Char → Prop
  | [] => True
  | c :: _ => c.isDigit = false ∧ c ≠ '.' ∧ c ≠ 'e' ∧ c ≠ 'E'

theorem NumberText.head {cs : List Char} (text : NumberText cs) :
    ∃ c t, cs = c :: t ∧ (c = '-' ∨ c.isDigit = true) := by
  obtain ⟨sign, int, frac, expo, rfl, signed, intPart, -, -⟩ := text
  rcases signed with rfl | rfl
  · rcases intPart with rfl | ⟨c, ds, rfl, digit, -, -⟩
    · exact ⟨'0', _, rfl, Or.inr rfl⟩
    · exact ⟨c, _, rfl, Or.inr digit⟩
  · exact ⟨'-', _, rfl, Or.inl rfl⟩

theorem NumberText.mem {cs : List Char} (text : NumberText cs) :
    ∀ c ∈ cs, c.isDigit = true ∨ c = '-' ∨ c = '+' ∨ c = '.' ∨ c = 'e' ∨ c = 'E' := by
  obtain ⟨sign, int, frac, expo, rfl, signed, intPart, fracPart, expoPart⟩ := text
  intro c mem
  simp only [List.mem_append] at mem
  rcases mem with ((inSign | inInt) | inFrac) | inExpo
  · rcases signed with rfl | rfl <;> simp_all
  · rcases intPart with rfl | ⟨d, ds, rfl, digit, -, digits⟩
    · simp_all
    · rcases List.mem_cons.mp inInt with rfl | later
      · exact Or.inl digit
      · exact Or.inl (digits c later)
  · rcases fracPart with rfl | ⟨ds, rfl, -, digits⟩
    · simp at inFrac
    · rcases List.mem_cons.mp inFrac with rfl | later
      · simp
      · exact Or.inl (digits c later)
  · rcases expoPart with rfl | ⟨e, sign, ds, rfl, mark, expSign, -, digits⟩
    · simp at inExpo
    · simp only [List.mem_cons, List.mem_append] at inExpo
      rcases inExpo with rfl | inExpSign | later
      · rcases mark with rfl | rfl <;> simp
      · rcases expSign with rfl | rfl | rfl <;> simp_all
      · exact Or.inl (digits c later)

/-! ## Runs of digits -/

theorem spanDigits_append (ds rest : List Char) (digits : ∀ c ∈ ds, c.isDigit = true)
    (stop : ∀ c tail, rest = c :: tail → c.isDigit = false) : spanDigits (ds ++ rest) = (ds, rest) := by
  induction ds with
  | nil =>
      cases rest with
      | nil => rfl
      | cons c tail => simp [spanDigits, stop c tail rfl]
  | cons c ds ih =>
      have digit := digits c (List.mem_cons_self ..)
      have tail := ih (fun d member => digits d (List.mem_cons_of_mem _ member))
      simp only [spanDigits, List.cons_append, List.takeWhile_cons, List.dropWhile_cons, digit, if_true] at tail ⊢
      rw [Prod.mk.injEq] at tail
      rw [tail.1, tail.2]

theorem spanDigits_eq {cs ds rest : List Char} (span : spanDigits cs = (ds, rest)) :
    cs = ds ++ rest ∧ ∀ d ∈ ds, d.isDigit = true := by
  unfold spanDigits at span
  obtain ⟨rfl, rfl⟩ := Prod.mk.inj span
  exact ⟨List.takeWhile_append_dropWhile.symm, fun d mem => List.all_eq_true.mp List.all_takeWhile d mem⟩

theorem spanDigits_of_digit {c : Char} {tail ds rest : List Char} (digit : c.isDigit = true)
    (span : spanDigits (c :: tail) = (ds, rest)) : c :: tail = ds ++ rest ∧ DigitRun ds := by
  obtain ⟨text, digits⟩ := spanDigits_eq span
  refine ⟨text, ?_, digits⟩
  rintro rfl
  unfold spanDigits at span
  simp [digit] at span

/-! ## The reading stages -/

theorem numberSign_minus (rest : List Char) : numberSign ('-' :: rest) = (['-'], rest) := rfl

theorem numberSign_of_digit {c : Char} (rest : List Char) (digit : c.isDigit = true) :
    numberSign (c :: rest) = ([], c :: rest) := by
  unfold numberSign
  split
  next r same =>
    obtain ⟨rfl, -⟩ := List.cons.inj same
    simp at digit
  next => rfl

theorem numberSign_eq (cs : List Char) :
    cs = (numberSign cs).1 ++ (numberSign cs).2 ∧ ((numberSign cs).1 = [] ∨ (numberSign cs).1 = ['-']) := by
  unfold numberSign
  split <;> simp_all

theorem readIntegerPart_of {int after : List Char} (part : IntegerPart int)
    (stop : ∀ c tail, after = c :: tail → c.isDigit = false) :
    readIntegerPart (int ++ after) = .ok (int, after) := by
  rcases part with rfl | ⟨c, ds, rfl, digit, notZero, digits⟩
  · rfl
  · unfold readIntegerPart
    split
    next same => cases same
    next rest same => exact absurd (List.cons.inj same).1 notZero
    next c' rest _ same =>
      obtain ⟨rfl, rfl⟩ := List.cons.inj same
      simp [digit, spanDigits_append ds after digits stop]

theorem readIntegerPart_eq_ok {cs int after : List Char} (read : readIntegerPart cs = .ok (int, after)) :
    IntegerPart int ∧ cs = int ++ after := by
  unfold readIntegerPart at read
  split at read
  next => cases read
  next rest =>
    cases read
    exact ⟨Or.inl rfl, rfl⟩
  next c rest notZero =>
    split at read
    next digit =>
      rcases span : spanDigits rest with ⟨ds, rest'⟩
      obtain ⟨text, digits⟩ := spanDigits_eq span
      rw [span] at read
      cases read
      exact ⟨Or.inr ⟨c, ds, rfl, digit, notZero, digits⟩, by rw [text, List.cons_append]⟩
    next => cases read

theorem readFraction_of {frac after : List Char} (part : FractionPart frac)
    (stop : ∀ c tail, after = c :: tail → c.isDigit = false) (noPoint : ∀ tail, frac = [] → after ≠ '.' :: tail) :
    readFraction (frac ++ after) = .ok (frac, after) := by
  rcases part with rfl | ⟨ds, rfl, nonempty, digits⟩
  · unfold readFraction
    split
    next rest same => exact absurd same (noPoint rest rfl)
    next => rfl
  · obtain ⟨d, more, rfl⟩ := List.exists_cons_of_ne_nil nonempty
    have digit := digits d (List.mem_cons_self ..)
    have span := spanDigits_append (d :: more) after digits stop
    rw [List.cons_append] at span
    simp [readFraction, digit, span]

theorem readFraction_eq_ok {cs frac after : List Char} (read : readFraction cs = .ok (frac, after)) :
    FractionPart frac ∧ cs = frac ++ after := by
  unfold readFraction at read
  split at read
  next rest =>
    split at read
    next => cases read
    next c tail =>
      split at read
      next digit =>
        rcases span : spanDigits (c :: tail) with ⟨ds, rest'⟩
        obtain ⟨text, run⟩ := spanDigits_of_digit digit span
        rw [span] at read
        cases read
        exact ⟨Or.inr ⟨ds, rfl, run⟩, by rw [text, List.cons_append]⟩
      next => cases read
  next =>
    cases read
    exact ⟨Or.inl rfl, rfl⟩

theorem exponentSign_of {sign ds : List Char} (part : ExponentSign sign) (run : DigitRun ds) (rest : List Char) :
    exponentSign (sign ++ ds ++ rest) = (sign, ds ++ rest) := by
  obtain ⟨d, more, rfl⟩ := List.exists_cons_of_ne_nil run.1
  have digit := run.2 d (List.mem_cons_self ..)
  rcases part with rfl | rfl | rfl
  · unfold exponentSign
    split
    next same => simp only [List.nil_append, List.cons_append, List.cons.injEq] at same; simp [same.1] at digit
    next same => simp only [List.nil_append, List.cons_append, List.cons.injEq] at same; simp [same.1] at digit
    next => rfl
  · rfl
  · rfl

theorem exponentSign_eq (cs : List Char) :
    cs = (exponentSign cs).1 ++ (exponentSign cs).2 ∧ ExponentSign (exponentSign cs).1 := by
  unfold exponentSign
  split <;> simp [ExponentSign]

theorem readExponent_of {expo after : List Char} (part : ExponentPart expo) (ends : EndsNumber after) :
    readExponent (expo ++ after) = .ok (expo, after) := by
  have stop : ∀ c tail, after = c :: tail → c.isDigit = false := by
    rintro c tail rfl
    exact ends.1
  rcases part with rfl | ⟨e, sign, ds, rfl, mark, expSign, run⟩
  · cases after with
    | nil => rfl
    | cons c tail =>
      have notMark : (c == 'e' || c == 'E') = false := by
        simp only [Bool.or_eq_false_iff, beq_eq_false_iff_ne]
        exact ⟨ends.2.2.1, ends.2.2.2⟩
      simp [readExponent, notMark]
  · obtain ⟨d, more, rfl⟩ := List.exists_cons_of_ne_nil run.1
    have digit := run.2 d (List.mem_cons_self ..)
    have marked : (e == 'e' || e == 'E') = true := by rcases mark with rfl | rfl <;> rfl
    have signed := exponentSign_of expSign run after
    have span := spanDigits_append (d :: more) after run.2 stop
    simp only [List.cons_append, List.append_assoc] at signed span ⊢
    simp [readExponent, marked, signed, digit, span]

theorem readExponent_eq_ok {cs expo after : List Char} (read : readExponent cs = .ok (expo, after)) :
    ExponentPart expo ∧ cs = expo ++ after := by
  unfold readExponent at read
  split at read
  next e rest =>
    split at read
    next marked =>
      obtain ⟨signText, expSign⟩ := exponentSign_eq rest
      generalize exponentSign rest = signed at read signText expSign
      obtain ⟨sign, rest'⟩ := signed
      dsimp only at read signText expSign
      split at read
      next => cases read
      next c tail =>
        split at read
        next digit =>
          rcases span : spanDigits (c :: tail) with ⟨ds, rest''⟩
          obtain ⟨text, run⟩ := spanDigits_of_digit digit span
          rw [span] at read
          cases read
          have isMark : e = 'e' ∨ e = 'E' := by simpa using marked
          refine ⟨Or.inr ⟨e, sign, ds, rfl, isMark, expSign, run⟩, ?_⟩
          rw [signText, text]
          simp
        next => cases read
    next =>
      cases read
      exact ⟨Or.inl rfl, rfl⟩
  next =>
    cases read
    exact ⟨Or.inl rfl, rfl⟩

/-! ## Reading a literal -/

/-- A literal in the grammar reads back whole when what follows cannot continue it. -/
theorem readNumber_numberText {cs rest : List Char} (text : NumberText cs) (ends : EndsNumber rest) :
    readNumber (cs ++ rest) = .ok (String.ofList cs, rest) := by
  obtain ⟨sign, int, frac, expo, rfl, signed, intPart, fracPart, expoPart⟩ := text
  -- each stage stops where the next part starts: no part starts with a digit but the integer
  have afterExpo : ∀ c tail, expo ++ rest = c :: tail → c.isDigit = false ∧ c ≠ '.' := by
    intro c tail same
    rcases expoPart with rfl | ⟨e, s, ds, rfl, mark, -, -⟩
    · subst same
      exact ⟨ends.1, ends.2.1⟩
    · obtain ⟨rfl, -⟩ := List.cons.inj same
      rcases mark with rfl | rfl <;> decide
  have afterFrac : ∀ c tail, frac ++ expo ++ rest = c :: tail → c.isDigit = false := by
    intro c tail same
    rcases fracPart with rfl | ⟨ds, rfl, -⟩
    · exact (afterExpo c tail same).1
    · obtain ⟨rfl, -⟩ := List.cons.inj same
      decide
  have sign_stage : numberSign (sign ++ int ++ frac ++ expo ++ rest) = (sign, int ++ frac ++ expo ++ rest) := by
    rcases signed with rfl | rfl
    · rcases intPart with rfl | ⟨c, ds, rfl, digit, -, -⟩
      · rfl
      · simpa using numberSign_of_digit (ds ++ frac ++ expo ++ rest) digit
    · rfl
  have int_stage : readIntegerPart (int ++ (frac ++ expo ++ rest)) = .ok (int, frac ++ expo ++ rest) :=
    readIntegerPart_of intPart afterFrac
  have frac_stage : readFraction (frac ++ (expo ++ rest)) = .ok (frac, expo ++ rest) :=
    readFraction_of fracPart (fun c tail same => (afterExpo c tail same).1)
      (fun tail _ same => (afterExpo '.' tail same).2 rfl)
  have expo_stage := readExponent_of expoPart ends
  simp only [List.append_assoc] at sign_stage int_stage frac_stage ⊢
  simp only [readNumber, sign_stage, int_stage, frac_stage, expo_stage, except_ok_bind, except_pure]
  simp

/-- Every literal the reader takes is in the grammar, and the text it read is the literal
followed by what is left. -/
theorem numberText_of_readNumber {cs : List Char} {lit : String} {rest : List Char}
    (read : readNumber cs = .ok (lit, rest)) : NumberText lit.toList ∧ cs = lit.toList ++ rest := by
  rcases signSplit : numberSign cs with ⟨sign, cs₁⟩
  obtain ⟨signText, signed⟩ := numberSign_eq cs
  rw [signSplit] at signText signed
  cases intRead : readIntegerPart cs₁ with
  | error e =>
    simp only [readNumber, signSplit, intRead, except_error_bind] at read
    cases read
  | ok p₁ =>
    obtain ⟨int, cs₂⟩ := p₁
    obtain ⟨intPart, intText⟩ := readIntegerPart_eq_ok intRead
    cases fracRead : readFraction cs₂ with
    | error e =>
      simp only [readNumber, signSplit, intRead, fracRead, except_ok_bind, except_error_bind] at read
      cases read
    | ok p₂ =>
      obtain ⟨frac, cs₃⟩ := p₂
      obtain ⟨fracPart, fracText⟩ := readFraction_eq_ok fracRead
      cases expoRead : readExponent cs₃ with
      | error e =>
        simp only [readNumber, signSplit, intRead, fracRead, expoRead, except_ok_bind, except_error_bind] at read
        cases read
      | ok p₃ =>
        obtain ⟨expo, cs₄⟩ := p₃
        obtain ⟨expoPart, expoText⟩ := readExponent_eq_ok expoRead
        simp only [readNumber, signSplit, intRead, fracRead, expoRead, except_ok_bind, except_pure,
          Except.ok.injEq, Prod.mk.injEq] at read
        obtain ⟨rfl, rfl⟩ := read
        refine ⟨⟨sign, int, frac, expo, by simp, signed, intPart, fracPart, expoPart⟩, ?_⟩
        rw [signText, intText, fracText, expoText]
        simp

/-! ## Integers -/

theorem toList_toString_int (i : Int) :
    (toString i).toList = (if i < 0 then ['-'] else []) ++ Nat.toDigits 10 i.natAbs := by
  cases i with
  | ofNat n => simp [toString, Int.repr, Nat.toList_repr]
  | negSucc n =>
      simp [toString, Int.repr, Nat.toList_repr, Int.natAbs_negSucc]

theorem toDigits_head_ne_zero (n : Nat) (positive : 0 < n) :
    ∃ c rest, Nat.toDigits 10 n = c :: rest ∧ c ≠ '0' := by
  induction n using Nat.strongRecOn with
  | ind n ih =>
      rw [Nat.toDigits_eq_if (by decide)]
      split
      · rename_i small
        refine ⟨Nat.digitChar n, [], rfl, ?_⟩
        have cases : n = 1 ∨ n = 2 ∨ n = 3 ∨ n = 4 ∨ n = 5 ∨ n = 6 ∨ n = 7 ∨ n = 8 ∨ n = 9 := by omega
        rcases cases with h | h | h | h | h | h | h | h | h <;> subst h <;> decide
      · obtain ⟨c, rest, digits, nonzero⟩ := ih (n / 10) (by omega) (by omega)
        exact ⟨c, rest ++ [Nat.digitChar (n % 10)], by rw [digits, List.cons_append], nonzero⟩

theorem integerPart_toDigits (n : Nat) : IntegerPart (Nat.toDigits 10 n) := by
  have digits : ∀ d ∈ Nat.toDigits 10 n, d.isDigit = true :=
    fun d member => Nat.isDigit_of_mem_toDigits (by decide) (by decide) member
  rcases Nat.eq_zero_or_pos n with rfl | positive
  · exact Or.inl (by rw [Nat.toDigits_zero])
  · obtain ⟨c, ds, spelled, nonzero⟩ := toDigits_head_ne_zero n positive
    rw [spelled] at digits ⊢
    exact Or.inr ⟨c, ds, rfl, digits c (List.mem_cons_self ..), nonzero,
      fun d member => digits d (List.mem_cons_of_mem _ member)⟩

theorem numberText_toString (i : Int) : NumberText (toString i).toList :=
  ⟨if i < 0 then ['-'] else [], Nat.toDigits 10 i.natAbs, [], [], by rw [toList_toString_int]; simp,
    by split <;> simp, integerPart_toDigits i.natAbs, Or.inl rfl, Or.inl rfl⟩

/-! ## Trees read from text -/

mutual
/-- Every number of the tree is a literal of the grammar. -/
def Spelled : Json → Prop
  | .num lit => NumberText lit.toList
  | .arr xs => ItemsSpelled xs
  | .obj fs => FieldsSpelled fs
  | _ => True

/-- Every item is `Spelled`. -/
def ItemsSpelled : List Json → Prop
  | [] => True
  | x :: xs => Spelled x ∧ ItemsSpelled xs

/-- Every member value is `Spelled`. -/
def FieldsSpelled : List (String × Json) → Prop
  | [] => True
  | (_, v) :: fs => Spelled v ∧ FieldsSpelled fs
end

theorem itemsSpelled_iff (xs : List Json) : ItemsSpelled xs ↔ ∀ x ∈ xs, Spelled x := by
  induction xs with
  | nil => simp [ItemsSpelled]
  | cons x xs ih => simp [ItemsSpelled, ih]

theorem fieldsSpelled_iff (fs : List (String × Json)) : FieldsSpelled fs ↔ ∀ kv ∈ fs, Spelled kv.2 := by
  induction fs with
  | nil => simp [FieldsSpelled]
  | cons kv fs ih =>
    obtain ⟨k, v⟩ := kv
    simp [FieldsSpelled, ih]

-- The reader's three functions are taken together by induction on the fuel: a value at
-- `fuel + 1` reads its items or members at `fuel`, and those read their values at `fuel`.
theorem spelled_of_read (fuel : Nat) :
    (∀ cs j rest, readValue fuel cs = .ok (j, rest) → Spelled j) ∧
    (∀ cs acc xs rest, (∀ x ∈ acc, Spelled x) → readItems fuel cs acc = .ok (xs, rest) → ∀ x ∈ xs, Spelled x) ∧
    (∀ cs acc fs rest, (∀ kv ∈ acc, Spelled kv.2) → readMembers fuel cs acc = .ok (fs, rest) →
      ∀ kv ∈ fs, Spelled kv.2) := by
  induction fuel with
  | zero =>
    refine ⟨fun cs j rest read => ?_, fun cs acc xs rest _ read => ?_, fun cs acc fs rest _ read => ?_⟩ <;>
      simp [readValue, readItems, readMembers] at read
  | succ fuel ih =>
    obtain ⟨values, items, members⟩ := ih
    refine ⟨fun cs j rest read => ?_, fun cs acc xs rest spelled read => ?_, fun cs acc fs rest spelled read => ?_⟩
    · -- a value: a container is spelled by its items or members, a number by its literal
      unfold readValue at read
      split at read
      next => cases read
      next c more =>
        split at read
        · unfold readObject at read
          split at read
          · cases read
            exact trivial
          · split at read
            next =>
              rename_i fs rest' found
              cases read
              exact (fieldsSpelled_iff fs).mpr (members _ [] fs _ (by simp) found)
            next => cases read
        split at read
        · unfold readArray at read
          split at read
          · cases read
            exact trivial
          · split at read
            next =>
              rename_i xs rest' found
              cases read
              exact (itemsSpelled_iff xs).mpr (items _ [] xs _ (by simp) found)
            next => cases read
        split at read
        · split at read
          · cases read
            exact trivial
          · cases read
        split at read
        · split at read
          next =>
            rename_i lit rest' found
            cases read
            exact (numberText_of_readNumber found).1
          next => cases read
        split at read
        · split at read <;> cases read
          exact trivial
        split at read
        · split at read <;> cases read
          exact trivial
        split at read
        · split at read <;> cases read
          exact trivial
        cases read
    · -- the items: each value read is spelled, and so is what was read before it
      unfold readItems at read
      split at read
      next => cases read
      next v rest' found =>
        have value := values _ v rest' found
        split at read
        next => cases read
        next more _ =>
          exact items more (v :: acc) xs rest (by simpa [value] using spelled) read
        next more _ =>
          cases read
          intro x mem
          rcases List.mem_cons.mp (List.mem_reverse.mp mem) with rfl | earlier
          · exact value
          · exact spelled x earlier
        next => cases read
    · -- the members: each value read is spelled, and so is what was read before it
      unfold readMembers at read
      split at read
      next => cases read
      next rest₁ =>
        split at read
        next => cases read
        next key rest₂ _ =>
          split at read
          next => cases read
          next rest₃ _ =>
            split at read
            next => cases read
            next v rest₄ found =>
              have value := values _ v rest₄ found
              split at read
              next => cases read
              next more _ =>
                exact members _ ((key, v) :: acc) fs rest (by simpa [value] using spelled) read
              next more _ =>
                cases read
                intro kv mem
                rcases List.mem_cons.mp (List.mem_reverse.mp mem) with rfl | earlier
                · exact value
                · exact spelled kv earlier
              next => cases read
          next => cases read
      next => cases read

/-- Every tree the reader returns has only literals of the grammar. -/
theorem spelled_of_parse {s : String} {j : Json} (read : parse s = .ok j) : Spelled j := by
  unfold parse at read
  dsimp only at read
  split at read
  next => cases read
  next =>
    rename_i v rest found
    split at read
    · cases read
      exact (spelled_of_read _).1 _ _ rest found
    · cases read

end Json
end AgentMemory
