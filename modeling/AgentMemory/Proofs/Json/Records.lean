import Mathlib.Data.List.TakeWhile
import AgentMemory.Proofs.Json.RoundTrip
import AgentMemory.Proofs.Clock.Rfc3339

namespace AgentMemory
namespace Json

/-!
# Reading back the values records are written with

Records are written member by member with the writers of `Json.Value` and read back with
the field readers of `Json.Decode`.  Each reader returns what its writer was given:
texts, truth values, lists of texts (absent ones as `null`), 64-bit integers
(`readInt_ofInt`), and instants with a written form (`readInstant_rfc3339`).

A record is read member by member (`readRecord_cons`): a member whose name a field
claims is read into the record, and reading goes on from there.  A list of records is
read item by item (`readList_map`).  Together these give, for each record of the
stores, that reading its written form gives it back.

Numbers are the one place where writing loses nothing only under a condition: a
document holds 64-bit integers (`Fits64`), as the program's integers are.

The other way round, what reading gives has what writing needs: integers read are 64-bit
(`readInt_fits`), instants read have offsets of whole minutes (`readInstant_minutes`), a
property that every field's reader keeps holds of the record read (`readRecord_keeps`),
and every item of a list read is one that the item reader gave (`readList_mem`).
-/


theorem takeWhile_isDigit_toDigits (n : Nat) :
    (Nat.toDigits 10 n).takeWhile Char.isDigit = Nat.toDigits 10 n :=
  List.takeWhile_eq_self_iff.mpr fun c mem => Nat.isDigit_of_mem_toDigits (by decide) (by decide) mem

theorem numberParts_toString (i : Int) : numberParts (toString i) = (decide (i < 0), i.natAbs, 0) := by
  have digits : ∀ c ∈ Nat.toDigits 10 i.natAbs, c.isDigit = true :=
    fun c mem => Nat.isDigit_of_mem_toDigits (by decide) (by decide) mem
  obtain ⟨d, ds, hd⟩ := List.exists_cons_of_ne_nil (Nat.toDigits_ne_nil (n := i.natAbs) (b := 10))
  have notSign : d ≠ '-' := by
    intro same
    have := digits d (by simp [hd])
    rw [same] at this
    exact absurd this (by decide)
  have value : (Nat.toDigits 10 i.natAbs).foldl (fun acc c => acc * 10 + (c.toNat - 48)) 0 = i.natAbs := by
    rw [Clock.Instant.foldDigits_eq_ofDigitChars, Nat.ofDigitChars_ten_toDigits]
  have text := toList_toString_int i
  by_cases neg : i < 0
  · simp only [numberParts, text, neg, if_true, List.singleton_append]
    simp [takeWhile_isDigit_toDigits, value]
  · simp only [numberParts, text, neg, if_false, List.nil_append]
    rw [hd]
    simp [notSign]
    rw [← hd]
    simp [takeWhile_isDigit_toDigits, value]

theorem literalInt_toString (i : Int) : literalInt? (toString i) = some i := by
  have plain : (toString i).toList.any (fun c => c == '.' || c == 'e' || c == 'E') = false := by
    rw [toList_toString_int, List.any_eq_false]
    intro c mem
    rcases List.mem_append.mp mem with sign | digit
    · by_cases neg : i < 0 <;> simp_all
    · have := Nat.isDigit_of_mem_toDigits (by decide) (by decide) digit
      revert this
      simp only [Char.isDigit]
      intro bounds
      simp only [Bool.or_eq_true, beq_iff_eq, not_or]
      refine ⟨⟨?_, ?_⟩, ?_⟩ <;> rintro rfl <;> simp at bounds
  simp only [literalInt?, plain, numberParts_toString]
  by_cases neg : i < 0
  · simp [neg, abs_of_neg neg]
  · simp [neg, abs_of_nonneg (Int.not_lt.mp neg)]

/-- The integers a document holds: those of 64 bits. -/
def Fits64 (i : Int) : Prop := -(2 ^ 63) ≤ i ∧ i < 2 ^ 63

instance : DecidablePred Fits64 := fun i => inferInstanceAs (Decidable (-(2 ^ 63) ≤ i ∧ i < 2 ^ 63))

/-- A 64-bit integer written as a number reads back as itself. -/
theorem readInt_ofInt {i : Int} (fits : Fits64 i) (current : Int) : readInt (ofInt i) current = .ok i := by
  obtain ⟨low, high⟩ := fits
  simp only [readInt, ofInt]
  rw [literalInt_toString]
  simp only [decide_eq_true_eq, Bool.or_eq_true]
  rw [if_neg (by omega)]

theorem readStrings_ofStrings (xs : Option (List String)) : readStrings (ofStrings? xs) = .ok xs := by
  cases xs with
  | none => rfl
  | some xs =>
    have results : (xs.map Json.str).map (fun x => readString x "") = xs.map Except.ok := by
      simp [Function.comp_def, readString]
    simp only [readStrings, ofStrings?, ofStrings, results]
    simp [List.find?_map, List.filterMap_map, Function.comp_def]

/-- An instant written as RFC 3339 text reads back as itself. -/
theorem readInstant_rfc3339 {t : Clock.Instant} (writable : t.writable) (minutes : t.offset % 60 = 0)
    (current : Clock.Instant) : readInstant (.str t.rfc3339) current = .ok t := by
  simp [readInstant, Clock.Instant.parseRfc3339_rfc3339 t writable minutes]

/-! ## Records and lists of records -/

/-- A member that a field of the record claims is read into the record, and the rest is
read from there. -/
theorem readRecord_cons {σ : Type} {fields : List (Field σ)} {init s : σ} {what k : String} {v : Json}
    {rest : List (String × Json)} {f : Field σ}
    (found : fields.find? (fun f => namesMatch k f.name) = some f) (read : f.read v init = .ok s) :
    readRecord fields init what (.obj ((k, v) :: rest)) = readRecord fields s what (.obj rest) := by
  simp only [readRecord, List.foldl_cons, found, read]

theorem readRecord_nil {σ : Type} (fields : List (Field σ)) (init : σ) (what : String) :
    readRecord fields init what (.obj []) = .ok init := rfl

/-- A fold that takes each item as read, without a remembered mismatch, collects the
items in reverse. -/
theorem foldl_collect {α β ε : Type} {enc : α → β}
    {step : Except ε (List α × Option ε) → β → Except ε (List α × Option ε)} (ys : List α)
    (takes : ∀ y ∈ ys, ∀ out, step (.ok (out, none)) (enc y) = .ok (y :: out, none)) (out : List α) :
    (ys.map enc).foldl step (.ok (out, none)) = .ok (ys.reverse ++ out, none) := by
  induction ys generalizing out with
  | nil => rfl
  | cons y ys ih =>
    rw [List.map_cons, List.foldl_cons, takes y (List.mem_cons_self ..) out,
      ih (fun z mem => takes z (List.mem_cons_of_mem y mem)) (y :: out)]
    simp

/-- Items that each read back as themselves read back as the list. -/
theorem readList_map {α : Type} {item : Json → Except Failure α} {enc : α → Json} (what : String)
    (xs : List α) (back : ∀ x ∈ xs, item (enc x) = .ok x) :
    readList item what (.arr (xs.map enc)) = .ok (some xs) := by
  simp only [readList]
  rw [foldl_collect xs (fun y mem out => by simp [back y mem]) []]
  simp

/-! ## What reading gives -/

theorem except_map_eq_ok {ε α β : Type} {f : α → β} {x : Except ε α} {b : β} (mapped : x.map f = .ok b) :
    ∃ a, x = .ok a ∧ f a = b := by
  cases x with
  | error e => cases mapped
  | ok a =>
    cases mapped
    exact ⟨a, rfl, rfl⟩

theorem except_bind_eq_ok {ε α β : Type} {x : Except ε α} {f : α → Except ε β} {b : β} (bound : (x >>= f) = .ok b) :
    ∃ a, x = .ok a ∧ f a = .ok b := by
  cases x with
  | error e => cases bound
  | ok a => exact ⟨a, rfl, bound⟩

theorem except_mapError_eq_ok {ε ε' α : Type} {g : ε → ε'} {x : Except ε α} {a : α} (mapped : x.mapError g = .ok a) :
    x = .ok a := by
  cases x with
  | error e => cases mapped
  | ok a' =>
    cases mapped
    rfl

/-- An integer read from a document is a 64-bit integer, or the one it replaces. -/
theorem readInt_fits {j : Json} {current n : Int} (read : readInt j current = .ok n) (fits : Fits64 current) :
    Fits64 n := by
  unfold readInt at read
  split at read
  · cases read
    exact fits
  · split at read
    · split at read
      · cases read
      · rename_i inRange
        cases read
        simp only [Bool.or_eq_true, decide_eq_true_eq, not_or] at inRange
        exact ⟨by omega, by omega⟩
    · cases read
  · cases read

theorem readOptInt_fits {j : Json} {o : Option Int} (read : readOptInt j = .ok o) : ∀ n ∈ o, Fits64 n := by
  unfold readOptInt at read
  split at read
  · cases read
    intro n absent
    cases absent
  · obtain ⟨n, field, rfl⟩ := except_map_eq_ok read
    intro m same
    simp only [Option.mem_def, Option.some.injEq] at same
    subst same
    exact readInt_fits field (by decide)

/-- An instant read from a document has an offset of whole minutes, or is the one it
replaces. -/
theorem readInstant_minutes {j : Json} {current t : Clock.Instant} (read : readInstant j current = .ok t)
    (whole : current.offset % 60 = 0) : t.offset % 60 = 0 := by
  unfold readInstant at read
  split at read
  · cases read
    exact whole
  · split at read
    · rename_i parsed
      cases read
      exact Clock.Instant.parseRfc3339_minutes parsed
    · cases read
  · cases read

/-- What every field's reader keeps, reading a record keeps. -/
theorem readRecord_keeps {σ : Type} {fields : List (Field σ)} {init s : σ} {what : String} {j : Json}
    (P : σ → Prop) (start : P init) (keeps : ∀ f ∈ fields, ∀ v x y, P x → f.read v x = .ok y → P y)
    (read : readRecord fields init what j = .ok s) : P s := by
  unfold readRecord at read
  split at read
  · cases read
    exact start
  · rename_i members
    dsimp only at read
    split at read
    · cases read
    · rename_i s' folded
      cases read
      -- every accumulated record along the fold satisfies P
      refine List.foldlRecOn (motive := fun acc => ∀ x g, acc = Except.ok (x, g) → P x) members _ ?_ ?_ s none folded
      · intro x g same
        cases same
        exact start
      · intro acc held kv _ x g stepped
        split at stepped
        · cases stepped
        · rename_i x0 soft
          have before : P x0 := held x0 soft rfl
          split at stepped
          · cases stepped
            exact before
          · rename_i f found
            split at stepped
            · rename_i y readOk
              cases stepped
              exact keeps f (List.mem_of_find?_eq_some found) kv.2 x0 x before readOk
            · split at stepped
              · cases stepped
                exact before
              · cases stepped
    · cases read
  · cases read

/-- Every item of a list read from a document is one that the item reader gave. -/
theorem readList_mem {α : Type} {item : Json → Except Failure α} {what : String} {j : Json} {xs : List α}
    (read : readList item what j = .ok (some xs)) : ∀ x ∈ xs, ∃ v, item v = .ok x := by
  unfold readList at read
  split at read
  · cases read
  · rename_i items
    dsimp only at read
    split at read
    · cases read
    · rename_i out folded
      cases read
      suffices collected : ∀ x ∈ out, ∃ v, item v = .ok x by
        intro x mem
        exact collected x (List.mem_reverse.mp mem)
      -- every item collected along the fold is a value of the reader
      refine List.foldlRecOn
        (motive := fun acc => ∀ out g, acc = Except.ok (out, g) → ∀ x ∈ out, ∃ v, item v = .ok x)
        items _ ?_ ?_ out none folded
      · intro out g same
        cases same
        intro x mem
        cases mem
      · intro acc held v _ out' g stepped
        split at stepped
        · cases stepped
        · rename_i out0 soft
          split at stepped
          · rename_i x readOk
            cases stepped
            intro y mem
            rcases List.mem_cons.mp mem with here | earlier
            · exact ⟨v, here ▸ readOk⟩
            · exact held _ _ rfl y earlier
          · split at stepped
            · cases stepped
              exact held _ _ rfl
            · cases stepped
    · cases read
  · cases read

/-! ## Written trees are integral -/

theorem integral_ofInt (i : Int) : Integral (ofInt i) := ⟨i, rfl⟩

theorem itemsIntegral_map {α : Type} (f : α → Json) (xs : List α) (each : ∀ x ∈ xs, Integral (f x)) :
    ItemsIntegral (xs.map f) := by
  induction xs with
  | nil => trivial
  | cons x xs ih =>
    exact ⟨each x (List.mem_cons_self ..), ih (fun y mem => each y (List.mem_cons_of_mem x mem))⟩

theorem fieldsIntegral_map {α : Type} (f : α → String × Json) (xs : List α) (each : ∀ x ∈ xs, Integral (f x).2) :
    FieldsIntegral (xs.map f) := by
  induction xs with
  | nil => trivial
  | cons x xs ih =>
    exact ⟨each x (List.mem_cons_self ..), ih (fun y mem => each y (List.mem_cons_of_mem x mem))⟩

theorem integral_ofStrings (xs : Option (List String)) : Integral (ofStrings? xs) := by
  cases xs with
  | none => trivial
  | some xs => exact itemsIntegral_map Json.str xs (fun _ _ => trivial)

end Json
end AgentMemory
