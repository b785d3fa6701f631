import AgentMemory.Proofs.Json.RoundTrip

namespace AgentMemory
namespace Json

/-!
# Reading back compact text

Logs keep one document per line, written in the compact layout with no blank at all.
The reader returns the very tree that was written in this layout too, for every tree
whose numbers are literals of the grammar and with any escaping: `parse_compactWith`.

The proof is that of the indented layout without the blanks.  A value reads back
whatever follows it that cannot continue a number, which here is a comma, the bracket
or brace that closes its container, or the end of the text; containers read back item
by item and member by member; and the fuel the reader spends, `readFuel`, is paid for
by the length of the text.
-/

/-! ## The printer's text -/

theorem toList_compactWith_arr (esc : Escaping) (xs : List Json) :
    (compactWith esc (.arr xs)).toList = '[' :: ((compactItems esc xs).toList ++ [']']) := by
  simp [compactWith]

theorem toList_compactWith_obj (esc : Escaping) (fs : List (String × Json)) :
    (compactWith esc (.obj fs)).toList = '{' :: ((compactFields esc fs).toList ++ ['}']) := by
  simp [compactWith]

theorem toList_compactItems_cons (esc : Escaping) (x : Json) {xs : List Json} (nonempty : xs ≠ []) :
    (compactItems esc (x :: xs)).toList =
      (compactWith esc x).toList ++ ',' :: (compactItems esc xs).toList := by
  rw [compactItems.eq_3 esc x xs nonempty]
  simp

theorem toList_compactFields_single (esc : Escaping) (k : String) (v : Json) :
    (compactFields esc [(k, v)]).toList = (quote esc k).toList ++ ':' :: (compactWith esc v).toList := by
  simp [compactFields]

theorem toList_compactFields_cons (esc : Escaping) (k : String) (v : Json) {fs : List (String × Json)}
    (nonempty : fs ≠ []) :
    (compactFields esc ((k, v) :: fs)).toList =
      (quote esc k).toList ++ ':' :: (compactWith esc v).toList ++ ',' :: (compactFields esc fs).toList := by
  rw [compactFields.eq_3 esc k v fs nonempty]
  simp

/-- The compact text of a value starts with a character that is no blank and closes
nothing: a scalar is written as in the indented layout, a container opens with its
bracket or brace. -/
theorem compactWith_head (esc : Escaping) (j : Json) (spelt : Spelled j) :
    ∃ c t, (compactWith esc j).toList = c :: t ∧ isBlank c = false ∧ c ≠ ']' ∧ c ≠ '}' := by
  match j, spelt with
  | .arr xs, _ => exact ⟨'[', _, toList_compactWith_arr esc xs, by decide, by decide, by decide⟩
  | .obj fs, _ => exact ⟨'{', _, toList_compactWith_obj esc fs, by decide, by decide, by decide⟩
  | .null, _ => exact indentedAt_head esc 0 .null trivial
  | .bool b, _ => exact indentedAt_head esc 0 (.bool b) trivial
  | .num n, spelt => exact indentedAt_head esc 0 (.num n) spelt
  | .str s, _ => exact indentedAt_head esc 0 (.str s) trivial

theorem compactFields_opens (esc : Escaping) {fs : List (String × Json)} (nonempty : fs ≠ [])
    (rest : List Char) : ∃ u, (compactFields esc fs).toList ++ rest = '"' :: u := by
  obtain ⟨⟨k, v⟩, more, rfl⟩ := List.exists_cons_of_ne_nil nonempty
  cases more with
  | nil =>
      rw [toList_compactFields_single, toList_quote]
      simp only [List.cons_append, List.append_assoc]
      exact ⟨_, rfl⟩
  | cons f more =>
      rw [toList_compactFields_cons esc k v (List.cons_ne_nil f more), toList_quote]
      simp only [List.cons_append, List.append_assoc]
      exact ⟨_, rfl⟩

/-! ## Reading values, items and members -/

-- As for the indented layout, the three statements are proved together by recursion on
-- the tree, the fuel going down by one at each level the reader enters.
mutual
/-- A value written in the compact layout reads back as itself, whatever follows it
that cannot continue a number. -/
theorem readValue_compactWith (esc : Escaping) : ∀ (j : Json) (fuel : Nat) (rest : List Char),
    Spelled j → readFuel j ≤ fuel → StopsNumber rest →
    readValue fuel ((compactWith esc j).toList ++ rest) = .ok (j, rest)
  | .null, fuel + 1, rest, _, _, _ => by
      simp [compactWith, readValue, readWord, skipBlanks, isBlank]
  | .bool true, fuel + 1, rest, _, _, _ => by
      simp [compactWith, readValue, readWord, skipBlanks, isBlank]
  | .bool false, fuel + 1, rest, _, _, _ => by
      simp [compactWith, readValue, readWord, skipBlanks, isBlank]
  | .num lit, fuel + 1, rest, text, _, stops => by
      rw [show compactWith esc (.num lit) = lit by simp [compactWith]]
      exact readValue_numberText fuel text rest stops
  | .str s, fuel + 1, rest, _, _, _ => by
      simp [compactWith, toList_quote, readValue, skipBlanks, isBlank, readStringBody_escaped]
  | .arr [], fuel + 1, rest, _, _, _ => by
      simp [compactWith, compactItems, readValue, readArray, skipBlanks, isBlank]
  | .arr (x :: xs), fuel + 1, rest, spelt, enough, _ => by
      have items := readItems_compactItems esc (x :: xs) fuel rest [] (List.cons_ne_nil x xs) spelt
        (by simp only [readFuel] at enough; omega)
      obtain ⟨c, t, spelled, solid, notClosing, -⟩ := compactWith_head esc x spelt.1
      have first : ∃ u, (compactItems esc (x :: xs)).toList ++ ']' :: rest = c :: u ∧ isBlank c = false ∧ c ≠ ']' := by
        cases xs with
        | nil => exact ⟨t ++ ']' :: rest, by simp [compactItems, spelled], solid, notClosing⟩
        | cons y ys =>
            refine ⟨t ++ ',' :: ((compactItems esc (y :: ys)).toList ++ ']' :: rest), ?_, solid, notClosing⟩
            rw [toList_compactItems_cons esc x (List.cons_ne_nil y ys), spelled]
            simp
      obtain ⟨u, opens, solid', notClosing'⟩ := first
      rw [toList_compactWith_arr]
      simp only [List.cons_append, List.append_assoc, List.nil_append]
      rw [readValue.eq_2, skipBlanks_of_not_blank _ (by decide)]
      simp only [show ('[' == '{') = false by decide, show ('[' == '[') = true by decide,
        Bool.false_eq_true, if_false, if_true]
      rw [opens, skipBlanks_of_not_blank _ solid', readArray.eq_def]
      split
      next same => exact absurd (List.cons.inj same).1 notClosing'
      next =>
        rw [← opens, items]
        rfl
  | .obj [], fuel + 1, rest, _, _, _ => by
      simp [compactWith, compactFields, readValue, readObject, skipBlanks, isBlank]
  | .obj ((k, v) :: fs), fuel + 1, rest, spelt, enough, _ => by
      have members := readMembers_compactFields esc ((k, v) :: fs) fuel rest [] (List.cons_ne_nil _ fs)
        spelt (by simp only [readFuel] at enough; omega)
      obtain ⟨u, opens⟩ := compactFields_opens esc (List.cons_ne_nil (k, v) fs) ('}' :: rest)
      rw [toList_compactWith_obj]
      simp only [List.cons_append, List.append_assoc, List.nil_append]
      rw [readValue.eq_2, skipBlanks_of_not_blank _ (by decide)]
      simp only [show ('{' == '{') = true by decide, if_true]
      rw [opens, skipBlanks_of_not_blank _ (by decide), readObject.eq_def]
      split
      next same => exact absurd (List.cons.inj same).1 (by decide)
      next =>
        rw [← opens, members]
        rfl
  | .null, 0, _, _, enough, _ => absurd enough (by simp [readFuel])
  | .bool _, 0, _, _, enough, _ => absurd enough (by simp [readFuel])
  | .num _, 0, _, _, enough, _ => absurd enough (by simp [readFuel])
  | .str _, 0, _, _, enough, _ => absurd enough (by simp [readFuel])
  | .arr _, 0, _, _, enough, _ => absurd enough (by simp [readFuel])
  | .obj _, 0, _, _, enough, _ => absurd enough (by simp [readFuel])

theorem readItems_compactItems (esc : Escaping) : ∀ (xs : List Json) (fuel : Nat) (rest : List Char)
    (acc : List Json), xs ≠ [] → ItemsSpelled xs → itemsFuel xs ≤ fuel →
    readItems fuel ((compactItems esc xs).toList ++ ']' :: rest) acc = .ok (acc.reverse ++ xs, rest)
  | [], _, _, _, nonempty, _, _ => absurd rfl nonempty
  | [x], fuel + 1, rest, acc, _, spelt, enough => by
      have value := readValue_compactWith esc x fuel (']' :: rest) spelt.1
        (by simp only [itemsFuel] at enough; omega) (Or.inr (Or.inr (Or.inl rfl)))
      simp only [compactItems, readItems]
      rw [value]
      simp [skipBlanks_of_not_blank _ (show isBlank ']' = false by decide)]
  | x :: y :: ys, fuel + 1, rest, acc, _, spelt, enough => by
      have value := readValue_compactWith esc x fuel
        (',' :: ((compactItems esc (y :: ys)).toList ++ ']' :: rest))
        spelt.1 (by simp only [itemsFuel] at enough; omega) (Or.inl rfl)
      have others := readItems_compactItems esc (y :: ys) fuel rest (x :: acc) (List.cons_ne_nil y ys)
        spelt.2 (by simp only [itemsFuel] at enough ⊢; omega)
      rw [toList_compactItems_cons esc x (List.cons_ne_nil y ys)]
      simp only [List.append_assoc, List.cons_append, readItems]
      rw [value]
      simp only [skipBlanks_of_not_blank _ (show isBlank ',' = false by decide), others]
      simp
  | _ :: _, 0, _, _, _, _, enough => absurd enough (by simp [itemsFuel])

theorem readMembers_compactFields (esc : Escaping) : ∀ (fs : List (String × Json)) (fuel : Nat)
    (rest : List Char) (acc : List (String × Json)), fs ≠ [] → FieldsSpelled fs → fieldsFuel fs ≤ fuel →
    readMembers fuel ((compactFields esc fs).toList ++ '}' :: rest) acc = .ok (acc.reverse ++ fs, rest)
  | [], _, _, _, nonempty, _, _ => absurd rfl nonempty
  | [(k, v)], fuel + 1, rest, acc, _, spelt, enough => by
      have value := readValue_compactWith esc v fuel ('}' :: rest) spelt.1
        (by simp only [fieldsFuel] at enough; omega) (Or.inr (Or.inr (Or.inr rfl)))
      rw [toList_compactFields_single, toList_quote]
      simp only [List.cons_append, List.append_assoc, readMembers, readStringBody_escaped,
        List.reverse_nil, List.nil_append, String.ofList_toList,
        skipBlanks_of_not_blank _ (show isBlank ':' = false by decide)]
      rw [value]
      simp [skipBlanks_of_not_blank _ (show isBlank '}' = false by decide)]
  | (k, v) :: f :: more, fuel + 1, rest, acc, _, spelt, enough => by
      have value := readValue_compactWith esc v fuel
        (',' :: ((compactFields esc (f :: more)).toList ++ '}' :: rest))
        spelt.1 (by simp only [fieldsFuel] at enough; omega) (Or.inl rfl)
      have others := readMembers_compactFields esc (f :: more) fuel rest ((k, v) :: acc)
        (List.cons_ne_nil f more) spelt.2 (by simp only [fieldsFuel] at enough ⊢; omega)
      obtain ⟨u, opens⟩ := compactFields_opens esc (List.cons_ne_nil f more) ('}' :: rest)
      rw [toList_compactFields_cons esc k v (List.cons_ne_nil f more), toList_quote]
      simp only [List.cons_append, List.append_assoc, readMembers, readStringBody_escaped,
        List.reverse_nil, List.nil_append, String.ofList_toList,
        skipBlanks_of_not_blank _ (show isBlank ':' = false by decide)]
      rw [value]
      simp only [skipBlanks_of_not_blank _ (show isBlank ',' = false by decide)]
      rw [opens, skipBlanks_of_not_blank _ (show isBlank '"' = false by decide), ← opens, others]
      simp
  | _ :: _, 0, _, _, _, _, enough => absurd enough (by simp [fieldsFuel])
end

/-! ## The fuel the text pays for -/

mutual
theorem readFuel_le_compact (esc : Escaping) : ∀ (j : Json), Spelled j →
    readFuel j ≤ (compactWith esc j).toList.length
  | .null, _ => by simp [readFuel, compactWith]
  | .bool true, _ => by simp [readFuel, compactWith]
  | .bool false, _ => by simp [readFuel, compactWith]
  | .num lit, text => by
      obtain ⟨c, t, spelledOut, -⟩ := NumberText.head text
      simp only [readFuel, compactWith, spelledOut, List.length_cons]
      omega
  | .str s, _ => by simp [readFuel, compactWith, toList_quote]
  | .arr [], _ => by simp [readFuel, itemsFuel, compactWith]
  | .arr (x :: xs), spelt => by
      have items := itemsFuel_le_compact esc (x :: xs) (List.cons_ne_nil x xs) spelt
      rw [toList_compactWith_arr]
      simp only [readFuel, List.length_cons, List.length_append, List.length_nil] at items ⊢
      omega
  | .obj [], _ => by simp [readFuel, fieldsFuel, compactWith]
  | .obj (kv :: fs), spelt => by
      have members := fieldsFuel_le_compact esc (kv :: fs) (List.cons_ne_nil kv fs) spelt
      rw [toList_compactWith_obj]
      simp only [readFuel, List.length_cons, List.length_append, List.length_nil] at members ⊢
      omega

theorem itemsFuel_le_compact (esc : Escaping) : ∀ (xs : List Json), xs ≠ [] →
    ItemsSpelled xs → itemsFuel xs ≤ (compactItems esc xs).toList.length + 1
  | [], nonempty, _ => absurd rfl nonempty
  | [x], _, spelt => by
      have value := readFuel_le_compact esc x spelt.1
      simp only [itemsFuel, compactItems]
      omega
  | x :: y :: ys, _, spelt => by
      have value := readFuel_le_compact esc x spelt.1
      have others := itemsFuel_le_compact esc (y :: ys) (List.cons_ne_nil y ys) spelt.2
      rw [toList_compactItems_cons esc x (List.cons_ne_nil y ys)]
      simp only [itemsFuel, List.length_append, List.length_cons] at others ⊢
      omega

theorem fieldsFuel_le_compact (esc : Escaping) : ∀ (fs : List (String × Json)), fs ≠ [] →
    FieldsSpelled fs → fieldsFuel fs ≤ (compactFields esc fs).toList.length + 1
  | [], nonempty, _ => absurd rfl nonempty
  | [(k, v)], _, spelt => by
      have value := readFuel_le_compact esc v spelt.1
      rw [toList_compactFields_single]
      simp only [fieldsFuel, List.length_append, List.length_cons]
      omega
  | (k, v) :: f :: more, _, spelt => by
      have value := readFuel_le_compact esc v spelt.1
      have others := fieldsFuel_le_compact esc (f :: more) (List.cons_ne_nil f more) spelt.2
      rw [toList_compactFields_cons esc k v (List.cons_ne_nil f more)]
      simp only [fieldsFuel, List.length_append, List.length_cons] at others ⊢
      omega
end

/-! ## One line

Compact text holds no line feed: a line feed in a string is escaped, a literal holds none,
and the layout puts no blank anywhere.  So a compact document is one line of a log.
-/

theorem hexDigit_ne_newline : ∀ d, d < 16 → hexDigit d ≠ '\n' := by decide

theorem newline_not_mem_unicodeEscape (n : Nat) : '\n' ∉ unicodeEscape n := by
  simp only [unicodeEscape, List.mem_cons, List.not_mem_nil, or_false, not_or]
  refine ⟨by decide, by decide, ?_, ?_, ?_, ?_⟩ <;>
    exact (hexDigit_ne_newline _ (Nat.mod_lt _ (by decide))).symm

theorem newline_not_mem_escapeChar (esc : Escaping) (c : Char) : '\n' ∉ escapeChar esc c := by
  unfold escapeChar
  dsimp only
  split_ifs with quote backslash newline
  any_goals decide
  any_goals exact newline_not_mem_unicodeEscape _
  rw [List.mem_singleton]
  rintro rfl
  exact newline rfl

theorem newline_not_mem_quote (esc : Escaping) (s : String) : '\n' ∉ (quote esc s).toList := by
  rw [toList_quote]
  simp [List.mem_flatMap, newline_not_mem_escapeChar]

theorem newline_not_mem_numberText {cs : List Char} (text : NumberText cs) : '\n' ∉ cs := by
  intro mem
  rcases text.mem '\n' mem with digit | same | same | same | same | same
  · simp at digit
  all_goals exact absurd same (by decide)

-- The three statements are proved together by recursion on the tree.
mutual
theorem newline_not_mem_compactWith (esc : Escaping) : ∀ (j : Json), Spelled j → '\n' ∉ (compactWith esc j).toList
  | .null, _ => by simp [compactWith]
  | .bool true, _ => by simp [compactWith]
  | .bool false, _ => by simp [compactWith]
  | .num lit, text => by
      rw [show compactWith esc (.num lit) = lit by simp [compactWith]]
      exact newline_not_mem_numberText text
  | .str s, _ => by
      rw [show compactWith esc (.str s) = quote esc s by simp [compactWith]]
      exact newline_not_mem_quote esc s
  | .arr xs, spelt => by
      have items := newline_not_mem_compactItems esc xs spelt
      rw [toList_compactWith_arr]
      simp [items]
  | .obj fs, spelt => by
      have members := newline_not_mem_compactFields esc fs spelt
      rw [toList_compactWith_obj]
      simp [members]

theorem newline_not_mem_compactItems (esc : Escaping) : ∀ (xs : List Json), ItemsSpelled xs →
    '\n' ∉ (compactItems esc xs).toList
  | [], _ => by simp [compactItems]
  | [x], spelt => by
      simpa [compactItems] using newline_not_mem_compactWith esc x spelt.1
  | x :: y :: ys, spelt => by
      have value := newline_not_mem_compactWith esc x spelt.1
      have others := newline_not_mem_compactItems esc (y :: ys) spelt.2
      rw [toList_compactItems_cons esc x (List.cons_ne_nil y ys)]
      simp [value, others]

theorem newline_not_mem_compactFields (esc : Escaping) : ∀ (fs : List (String × Json)), FieldsSpelled fs →
    '\n' ∉ (compactFields esc fs).toList
  | [], _ => by simp [compactFields]
  | [(k, v)], spelt => by
      have value := newline_not_mem_compactWith esc v spelt.1
      rw [toList_compactFields_single]
      simp [value, newline_not_mem_quote]
  | (k, v) :: f :: more, spelt => by
      have value := newline_not_mem_compactWith esc v spelt.1
      have others := newline_not_mem_compactFields esc (f :: more) spelt.2
      rw [toList_compactFields_cons esc k v (List.cons_ne_nil f more)]
      simp [value, others, newline_not_mem_quote]
end

/-! ## Documents -/

/-- A tree whose numbers are literals of the grammar, written compact with any escaping,
reads back as itself. -/
theorem parse_compactWith (esc : Escaping) (j : Json) (spelt : Spelled j) :
    parse (compactWith esc j) = .ok j := by
  have bound := readFuel_le_compact esc j spelt
  have value := readValue_compactWith esc j (3 * (compactWith esc j).toList.length + 3) []
    spelt (by omega) trivial
  simp only [parse]
  rw [List.append_nil] at value
  rw [value]
  rfl

/-- The same for the documents' escaping, through the reader that reports failures as
the stores do. -/
theorem parseDocument_compact (j : Json) (spelt : Spelled j) : parseDocument (compact j) = .ok j := by
  simp [parseDocument, compact, parse_compactWith .document j spelt]

end Json
end AgentMemory
