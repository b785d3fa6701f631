import Mathlib.Tactic.SplitIfs
import AgentMemory.Json.Write
import AgentMemory.Json.Decode
import AgentMemory.Proofs.Json.Numbers

namespace AgentMemory
namespace Json

/-!
# Reading back what the stores write

Every store keeps its state as a document written by `documentText`, and reads it
back with `parse`.  This module proves that the reader returns the very tree that was
written, for every tree whose numbers are literals of the grammar (`Spelled`): the
integers most stores write, the shortest digits of doubles, and every literal a tree
read from text holds.  Main statement: `parse_indented`.

The proof follows the text.  A string reads back character by character, each
escape decoding to the character it stands for.  A literal reads back when what
follows it cannot continue a number, which in the indented layout is always a comma,
a line feed or the end.  Containers read back item by item, with the indentation skipped as
blanks.  The reader is bounded by a fuel that the text's length pays for: `readFuel`
counts what the reader spends, and it never exceeds the length of the text.
-/

/-! ## Trees the stores write -/

mutual
/-- Every number of the tree is the literal of an integer. -/
def Integral : Json → Prop
  | .num lit => ∃ i : Int, lit = toString i
  | .arr xs => ItemsIntegral xs
  | .obj fs => FieldsIntegral fs
  | _ => True

/-- Every item is `Integral`. -/
def ItemsIntegral : List Json → Prop
  | [] => True
  | x :: xs => Integral x ∧ ItemsIntegral xs

/-- Every member value is `Integral`. -/
def FieldsIntegral : List (String × Json) → Prop
  | [] => True
  | (_, v) :: fs => Integral v ∧ FieldsIntegral fs
end

-- Proved together by recursion on the tree, as the predicates are defined.
mutual
theorem Integral.spelled : ∀ {j : Json}, Integral j → Spelled j
  | .num _, ⟨i, same⟩ => by
      rw [Spelled, same]
      exact numberText_toString i
  | .arr _, integral => ItemsIntegral.spelled integral
  | .obj _, integral => FieldsIntegral.spelled integral
  | .null, _ => trivial
  | .bool _, _ => trivial
  | .str _, _ => trivial

theorem ItemsIntegral.spelled : ∀ {j : List Json}, ItemsIntegral j → ItemsSpelled j
  | [], _ => trivial
  | _ :: _, integral => ⟨Integral.spelled integral.1, ItemsIntegral.spelled integral.2⟩

theorem FieldsIntegral.spelled : ∀ {j : List (String × Json)}, FieldsIntegral j → FieldsSpelled j
  | [], _ => trivial
  | (_, _) :: _, integral => ⟨Integral.spelled integral.1, FieldsIntegral.spelled integral.2⟩
end

mutual
/-- The fuel the reader spends on a value. -/
def readFuel : Json → Nat
  | .arr xs => 1 + itemsFuel xs
  | .obj fs => 1 + fieldsFuel fs
  | _ => 1

/-- The fuel the reader spends on the items of an array. -/
def itemsFuel : List Json → Nat
  | [] => 0
  | x :: xs => 1 + readFuel x + itemsFuel xs

/-- The fuel the reader spends on the members of an object. -/
def fieldsFuel : List (String × Json) → Nat
  | [] => 0
  | (_, v) :: fs => 1 + readFuel v + fieldsFuel fs
end

/-- What follows a value in either layout: nothing, a comma, a line feed, or the
bracket or brace that closes its container, none of which can continue a number. -/
def StopsNumber : List Char → Prop
  | [] => True
  | c :: _ => c = ',' ∨ c = '\n' ∨ c = ']' ∨ c = '}'

theorem StopsNumber.ends {rest : List Char} (stops : StopsNumber rest) : EndsNumber rest := by
  cases rest with
  | nil => trivial
  | cons c tail => rcases stops with rfl | rfl | rfl | rfl <;> exact ⟨rfl, by decide, by decide, by decide⟩

/-! ## Blanks -/

@[simp] theorem skipBlanks_space (rest : List Char) : skipBlanks (' ' :: rest) = skipBlanks rest := by
  simp [skipBlanks, isBlank]

@[simp] theorem skipBlanks_newline (rest : List Char) :
    skipBlanks ('\n' :: rest) = skipBlanks rest := by
  simp [skipBlanks, isBlank]

theorem skipBlanks_of_not_blank {c : Char} (rest : List Char) (solid : isBlank c = false) :
    skipBlanks (c :: rest) = c :: rest := by
  simp [skipBlanks, solid]

@[simp] theorem skipBlanks_replicate_space (n : Nat) (rest : List Char) :
    skipBlanks (List.replicate n ' ' ++ rest) = skipBlanks rest := by
  induction n with
  | zero => rfl
  | succ n ih => rw [List.replicate_succ, List.cons_append, skipBlanks_space, ih]

@[simp] theorem skipBlanks_skipBlanks (cs : List Char) : skipBlanks (skipBlanks cs) = skipBlanks cs := by
  induction cs with
  | nil => rfl
  | cons c rest ih =>
      cases blank : isBlank c
      · rw [skipBlanks_of_not_blank rest blank, skipBlanks_of_not_blank rest blank]
      · simpa [skipBlanks, blank] using ih

@[simp] theorem toList_indentOf (level : Nat) : (indentOf level).toList = List.replicate (2 * level) ' ' := by
  simp [indentOf]

/-! ## Strings -/

theorem hexValue_hexDigit : ∀ d, d < 16 → hexValue? (hexDigit d) = some d := by decide

theorem readHex4_unicodeEscape (n : Nat) (small : n < 65536) (rest : List Char) :
    readHex4 ((unicodeEscape n).drop 2 ++ rest) = .ok (n, rest) := by
  have d1 := hexValue_hexDigit (n / 4096 % 16) (Nat.mod_lt _ (by decide))
  have d2 := hexValue_hexDigit (n / 256 % 16) (Nat.mod_lt _ (by decide))
  have d3 := hexValue_hexDigit (n / 16 % 16) (Nat.mod_lt _ (by decide))
  have d4 := hexValue_hexDigit (n % 16) (Nat.mod_lt _ (by decide))
  simp only [unicodeEscape, readHex4, readHex4.go, List.drop_succ_cons, List.drop_zero, List.cons_append,
    List.nil_append, d1, d2, d3, d4]
  congr 3
  omega

@[simp] theorem readStringBody_closing (rest acc : List Char) :
    readStringBody ('"' :: rest) acc = .ok (String.ofList acc.reverse, rest) := by
  rw [readStringBody.eq_def]
  rfl

theorem readStringBody_plain {c : Char} (rest acc : List Char) (notQuote : c ≠ '"')
    (notBackslash : c ≠ '\\') (printable : 0x20 ≤ c.toNat) :
    readStringBody (c :: rest) acc = readStringBody rest (c :: acc) := by
  have control : ¬ c.toNat < 0x20 := by omega
  rw [readStringBody.eq_def]
  split
  next same => cases same
  next same => exact absurd (List.cons.inj same).1 notQuote
  next same => exact absurd (List.cons.inj same).1 notBackslash
  next same =>
    obtain ⟨rfl, rfl⟩ := List.cons.inj same
    simp [control]

theorem readStringBody_short {e decoded : Char} (rest acc : List Char) (notU : e ≠ 'u')
    (table : (if e == '"' then some '"' else if e == '\\' then some '\\'
          else if e == '/' then some '/' else if e == 'b' then some (Char.ofNat 8)
          else if e == 'f' then some (Char.ofNat 12) else if e == 'n' then some '\n'
          else if e == 'r' then some '\r' else if e == 't' then some '\t' else none) = some decoded) :
    readStringBody ('\\' :: e :: rest) acc = readStringBody rest (decoded :: acc) := by
  rw [readStringBody.eq_def]
  simp only [beq_iff_eq] at table
  simp only [beq_iff_eq, notU, if_false, table]

theorem readStringBody_unicodeEscape (c : Char) (small : c.toNat < 0xD800) (rest acc : List Char) :
    readStringBody (unicodeEscape c.toNat ++ rest) acc = readStringBody rest (c :: acc) := by
  have hex := readHex4_unicodeEscape c.toNat (by omega) rest
  have notSurrogate : isSurrogate c.toNat = false := by simp [isSurrogate]; omega
  simp only [unicodeEscape, List.drop_succ_cons, List.drop_zero, List.cons_append, List.nil_append] at hex
  rw [readStringBody.eq_def]
  simp only [unicodeEscape, List.cons_append, List.nil_append, beq_self_eq_true, if_true]
  rw [hex]
  simp [notSurrogate, Char.ofNat_toNat, show rest.length ≤ rest.length + 1 + 1 + 1 + 1 by omega]

theorem readStringBody_escapeChar (esc : Escaping) (c : Char) (rest acc : List Char) :
    readStringBody (escapeChar esc c ++ rest) acc = readStringBody rest (c :: acc) := by
  simp only [escapeChar]
  split_ifs with quote backslash newline ret tab backspace formfeed control markup separator
  · rw [beq_iff_eq.mp quote]
    exact readStringBody_short rest acc (by decide) (by decide)
  · rw [beq_iff_eq.mp backslash]
    exact readStringBody_short rest acc (by decide) (by decide)
  · rw [beq_iff_eq.mp newline]
    exact readStringBody_short rest acc (by decide) (by decide)
  · rw [beq_iff_eq.mp ret]
    exact readStringBody_short rest acc (by decide) (by decide)
  · rw [beq_iff_eq.mp tab]
    exact readStringBody_short rest acc (by decide) (by decide)
  · have eight : c = Char.ofNat 8 := by
      rw [← Char.ofNat_toNat c]
      simp_all
    rw [eight]
    exact readStringBody_short rest acc (by decide) (by decide)
  · have twelve : c = Char.ofNat 12 := by
      rw [← Char.ofNat_toNat c]
      simp_all
    rw [twelve]
    exact readStringBody_short rest acc (by decide) (by decide)
  · exact readStringBody_unicodeEscape c (by omega) rest acc
  · have small : c.toNat < 0xD800 := by
      simp only [Bool.and_eq_true, Bool.or_eq_true, beq_iff_eq] at markup
      rcases markup.2 with (same | same) | same <;> rw [same] <;> decide
    exact readStringBody_unicodeEscape c small rest acc
  · have small : c.toNat < 0xD800 := by
      simp only [Bool.and_eq_true, Bool.or_eq_true, beq_iff_eq] at separator
      omega
    exact readStringBody_unicodeEscape c small rest acc
  · simp only [beq_iff_eq] at quote backslash
    exact readStringBody_plain rest acc quote backslash (by omega)

theorem readStringBody_escaped (esc : Escaping) (cs : List Char) (rest acc : List Char) :
    readStringBody (cs.flatMap (escapeChar esc) ++ '"' :: rest) acc =
      .ok (String.ofList (acc.reverse ++ cs), rest) := by
  induction cs generalizing acc with
  | nil => simp
  | cons c cs ih =>
      rw [List.flatMap_cons, List.append_assoc, readStringBody_escapeChar, ih]
      simp

theorem toList_quote (esc : Escaping) (s : String) :
    (quote esc s).toList = '"' :: (s.toList.flatMap (escapeChar esc) ++ ['"']) := by
  simp [quote]

theorem escapeChar_ne_nil (esc : Escaping) (c : Char) : escapeChar esc c ≠ [] := by
  simp only [escapeChar]
  split_ifs <;> simp [unicodeEscape]

theorem length_le_flatMap_escapeChar (esc : Escaping) (cs : List Char) :
    cs.length ≤ (cs.flatMap (escapeChar esc)).length := by
  induction cs with
  | nil => simp
  | cons c cs ih =>
    have written := List.length_pos_iff.mpr (escapeChar_ne_nil esc c)
    simp only [List.flatMap_cons, List.length_append, List.length_cons]
    omega

theorem length_lt_quote (esc : Escaping) (s : String) : s.length < (quote esc s).length := by
  have escaped := length_le_flatMap_escapeChar esc s.toList
  rw [← String.length_toList, ← String.length_toList, toList_quote]
  simp only [List.length_cons, List.length_append]
  omega

theorem length_quote_replicate (esc : Escaping) (c : Char) (n : Nat) :
    (quote esc (String.ofList (List.replicate n c))).length = n * (escapeChar esc c).length + 2 := by
  rw [← String.length_toList, toList_quote, String.toList_ofList]
  simp [List.length_flatMap, List.map_replicate]

theorem readStringBody_quote (esc : Escaping) (s : String) (rest : List Char) :
    readStringBody ((quote esc s).toList.tail ++ rest) [] = .ok (s, rest) := by
  rw [toList_quote, List.tail_cons, List.append_assoc, List.singleton_append, readStringBody_escaped]
  simp

/-! ## The printer's text -/

theorem toList_indentedAt_arr (esc : Escaping) (level : Nat) {xs : List Json} (nonempty : xs ≠ []) :
    (indentedAt esc level (.arr xs)).toList =
      '[' :: '\n' :: ((indentedItems esc (level + 1) xs).toList ++
        '\n' :: List.replicate (2 * level) ' ' ++ [']']) := by
  rw [indentedAt.eq_3 esc level xs nonempty]
  simp

theorem toList_indentedAt_obj (esc : Escaping) (level : Nat) {fs : List (String × Json)}
    (nonempty : fs ≠ []) :
    (indentedAt esc level (.obj fs)).toList =
      '{' :: '\n' :: ((indentedFields esc (level + 1) fs).toList ++
        '\n' :: List.replicate (2 * level) ' ' ++ ['}']) := by
  rw [indentedAt.eq_4 esc level fs nonempty]
  simp

theorem toList_indentedItems_single (esc : Escaping) (level : Nat) (x : Json) :
    (indentedItems esc level [x]).toList = List.replicate (2 * level) ' ' ++ (indentedAt esc level x).toList := by
  simp [indentedItems]

theorem toList_indentedItems_cons (esc : Escaping) (level : Nat) (x : Json) {xs : List Json}
    (nonempty : xs ≠ []) :
    (indentedItems esc level (x :: xs)).toList =
      List.replicate (2 * level) ' ' ++ (indentedAt esc level x).toList ++ ',' :: '\n' ::
        (indentedItems esc level xs).toList := by
  rw [indentedItems.eq_3 esc level x xs nonempty]
  simp

theorem toList_indentedFields_single (esc : Escaping) (level : Nat) (k : String) (v : Json) :
    (indentedFields esc level [(k, v)]).toList =
      List.replicate (2 * level) ' ' ++ (quote esc k).toList ++ ':' :: ' ' :: (indentedAt esc level v).toList := by
  simp [indentedFields]

theorem toList_indentedFields_cons (esc : Escaping) (level : Nat) (k : String) (v : Json)
    {fs : List (String × Json)} (nonempty : fs ≠ []) :
    (indentedFields esc level ((k, v) :: fs)).toList =
      List.replicate (2 * level) ' ' ++ (quote esc k).toList ++ ':' :: ' ' :: (indentedAt esc level v).toList ++
        ',' :: '\n' :: (indentedFields esc level fs).toList := by
  rw [indentedFields.eq_3 esc level k v fs nonempty]
  simp

/-! ## Where a value's text lies -/

theorem infix_indentedItems (esc : Escaping) (level : Nat) (x : Json) :
    ∀ {xs : List Json}, x ∈ xs → (indentedAt esc level x).toList <:+: (indentedItems esc level xs).toList
  | [], mem => by cases mem
  | [y], mem => by
    rw [List.mem_singleton.mp mem, toList_indentedItems_single]
    exact (List.suffix_append _ _).isInfix
  | y :: z :: xs, mem => by
    rw [toList_indentedItems_cons esc level y (List.cons_ne_nil z xs)]
    rcases List.mem_cons.mp mem with rfl | later
    · exact (List.suffix_append _ _).isInfix.trans (List.prefix_append _ _).isInfix
    · exact (infix_indentedItems esc level x later).trans
        ((List.suffix_cons _ _).trans ((List.suffix_cons _ _).trans (List.suffix_append _ _))).isInfix

/-- The text of a member's value lies inside the text of the members: each member is a
line of its own, the value last on it. -/
theorem infix_indentedFields (esc : Escaping) (level : Nat) (k : String) (v : Json) :
    ∀ {fs : List (String × Json)}, (k, v) ∈ fs →
      (indentedAt esc level v).toList <:+: (indentedFields esc level fs).toList
  | [], mem => by cases mem
  | [(k', v')], mem => by
    obtain ⟨rfl, rfl⟩ := Prod.mk.inj (List.mem_singleton.mp mem)
    rw [toList_indentedFields_single]
    exact ((List.suffix_cons _ _).trans ((List.suffix_cons _ _).trans (List.suffix_append _ _))).isInfix
  | (k', v') :: f :: fs, mem => by
    rw [toList_indentedFields_cons esc level k' v' (List.cons_ne_nil f fs)]
    rcases List.mem_cons.mp mem with first | later
    · obtain ⟨rfl, rfl⟩ := Prod.mk.inj first
      exact ((List.suffix_cons _ _).trans ((List.suffix_cons _ _).trans (List.suffix_append _ _))).isInfix.trans
        (List.prefix_append _ _).isInfix
    · exact (infix_indentedFields esc level k v later).trans
        ((List.suffix_cons _ _).trans ((List.suffix_cons _ _).trans (List.suffix_append _ _))).isInfix

theorem infix_indentedAt_arr (esc : Escaping) (level : Nat) {x : Json} {xs : List Json} (mem : x ∈ xs) :
    (indentedAt esc (level + 1) x).toList <:+: (indentedAt esc level (.arr xs)).toList := by
  rw [toList_indentedAt_arr esc level (List.ne_nil_of_mem mem)]
  exact (infix_indentedItems esc (level + 1) x mem).trans
    ⟨['[', '\n'], '\n' :: List.replicate (2 * level) ' ' ++ [']'], by simp⟩

/-- The text of a member's value lies inside the text of an object holding it, a level
deeper. -/
theorem infix_indentedAt_obj (esc : Escaping) (level : Nat) (k : String) {v : Json}
    {fs : List (String × Json)} (mem : (k, v) ∈ fs) :
    (indentedAt esc (level + 1) v).toList <:+: (indentedAt esc level (.obj fs)).toList := by
  rw [toList_indentedAt_obj esc level (List.ne_nil_of_mem mem)]
  exact (infix_indentedFields esc (level + 1) k v mem).trans
    ⟨['{', '\n'], '\n' :: List.replicate (2 * level) ' ' ++ ['}'], by simp⟩

theorem suffix_indentedItems_cons (esc : Escaping) (level : Nat) (y : Json) (ys : List Json) :
    (indentedItems esc level ys).toList <:+ (indentedItems esc level (y :: ys)).toList := by
  cases ys with
  | nil => simp [indentedItems]
  | cons z zs =>
    rw [toList_indentedItems_cons esc level y (List.cons_ne_nil z zs)]
    exact (List.suffix_cons _ _).trans ((List.suffix_cons _ _).trans (List.suffix_append _ _))

theorem sublist_indentedItems (esc : Escaping) (level : Nat) {xs ys : List Json} (sub : xs.Sublist ys) :
    (indentedItems esc level xs).toList.Sublist (indentedItems esc level ys).toList := by
  induction sub with
  | slnil => exact List.Sublist.refl _
  | cons y _ ih => exact ih.trans (suffix_indentedItems_cons esc level y _).sublist
  | @cons_cons xs ys y sub ih =>
    -- a kept item is followed by a separator exactly when some item follows it
    cases xs with
    | nil =>
      cases ys with
      | nil => exact List.Sublist.refl _
      | cons z zs =>
        rw [toList_indentedItems_single, toList_indentedItems_cons esc level y (List.cons_ne_nil z zs)]
        exact (List.prefix_append _ _).sublist
    | cons x xs =>
      have nonempty : ys ≠ [] := List.ne_nil_of_mem (sub.subset List.mem_cons_self)
      rw [toList_indentedItems_cons esc level y (List.cons_ne_nil x xs), toList_indentedItems_cons esc level y nonempty]
      exact ((ih.cons_cons _).cons_cons _).append_left _

theorem sublist_indentedAt_arr (esc : Escaping) (level : Nat) {xs ys : List Json} (sub : xs.Sublist ys) :
    (indentedAt esc level (.arr xs)).toList.Sublist (indentedAt esc level (.arr ys)).toList := by
  cases xs with
  | nil =>
    cases ys with
    | nil => exact List.Sublist.refl _
    | cons y ys =>
      rw [toList_indentedAt_arr esc level (List.cons_ne_nil y ys)]
      simp [indentedAt]
  | cons x xs =>
    have nonempty : ys ≠ [] := List.ne_nil_of_mem (sub.subset List.mem_cons_self)
    rw [toList_indentedAt_arr esc level (List.cons_ne_nil x xs), toList_indentedAt_arr esc level nonempty]
    exact ((((sublist_indentedItems esc (level + 1) sub).append_right _).append_right _).cons_cons _).cons_cons _

theorem indentedAt_str (esc : Escaping) (level : Nat) (s : String) : indentedAt esc level (.str s) = quote esc s := by
  simp [indentedAt, compactWith]

theorem numberLead {c : Char} (lead : c = '-' ∨ c.isDigit = true) :
    isBlank c = false ∧ c ≠ ']' ∧ c ≠ '}' ∧ c ≠ '{' ∧ c ≠ '[' ∧ c ≠ '"' := by
  rcases lead with rfl | digit
  · decide
  · refine ⟨?_, ?_, ?_, ?_, ?_, ?_⟩
    · simp only [isBlank, Bool.or_eq_false_iff, beq_eq_false_iff_ne]
      refine ⟨⟨⟨?_, ?_⟩, ?_⟩, ?_⟩ <;> (rintro rfl; simp at digit)
    all_goals (rintro rfl; simp at digit)

theorem indentedAt_head (esc : Escaping) (level : Nat) (j : Json) (spelled : Spelled j) :
    ∃ c t, (indentedAt esc level j).toList = c :: t ∧ isBlank c = false ∧ c ≠ ']' ∧ c ≠ '}' := by
  match j, spelled with
  | .null, _ => exact ⟨'n', ['u', 'l', 'l'], by simp [indentedAt, compactWith], by decide, by decide, by decide⟩
  | .bool true, _ => exact ⟨'t', ['r', 'u', 'e'], by simp [indentedAt, compactWith], by decide, by decide, by decide⟩
  | .bool false, _ => exact ⟨'f', ['a', 'l', 's', 'e'], by simp [indentedAt, compactWith], by decide, by decide, by decide⟩
  | .str s, _ => exact ⟨'"', s.toList.flatMap (escapeChar esc) ++ ['"'], by simp [indentedAt, compactWith, toList_quote], by decide, by decide, by decide⟩
  | .num lit, text =>
      obtain ⟨c, t, spelledOut, lead⟩ := NumberText.head text
      obtain ⟨solid, notBracket, notBrace, -⟩ := numberLead lead
      refine ⟨c, t, ?_, solid, notBracket, notBrace⟩
      rw [show indentedAt esc level (.num lit) = lit by simp [indentedAt, compactWith], spelledOut]
  | .arr [], _ => exact ⟨'[', [']'], by simp [indentedAt], by decide, by decide, by decide⟩
  | .arr (x :: xs), _ => exact ⟨'[', _, toList_indentedAt_arr esc level (List.cons_ne_nil x xs), by decide,
      by decide, by decide⟩
  | .obj [], _ => exact ⟨'{', ['}'], by simp [indentedAt], by decide, by decide, by decide⟩
  | .obj (kv :: fs), _ => exact ⟨'{', _, toList_indentedAt_obj esc level (List.cons_ne_nil kv fs), by decide,
      by decide, by decide⟩

/-! ## Reading values, items and members -/

theorem readValue_skipBlanks (fuel : Nat) (cs : List Char) :
    readValue fuel (skipBlanks cs) = readValue fuel cs := by
  cases fuel with
  | zero => simp [readValue]
  | succ fuel => simp only [readValue, skipBlanks_skipBlanks]

theorem readValue_spaces (fuel n : Nat) (cs : List Char) :
    readValue fuel (List.replicate n ' ' ++ cs) = readValue fuel cs := by
  rw [← readValue_skipBlanks, skipBlanks_replicate_space, readValue_skipBlanks]

theorem readItems_skipBlanks (fuel : Nat) (cs : List Char) (acc : List Json) :
    readItems fuel (skipBlanks cs) acc = readItems fuel cs acc := by
  cases fuel with
  | zero => simp [readItems]
  | succ fuel => simp only [readItems, readValue_skipBlanks]

theorem readArray_skipBlanks (fuel : Nat) {cs : List Char} (opening : ∀ t, skipBlanks cs ≠ ']' :: t) :
    readArray fuel (skipBlanks cs) =
      match readItems fuel cs [] with
      | .ok (xs, rest) => .ok (.arr xs, rest)
      | .error e => .error e := by
  rw [readArray.eq_def]
  split
  next t closing => exact absurd closing (opening t)
  next =>
    exact congrArg (fun r : Except ReadError (List Json × List Char) => (match r with
      | .ok (xs, rest) => .ok (.arr xs, rest)
      | .error e => .error e : Except ReadError (Json × List Char))) (readItems_skipBlanks fuel cs [])

theorem readObject_skipBlanks (fuel : Nat) {cs : List Char} (opening : ∀ t, skipBlanks cs ≠ '}' :: t) :
    readObject fuel (skipBlanks cs) =
      match readMembers fuel (skipBlanks cs) [] with
      | .ok (fs, rest) => .ok (.obj fs, rest)
      | .error e => .error e := by
  rw [readObject.eq_def]
  split
  next t closing => exact absurd closing (opening t)
  next => rfl

theorem readValue_numberText (fuel : Nat) {lit : String} (text : NumberText lit.toList) (rest : List Char)
    (stops : StopsNumber rest) : readValue (fuel + 1) (lit.toList ++ rest) = .ok (.num lit, rest) := by
  have literal := readNumber_numberText text stops.ends
  rw [String.ofList_toList] at literal
  obtain ⟨c, t, spelledOut, lead⟩ := NumberText.head text
  obtain ⟨solid, -, -, notBrace, notBracket, notQuote⟩ := numberLead lead
  have opens : (c == '-' || c.isDigit) = true := by
    rcases lead with rfl | digit
    · rfl
    · simp [digit]
  rw [spelledOut] at literal ⊢
  rw [List.cons_append, readValue.eq_2, skipBlanks_of_not_blank _ solid]
  simp only [List.cons_append] at literal
  simp [notBrace, notBracket, notQuote, opens, literal]

-- The three statements are proved together, by recursion on the tree: a value's
-- proof calls the items' or members' proof on its children, and those call the value's
-- proof on each child.
mutual
/-- A value written in the indented layout reads back as itself, whatever follows it
that cannot continue a number. -/
theorem readValue_indentedAt (esc : Escaping) : ∀ (j : Json) (level fuel : Nat) (rest : List Char),
    Spelled j → readFuel j ≤ fuel → StopsNumber rest →
    readValue fuel ((indentedAt esc level j).toList ++ rest) = .ok (j, rest)
  | .null, _, fuel + 1, rest, _, _, _ => by
      simp [indentedAt, compactWith, readValue, readWord, skipBlanks, isBlank]
  | .bool true, _, fuel + 1, rest, _, _, _ => by
      simp [indentedAt, compactWith, readValue, readWord, skipBlanks, isBlank]
  | .bool false, _, fuel + 1, rest, _, _, _ => by
      simp [indentedAt, compactWith, readValue, readWord, skipBlanks, isBlank]
  | .num lit, level, fuel + 1, rest, text, _, stops => by
      rw [show indentedAt esc level (.num lit) = lit by simp [indentedAt, compactWith]]
      exact readValue_numberText fuel text rest stops
  | .str s, _, fuel + 1, rest, _, _, _ => by
      simp [indentedAt, compactWith, toList_quote, readValue, skipBlanks, isBlank, readStringBody_escaped]
  | .arr [], _, fuel + 1, rest, _, _, _ => by
      simp [indentedAt, readValue, readArray, skipBlanks, isBlank]
  | .arr (x :: xs), level, fuel + 1, rest, spelt, enough, _ => by
      have items := readItems_indentedItems esc (x :: xs) (level + 1) fuel (2 * level) rest []
        (List.cons_ne_nil x xs) spelt (by simp only [readFuel] at enough; omega)
      obtain ⟨c, t, spelled, solid, notClosing, -⟩ := indentedAt_head esc (level + 1) x spelt.1
      have opening : ∀ u, skipBlanks ((indentedItems esc (level + 1) (x :: xs)).toList ++
          '\n' :: (List.replicate (2 * level) ' ' ++ ']' :: rest)) ≠ ']' :: u := by
        intro u
        cases xs with
        | nil =>
            rw [toList_indentedItems_single, List.append_assoc, skipBlanks_replicate_space, spelled,
              List.cons_append, skipBlanks_of_not_blank _ solid]
            exact fun same => notClosing (List.cons.inj same).1
        | cons y ys =>
            rw [toList_indentedItems_cons esc _ x (List.cons_ne_nil y ys), List.append_assoc, List.append_assoc,
              skipBlanks_replicate_space, spelled, List.cons_append, skipBlanks_of_not_blank _ solid]
            exact fun same => notClosing (List.cons.inj same).1
      rw [toList_indentedAt_arr esc level (List.cons_ne_nil x xs)]
      simp only [List.cons_append, List.append_assoc, List.nil_append]
      rw [readValue.eq_2, skipBlanks_of_not_blank _ (by decide)]
      simp only [show ('[' == '{') = false by decide, show ('[' == '[') = true by decide,
        Bool.false_eq_true, if_false, if_true]
      rw [skipBlanks_newline, readArray_skipBlanks fuel opening, items]
      rfl
  | .obj [], _, fuel + 1, rest, _, _, _ => by
      simp [indentedAt, readValue, readObject, skipBlanks, isBlank]
  | .obj (kv :: fs), level, fuel + 1, rest, spelt, enough, _ => by
      have members := readMembers_indentedFields esc (kv :: fs) (level + 1) fuel (2 * level) rest []
        (List.cons_ne_nil kv fs) spelt (by simp only [readFuel] at enough; omega)
      have opening : ∀ u, skipBlanks ((indentedFields esc (level + 1) (kv :: fs)).toList ++
          '\n' :: (List.replicate (2 * level) ' ' ++ '}' :: rest)) ≠ '}' :: u := by
        intro u
        obtain ⟨k, v⟩ := kv
        cases fs with
        | nil =>
            rw [toList_indentedFields_single]
            simp only [List.append_assoc, List.cons_append]
            rw [skipBlanks_replicate_space, toList_quote]
            simp [skipBlanks, isBlank]
        | cons f more =>
            rw [toList_indentedFields_cons esc _ k v (List.cons_ne_nil f more)]
            simp only [List.append_assoc, List.cons_append]
            rw [skipBlanks_replicate_space, toList_quote]
            simp [skipBlanks, isBlank]
      rw [toList_indentedAt_obj esc level (List.cons_ne_nil kv fs)]
      simp only [List.cons_append, List.append_assoc, List.nil_append]
      rw [readValue.eq_2, skipBlanks_of_not_blank _ (by decide)]
      simp only [show ('{' == '{') = true by decide, if_true]
      rw [skipBlanks_newline, readObject_skipBlanks fuel opening, members]
      rfl
  | .null, _, 0, _, _, enough, _ => absurd enough (by simp [readFuel])
  | .bool _, _, 0, _, _, enough, _ => absurd enough (by simp [readFuel])
  | .num _, _, 0, _, _, enough, _ => absurd enough (by simp [readFuel])
  | .str _, _, 0, _, _, enough, _ => absurd enough (by simp [readFuel])
  | .arr _, _, 0, _, _, enough, _ => absurd enough (by simp [readFuel])
  | .obj _, _, 0, _, _, enough, _ => absurd enough (by simp [readFuel])

theorem readItems_indentedItems (esc : Escaping) : ∀ (xs : List Json) (level fuel n : Nat)
    (rest : List Char) (acc : List Json), xs ≠ [] → ItemsSpelled xs → itemsFuel xs ≤ fuel →
    readItems fuel ((indentedItems esc level xs).toList ++ '\n' :: (List.replicate n ' ' ++ ']' :: rest)) acc =
      .ok (acc.reverse ++ xs, rest)
  | [], _, _, _, _, _, nonempty, _, _ => absurd rfl nonempty
  | [x], level, fuel + 1, n, rest, acc, _, spelt, enough => by
      have value := readValue_indentedAt esc x level fuel ('\n' :: (List.replicate n ' ' ++ ']' :: rest))
        spelt.1 (by simp only [itemsFuel] at enough; omega) (Or.inr (Or.inl rfl))
      rw [toList_indentedItems_single, List.append_assoc]
      simp only [readItems]
      rw [readValue_spaces, value]
      simp [skipBlanks_of_not_blank _ (show isBlank ']' = false by decide)]
  | x :: y :: ys, level, fuel + 1, n, rest, acc, _, spelt, enough => by
      have value := readValue_indentedAt esc x level fuel
        (',' :: '\n' :: ((indentedItems esc level (y :: ys)).toList ++ '\n' :: (List.replicate n ' ' ++ ']' :: rest)))
        spelt.1 (by simp only [itemsFuel] at enough; omega) (Or.inl rfl)
      have others := readItems_indentedItems esc (y :: ys) level fuel n rest (x :: acc) (List.cons_ne_nil y ys)
        spelt.2 (by simp only [itemsFuel] at enough ⊢; omega)
      rw [toList_indentedItems_cons esc level x (List.cons_ne_nil y ys)]
      simp only [List.append_assoc, List.cons_append, readItems]
      rw [readValue_spaces, value]
      simp only [skipBlanks_of_not_blank _ (show isBlank ',' = false by decide)]
      rw [← readItems_skipBlanks, skipBlanks_newline, readItems_skipBlanks, others]
      simp
  | _ :: _, _, 0, _, _, _, _, _, enough => absurd enough (by simp [itemsFuel])

theorem readMembers_indentedFields (esc : Escaping) : ∀ (fs : List (String × Json)) (level fuel n : Nat)
    (rest : List Char) (acc : List (String × Json)), fs ≠ [] → FieldsSpelled fs → fieldsFuel fs ≤ fuel →
    readMembers fuel (skipBlanks ((indentedFields esc level fs).toList ++
      '\n' :: (List.replicate n ' ' ++ '}' :: rest))) acc = .ok (acc.reverse ++ fs, rest)
  | [], _, _, _, _, _, nonempty, _, _ => absurd rfl nonempty
  | [(k, v)], level, fuel + 1, n, rest, acc, _, spelt, enough => by
      have value := readValue_indentedAt esc v level fuel ('\n' :: (List.replicate n ' ' ++ '}' :: rest))
        spelt.1 (by simp only [fieldsFuel] at enough; omega) (Or.inr (Or.inl rfl))
      rw [toList_indentedFields_single]
      simp only [List.append_assoc, List.cons_append]
      rw [skipBlanks_replicate_space, toList_quote]
      simp only [List.cons_append, List.append_assoc, skipBlanks_of_not_blank _ (show isBlank '"' = false by decide),
        readMembers, readStringBody_escaped, List.reverse_nil, List.nil_append, String.ofList_toList,
        skipBlanks_of_not_blank _ (show isBlank ':' = false by decide)]
      rw [← readValue_skipBlanks, skipBlanks_space, readValue_skipBlanks, value]
      simp [skipBlanks_of_not_blank _ (show isBlank '}' = false by decide)]
  | (k, v) :: f :: more, level, fuel + 1, n, rest, acc, _, spelt, enough => by
      have value := readValue_indentedAt esc v level fuel
        (',' :: '\n' :: ((indentedFields esc level (f :: more)).toList ++ '\n' :: (List.replicate n ' ' ++ '}' :: rest)))
        spelt.1 (by simp only [fieldsFuel] at enough; omega) (Or.inl rfl)
      have others := readMembers_indentedFields esc (f :: more) level fuel n rest ((k, v) :: acc)
        (List.cons_ne_nil f more) spelt.2 (by simp only [fieldsFuel] at enough ⊢; omega)
      rw [toList_indentedFields_cons esc level k v (List.cons_ne_nil f more)]
      simp only [List.append_assoc, List.cons_append]
      rw [skipBlanks_replicate_space, toList_quote]
      simp only [List.cons_append, List.append_assoc, skipBlanks_of_not_blank _ (show isBlank '"' = false by decide),
        readMembers, readStringBody_escaped, List.reverse_nil, List.nil_append, String.ofList_toList,
        skipBlanks_of_not_blank _ (show isBlank ':' = false by decide)]
      rw [← readValue_skipBlanks, skipBlanks_space, readValue_skipBlanks, value]
      simp only [skipBlanks_of_not_blank _ (show isBlank ',' = false by decide), skipBlanks_newline, others]
      simp
  | _ :: _, _, 0, _, _, _, _, _, enough => absurd enough (by simp [fieldsFuel])
end

/-! ## The fuel the text pays for -/

mutual
theorem readFuel_le_length (esc : Escaping) : ∀ (j : Json) (level : Nat), Spelled j →
    readFuel j ≤ (indentedAt esc level j).toList.length
  | .null, _, _ => by simp [readFuel, indentedAt, compactWith]
  | .bool true, _, _ => by simp [readFuel, indentedAt, compactWith]
  | .bool false, _, _ => by simp [readFuel, indentedAt, compactWith]
  | .num lit, level, text => by
      obtain ⟨c, t, spelledOut, -⟩ := NumberText.head text
      simp only [readFuel, indentedAt, compactWith, spelledOut, List.length_cons]
      omega
  | .str s, _, _ => by simp [readFuel, indentedAt, compactWith, toList_quote]
  | .arr [], _, _ => by simp [readFuel, itemsFuel, indentedAt]
  | .arr (x :: xs), level, spelt => by
      have items := itemsFuel_le_length esc (x :: xs) (level + 1) (List.cons_ne_nil x xs) spelt
      rw [toList_indentedAt_arr esc level (List.cons_ne_nil x xs)]
      simp only [readFuel, List.length_cons, List.length_append, List.length_replicate, List.length_nil] at items ⊢
      omega
  | .obj [], _, _ => by simp [readFuel, fieldsFuel, indentedAt]
  | .obj (kv :: fs), level, spelt => by
      have members := fieldsFuel_le_length esc (kv :: fs) (level + 1) (List.cons_ne_nil kv fs) spelt
      rw [toList_indentedAt_obj esc level (List.cons_ne_nil kv fs)]
      simp only [readFuel, List.length_cons, List.length_append, List.length_replicate, List.length_nil] at members ⊢
      omega

theorem itemsFuel_le_length (esc : Escaping) : ∀ (xs : List Json) (level : Nat), xs ≠ [] →
    ItemsSpelled xs → itemsFuel xs ≤ (indentedItems esc level xs).toList.length + 1
  | [], _, nonempty, _ => absurd rfl nonempty
  | [x], level, _, spelt => by
      have value := readFuel_le_length esc x level spelt.1
      rw [toList_indentedItems_single]
      simp only [itemsFuel, List.length_append, List.length_replicate]
      omega
  | x :: y :: ys, level, _, spelt => by
      have value := readFuel_le_length esc x level spelt.1
      have others := itemsFuel_le_length esc (y :: ys) level (List.cons_ne_nil y ys) spelt.2
      rw [toList_indentedItems_cons esc level x (List.cons_ne_nil y ys)]
      simp only [itemsFuel, List.length_append, List.length_replicate, List.length_cons] at others ⊢
      omega

theorem fieldsFuel_le_length (esc : Escaping) : ∀ (fs : List (String × Json)) (level : Nat), fs ≠ [] →
    FieldsSpelled fs → fieldsFuel fs ≤ (indentedFields esc level fs).toList.length + 1
  | [], _, nonempty, _ => absurd rfl nonempty
  | [(k, v)], level, _, spelt => by
      have value := readFuel_le_length esc v level spelt.1
      rw [toList_indentedFields_single]
      simp only [fieldsFuel, List.length_append, List.length_replicate, List.length_cons]
      omega
  | (k, v) :: f :: more, level, _, spelt => by
      have value := readFuel_le_length esc v level spelt.1
      have others := fieldsFuel_le_length esc (f :: more) level (List.cons_ne_nil f more) spelt.2
      rw [toList_indentedFields_cons esc level k v (List.cons_ne_nil f more)]
      simp only [fieldsFuel, List.length_append, List.length_replicate, List.length_cons] at others ⊢
      omega
end

/-! ## Documents -/

/-- A tree whose numbers are literals of the grammar, written indented with a final line
feed as the stores write their files, reads back as itself. -/
theorem parse_indented (j : Json) (spelled : Spelled j) : parse (indented j ++ "\n") = .ok j := by
  have bound := readFuel_le_length .document j 0 spelled
  have value := readValue_indentedAt .document j 0 (3 * (indented j ++ "\n").toList.length + 3) ['\n']
    spelled (by simp only [String.toList_append, List.length_append, indented] at bound ⊢; omega) (Or.inr (Or.inl rfl))
  simp only [parse]
  rw [String.toList_append, show "\n".toList = ['\n'] by simp, indented] at *
  rw [value]
  rfl

theorem parseDocument_indented (j : Json) (spelled : Spelled j) :
    parseDocument (indented j ++ "\n") = .ok j := by
  simp [parseDocument, parse_indented j spelled]

end Json
end AgentMemory
