import Mathlib
import AgentMemory.Disk.Tree

namespace AgentMemory
namespace Disk

/-!
# Paths through plain names

The stores build every path they use from a directory and plain names: `join`,
`joinAll`, and the lock file beside a document.  Such a path is the text of its list of
names, `pathOf ns`.  The lexical operations of `Disk` are computed on it here once:
its elements are the names (`elements_pathOf`), cleaning leaves it alone
(`clean_pathOf`), joining a name appends it (`join_pathOf`), its parent drops the last
name (`parent_pathOf`), its base is the last name (`base_pathOf`), and its prefixes are
the paths through the prefixes of the list (`prefixes_pathOf`).  Later proofs compare
lists of names, not texts: two such paths are equal exactly when their lists are
(`pathOf_inj`).
-/

/-- A name that can stand as one element of a path: not empty, no separator, and
neither `.` nor `..`. -/
def Plain (n : String) : Prop := n ≠ "" ∧ '/' ∉ n.toList ∧ n ≠ "." ∧ n ≠ ".."

instance : DecidablePred Plain := fun n => inferInstanceAs (Decidable (n ≠ "" ∧ '/' ∉ n.toList ∧ n ≠ "." ∧ n ≠ ".."))

/-- The absolute path through a list of names. -/
def pathOf (ns : List String) : String := "/" ++ "/".intercalate ns

example : pathOf ["m", "2024-05", "ep-1.json"] = "/m/2024-05/ep-1.json" := by decide

theorem toList_pathOf (ns : List String) :
    (pathOf ns).toList = '/' :: ['/'].intercalate (ns.map String.toList) := by
  simp [pathOf]

theorem pathOf_nil : pathOf [] = "/" := rfl

theorem pathOf_append_singleton {ns : List String} (nonempty : ns ≠ []) (n : String) :
    pathOf (ns ++ [n]) = pathOf ns ++ "/" ++ n := by
  rw [pathOf, pathOf, String.intercalate_append_of_ne_nil nonempty (List.cons_ne_nil n []),
    String.intercalate_singleton, String.append_assoc, String.append_assoc, String.append_assoc]

theorem pathOf_snoc_append (ns : List String) (n x : String) : pathOf (ns ++ [n]) ++ x = pathOf (ns ++ [n ++ x]) := by
  rcases ns with _ | ⟨m, ms⟩
  · simp [pathOf, String.append_assoc]
  · rw [pathOf_append_singleton (List.cons_ne_nil m ms), pathOf_append_singleton (List.cons_ne_nil m ms),
      String.append_assoc]

/-! ## Elements and cleaning -/

/-- The pieces of a path through names without separators: an empty piece before the
leading `/`, then the names; the root alone splits into two empty pieces. -/
theorem piecesOf_pathOf {ns : List String} (noSlash : ∀ n ∈ ns, '/' ∉ n.toList) :
    piecesOf '/' (pathOf ns) = "" :: (if ns = [] then [""] else ns) := by
  rw [piecesOf, toList_pathOf, List.splitOn_cons_eq_if_modifyHead]
  simp only [beq_self_eq_true, if_true, List.map_cons]
  split
  · rename_i empty
    subst empty
    simp
  · rename_i nonempty
    rw [List.splitOn_intercalate]
    · simp
    · intro l mem
      obtain ⟨n, nmem, rfl⟩ := List.mem_map.mp mem
      exact noSlash n nmem
    · simpa using nonempty

theorem elements_pathOf_filter {ns : List String} (noSlash : ∀ n ∈ ns, '/' ∉ n.toList) :
    elements (pathOf ns) = ns.filter (fun e => !e.isEmpty) := by
  rw [elements, piecesOf_pathOf noSlash]
  split
  · rename_i empty
    subst empty
    simp
  · rw [List.filter_cons_of_neg (by decide)]

theorem Plain.isEmpty_eq_false {n : String} (plain : Plain n) : n.isEmpty = false := by
  simpa [String.isEmpty_iff] using plain.1

/-- The elements of a path through plain names are the names. -/
theorem elements_pathOf {ns : List String} (plain : ∀ n ∈ ns, Plain n) : elements (pathOf ns) = ns := by
  rw [elements_pathOf_filter (fun n mem => (plain n mem).2.1), List.filter_eq_self]
  intro n mem
  simp [(plain n mem).isEmpty_eq_false]

/-- Paths through plain names are equal exactly when their names are. -/
theorem pathOf_inj {as bs : List String} (plainA : ∀ n ∈ as, Plain n) (plainB : ∀ n ∈ bs, Plain n) :
    pathOf as = pathOf bs ↔ as = bs := by
  constructor
  · intro same
    rw [← elements_pathOf plainA, ← elements_pathOf plainB, same]
  · intro same
    rw [same]

theorem plain_append {as bs : List String} (plainA : ∀ n ∈ as, Plain n) (plainB : ∀ n ∈ bs, Plain n) :
    ∀ n ∈ as ++ bs, Plain n := by
  intro n mem
  rcases List.mem_append.mp mem with inA | inB
  · exact plainA n inA
  · exact plainB n inB

theorem pathOf_ne_of_length_ne {as bs : List String} (plainA : ∀ n ∈ as, Plain n) (plainB : ∀ n ∈ bs, Plain n)
    (lengths : as.length ≠ bs.length) : pathOf as ≠ pathOf bs := by
  intro same
  exact lengths (congrArg List.length ((pathOf_inj plainA plainB).mp same))

/-- Below one directory, paths through plain names are equal exactly when the names below
it are. -/
theorem pathOf_append_inj {ns as bs : List String} (plain : ∀ n ∈ ns, Plain n) (plainA : ∀ n ∈ as, Plain n)
    (plainB : ∀ n ∈ bs, Plain n) : pathOf (ns ++ as) = pathOf (ns ++ bs) ↔ as = bs := by
  rw [pathOf_inj (plain_append plain plainA) (plain_append plain plainB), List.append_cancel_left_eq]

theorem isAbsolute_pathOf (ns : List String) : isAbsolute (pathOf ns) = true := by
  simp [isAbsolute, pathOf, String.isPrefixOf]

/-- A fold that puts each plain name in front of what it has gathered reverses the
names. -/
theorem foldl_of_plain {ns : List String} (plain : ∀ n ∈ ns, Plain n) {step : List String → String → List String}
    (keeps : ∀ acc e, Plain e → step acc e = e :: acc) (acc : List String) :
    ns.foldl step acc = ns.reverse ++ acc := by
  induction ns generalizing acc with
  | nil => rfl
  | cons n rest ih =>
    rw [List.foldl_cons, keeps acc n (plain n (List.mem_cons_self ..)),
      ih (fun m mem => plain m (List.mem_cons_of_mem n mem))]
    simp

/-- An absolute path whose elements are plain names cleans to the path through them:
cleaning only acts on `.` and `..`. -/
theorem clean_of_elements {p : String} {ns : List String} (abs : isAbsolute p = true) (parts : elements p = ns)
    (plain : ∀ n ∈ ns, Plain n) : clean p = pathOf ns := by
  unfold clean
  simp only [parts]
  rw [foldl_of_plain plain, List.append_nil, List.reverse_reverse, abs, if_pos rfl, pathOf]
  intro acc e name
  have notDot : (e == ".") = false := by simpa using name.2.2.1
  have notUp : (e == "..") = false := by simpa using name.2.2.2
  simp only [notDot, notUp, Bool.false_eq_true, if_false]

theorem clean_pathOf {ns : List String} (plain : ∀ n ∈ ns, Plain n) : clean (pathOf ns) = pathOf ns :=
  clean_of_elements (isAbsolute_pathOf ns) (elements_pathOf plain) plain

/-! ## Joining -/

/-- A path through names ending in a plain name ends with that name's last character,
which is not a separator. -/
theorem pathOf_last_char (ns : List String) {n : String} (name : Plain n) :
    ∃ front c, (pathOf (ns ++ [n])).toList = front ++ [c] ∧ c ≠ '/' := by
  obtain ⟨init, c, chars⟩ := List.eq_nil_or_concat n.toList |>.resolve_left
    (by simpa [String.toList_eq_nil_iff] using name.1)
  rw [List.concat_eq_append] at chars
  have notSlash : c ≠ '/' := by
    rintro rfl
    exact name.2.1 (by rw [chars]; simp)
  rcases ns with _ | ⟨m, ms⟩
  · exact ⟨'/' :: init, c, by simp [toList_pathOf, chars], notSlash⟩
  · refine ⟨(pathOf (m :: ms)).toList ++ '/' :: init, c, ?_, notSlash⟩
    rw [pathOf_append_singleton (List.cons_ne_nil m ms)]
    simp [chars]

theorem endsWith_slash_pathOf {ns : List String} (plain : ∀ n ∈ ns, Plain n) :
    (pathOf ns).endsWith "/" = decide (ns = []) := by
  rcases List.eq_nil_or_concat ns with empty | ⟨front, last, rfl⟩
  · subst empty
    simp [pathOf, ← String.endsWith_toSlice]
  · rw [List.concat_eq_append] at plain ⊢
    obtain ⟨chars, c, ends, notSlash⟩ := pathOf_last_char front (plain last (by simp))
    have notSuffix : ¬ ['/'] <:+ (pathOf (front ++ [last])).toList := by
      rw [ends, List.singleton_suffix_iff_getLast?_eq_some, List.getLast?_concat]
      simpa using notSlash
    simpa [← String.endsWith_toSlice] using notSuffix

/-- Joining a plain name to a path through plain names appends the name. -/
theorem join_pathOf {ns : List String} (plain : ∀ n ∈ ns, Plain n) {n : String} (name : Plain n) :
    join (pathOf ns) n = pathOf (ns ++ [n]) := by
  have notEmpty : (pathOf ns).isEmpty = false := by simp [pathOf]
  unfold join
  rw [notEmpty, name.isEmpty_eq_false, endsWith_slash_pathOf plain]
  rcases ns with _ | ⟨m, ms⟩
  · simp [pathOf]
  · rw [pathOf_append_singleton (List.cons_ne_nil m ms)]
    simp

theorem joinAll_pathOf {ns : List String} (plain : ∀ n ∈ ns, Plain n) {names : List String}
    (plainNames : ∀ n ∈ names, Plain n) : joinAll (pathOf ns) names = pathOf (ns ++ names) := by
  induction names generalizing ns with
  | nil => simp [joinAll]
  | cons n rest ih =>
    have first : join (pathOf ns) n = pathOf (ns ++ [n]) := join_pathOf plain (plainNames n (by simp))
    have restPlain : ∀ m ∈ rest, Plain m := fun m mem => plainNames m (List.mem_cons_of_mem n mem)
    have grown : ∀ m ∈ ns ++ [n], Plain m := by
      intro m mem
      rcases List.mem_append.mp mem with old | new
      · exact plain m old
      · rw [List.mem_singleton.mp new]
        exact plainNames n (by simp)
    simp only [joinAll, List.foldl_cons] at ih ⊢
    rw [first, ih grown restPlain, List.append_assoc, List.singleton_append]

/-! ## Prefixes, parent and base -/

/-- The prefixes of a path through plain names are the paths through the prefixes of
its names, the root first. -/
theorem prefixes_pathOf {ns : List String} (plain : ∀ n ∈ ns, Plain n) :
    Tree.prefixes (pathOf ns) = (List.range (ns.length + 1)).map (fun i => pathOf (ns.take i)) := by
  unfold Tree.prefixes
  simp only [elements_pathOf plain, isAbsolute_pathOf, if_true]
  rw [List.range_succ_eq_map, List.map_cons, List.map_map]
  rfl

theorem ancestors_pathOf {ns : List String} (plain : ∀ n ∈ ns, Plain n) :
    Tree.ancestors (pathOf ns) = (List.range ns.length).map (fun i => pathOf (ns.take i)) := by
  rw [Tree.ancestors, prefixes_pathOf plain, List.range_succ, List.map_append, List.map_singleton,
    List.dropLast_concat]

theorem lastSlash_of_not_mem {xs : List Char} (noSlash : '/' ∉ xs) (i : Nat) (best : Option Nat) :
    parent.lastSlash i xs best = best := by
  induction xs generalizing i with
  | nil => rfl
  | cons c rest ih =>
    have notSlash : c ≠ '/' := by
      rintro rfl
      exact noSlash List.mem_cons_self
    rw [parent.lastSlash, if_neg (by simpa using notSlash)]
    exact ih (fun mem => noSlash (List.mem_cons_of_mem c mem)) (i + 1)

theorem lastSlash_append (xs ys : List Char) (i : Nat) (best : Option Nat) :
    parent.lastSlash i (xs ++ ys) best = parent.lastSlash (i + xs.length) ys (parent.lastSlash i xs best) := by
  induction xs generalizing i best with
  | nil => rfl
  | cons c rest ih =>
    simp only [List.cons_append, parent.lastSlash, ih, List.length_cons]
    rw [Nat.add_assoc, Nat.add_comm 1]

theorem parent_of_last_slash {p : String} {front last : List Char} (split : p.toList = front ++ '/' :: last)
    (noSlash : '/' ∉ last) : parent p = clean (String.ofList (front ++ ['/'])) := by
  have found : parent.lastSlash 0 (front ++ '/' :: last) none = some front.length := by
    rw [lastSlash_append, Nat.zero_add, parent.lastSlash]
    simp only [beq_self_eq_true, if_true]
    exact lastSlash_of_not_mem noSlash _ _
  have taken : (front ++ '/' :: last).take (front.length + 1) = front ++ ['/'] := by
    simp [List.take_append]
  unfold parent
  simp only [split, found, taken]

/-- The parent of a path through plain names drops the last name. -/
theorem parent_pathOf {ns : List String} (plain : ∀ n ∈ ns, Plain n) {n : String} (name : Plain n) :
    parent (pathOf (ns ++ [n])) = pathOf ns := by
  rcases ns with _ | ⟨m, ms⟩
  · have split : (pathOf [n]).toList = [] ++ '/' :: n.toList := by simp [toList_pathOf]
    have root : String.ofList ([] ++ ['/']) = pathOf [] := by simp [pathOf]
    rw [List.nil_append, parent_of_last_slash split name.2.1, root]
    exact clean_pathOf (by simp)
  · have nonempty : m :: ms ≠ [] := List.cons_ne_nil m ms
    have split : (pathOf (m :: ms ++ [n])).toList = (pathOf (m :: ms)).toList ++ '/' :: n.toList := by
      rw [pathOf_append_singleton nonempty]
      simp
    rw [parent_of_last_slash split name.2.1]
    have trailing : String.ofList ((pathOf (m :: ms)).toList ++ ['/']) = pathOf (m :: ms ++ [""]) := by
      rw [pathOf_append_singleton nonempty]
      simp
    have noSlash : ∀ x ∈ m :: ms ++ [""], '/' ∉ x.toList := by
      intro x mem
      rcases List.mem_append.mp mem with old | new
      · exact (plain x old).2.1
      · simp [List.mem_singleton.mp new]
    have parts : elements (pathOf (m :: ms ++ [""])) = m :: ms := by
      rw [elements_pathOf_filter noSlash, List.filter_append, List.filter_eq_self.mpr]
      · simp
      · intro x mem
        simp [(plain x mem).isEmpty_eq_false]
    rw [trailing]
    exact clean_of_elements (isAbsolute_pathOf _) parts plain

/-- The base of a path through plain names is its last name. -/
theorem base_pathOf {ns : List String} (plain : ∀ n ∈ ns, Plain n) {n : String} (name : Plain n) :
    base (pathOf (ns ++ [n])) = n := by
  have allPlain : ∀ x ∈ ns ++ [n], Plain x := by
    intro x mem
    rcases List.mem_append.mp mem with old | new
    · exact plain x old
    · rw [List.mem_singleton.mp new]
      exact name
  obtain ⟨front, c, ends, notSlash⟩ := pathOf_last_char ns name
  have kept : String.ofList ((pathOf (ns ++ [n])).toList.reverse.dropWhile (· == '/')).reverse =
      pathOf (ns ++ [n]) := by
    rw [ends, List.reverse_concat, List.dropWhile_cons_of_neg (by simpa using notSlash), List.reverse_cons,
      List.reverse_reverse, ← ends, String.ofList_toList]
  have pieces : piecesOf '/' (pathOf (ns ++ [n])) = "" :: ns ++ [n] := by
    rw [piecesOf_pathOf (fun x mem => (allPlain x mem).2.1), if_neg (by simp), List.cons_append]
  unfold base
  simp only [kept, pieces, List.getLast?_concat, Option.getD_some]
  simp [pathOf]

end Disk
end AgentMemory
