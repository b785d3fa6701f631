import AgentMemory.Proofs.Disk.Paths

namespace AgentMemory
namespace Disk
namespace Tree

/-!
# Looking up and changing a tree

A tree is a list of entries by path, so each change is described once by what a lookup
gives after it: `put` sets one path and leaves the others (`get?_put`), `drop` clears one
path (`get?_drop`).  The file operations are then computed on paths through plain names
below directories that exist (`DirsTo`): such a path is reached (`look_child_of_get?`), making
the directories on the way changes nothing (`mkdirAll_of_dirsTo`), replacing a file puts
it (`replaceFile_child`) and removing one drops it (`remove_eq_ok`).  What a directory
listing returns is a plain name below the directory (`mem_glob_plain`).
-/

/-! ## Lookups after a change -/

/-- The lookup after putting an entry: the new entry at its path, the old ones elsewhere. -/
theorem get?_put (t : Tree) (p q : String) (e : Entry) :
    (t.put p e).get? q = if q = p then some e else t.get? q := by
  unfold put get?
  split
  · rename_i present
    rw [List.find?_map]
    by_cases same : q = p
    · subst same
      have keys : ((fun x : String × Entry => x.1 == q) ∘ fun x => if x.1 == q then (q, e) else x) =
          fun x => x.1 == q := by
        funext x
        by_cases hx : x.1 = q <;> simp [hx]
      obtain ⟨x, mem, hx⟩ := List.any_eq_true.mp present
      have some : (t.entries.find? (fun x => x.1 == q)).isSome := List.find?_isSome.mpr ⟨x, mem, hx⟩
      obtain ⟨y, found⟩ := Option.isSome_iff_exists.mp some
      have key : y.1 = q := by simpa using List.find?_some found
      rw [keys, if_pos rfl, found]
      simp [key]
    · -- the replaced entries have the key `p`, so a lookup of another key never meets them
      have keys : ((fun x : String × Entry => x.1 == q) ∘ fun x => if x.1 == p then (p, e) else x) =
          fun x => x.1 == q := by
        funext x
        by_cases hx : x.1 = p
        · simp [hx]
        · simp [hx]
      rw [keys, if_neg same]
      cases found : t.entries.find? (fun x => x.1 == q) with
      | none => rfl
      | some x =>
        have key : x.1 = q := by simpa using List.find?_some found
        simp [key, same]
  · rename_i absent
    rw [List.find?_append]
    by_cases same : q = p
    · subst same
      have none : t.entries.find? (fun x => x.1 == q) = none := by
        rw [List.find?_eq_none]
        intro x mem hx
        exact absent (List.any_eq_true.mpr ⟨x, mem, hx⟩)
      simp [none]
    · simp [same, Ne.symm same]

/-- The lookup after dropping a path: nothing there, the old entries elsewhere. -/
theorem get?_drop (t : Tree) (p q : String) :
    (t.drop p).get? q = if q = p then none else t.get? q := by
  unfold drop get?
  rw [List.find?_filter]
  by_cases same : q = p
  · subst same
    simp
  · have keys : (fun x : String × Entry => decide ((x.1 != p) = true ∧ (x.1 == q) = true)) =
        fun x => x.1 == q := by
      funext x
      by_cases hx : x.1 = q
      · simp [hx, same]
      · simp [hx]
    rw [keys, if_neg same]

/-! ## Paths below existing directories -/

/-- Every directory on the way to the path through `xs`, that path included, is a
directory of the tree. -/
def DirsTo (t : Tree) (xs : List String) : Prop := ∀ i ≤ xs.length, t.get? (pathOf (xs.take i)) = some .dir

theorem DirsTo.snoc {t : Tree} {xs : List String} (dirs : DirsTo t xs) {n : String}
    (dir : t.get? (pathOf (xs ++ [n])) = some .dir) : DirsTo t (xs ++ [n]) := by
  intro i le
  rcases Nat.lt_or_ge i (xs.length + 1) with lt | ge
  · rw [List.take_append_of_le_length (by omega)]
    exact dirs i (by omega)
  · have whole : i = xs.length + 1 := by simp at le; omega
    rw [whole, List.take_of_length_le (by simp)]
    exact dir

theorem DirsTo.get?_self {t : Tree} {xs : List String} (dirs : DirsTo t xs) : t.get? (pathOf xs) = some .dir := by
  have whole := dirs xs.length le_rfl
  rwa [List.take_length] at whole

theorem DirsTo.of_append {t : Tree} {xs ys : List String} (dirs : DirsTo t (xs ++ ys)) : DirsTo t xs := by
  intro i le
  rw [← List.take_append_of_le_length le]
  exact dirs i (by simp; omega)

theorem take_snoc_of_lt {xs : List String} {n : String} {i : Nat} (lt : i < (xs ++ [n]).length) :
    (xs ++ [n]).take i = xs.take i := by
  rw [List.take_append_of_le_length (by simp at lt; omega)]

theorem Plain.snoc {xs : List String} (plain : ∀ x ∈ xs, Plain x) {n : String} (name : Plain n) :
    ∀ x ∈ xs ++ [n], Plain x := by
  intro x mem
  rcases List.mem_append.mp mem with old | new
  · exact plain x old
  · rw [List.mem_singleton.mp new]
    exact name

theorem DirsTo.put_child {t : Tree} {xs : List String} (dirs : DirsTo t xs) (plain : ∀ x ∈ xs, Plain x)
    {n : String} (name : Plain n) (e : Entry) : DirsTo (t.put (pathOf (xs ++ [n])) e) xs := by
  intro i le
  have shorter : pathOf (xs.take i) ≠ pathOf (xs ++ [n]) :=
    pathOf_ne_of_length_ne (fun x mem => plain x (List.mem_of_mem_take mem)) (Plain.snoc plain name)
      (by simp; omega)
  rw [get?_put, if_neg shorter]
  exact dirs i le

theorem blocked?_child {t : Tree} {xs : List String} (plain : ∀ x ∈ xs, Plain x) {n : String} (name : Plain n)
    (dirs : DirsTo t xs) : t.blocked? (pathOf (xs ++ [n])) = none := by
  have allPlain := Plain.snoc plain name
  unfold blocked?
  rw [ancestors_pathOf allPlain, List.findSome?_eq_none_iff]
  intro a mem
  obtain ⟨i, lt, rfl⟩ := List.mem_map.mp mem
  have range : i < (xs ++ [n]).length := List.mem_range.mp lt
  rw [take_snoc_of_lt range, dirs i (by simp at range; omega)]

theorem DirsTo.of_blocked? {t : Tree} {xs : List String} (plain : ∀ x ∈ xs, Plain x) {n : String} (name : Plain n)
    (free : t.blocked? (pathOf (xs ++ [n])) = none) : DirsTo t xs := by
  unfold blocked? at free
  rw [ancestors_pathOf (Plain.snoc plain name), List.findSome?_eq_none_iff] at free
  intro i le
  have range : i < (xs ++ [n]).length := by simp; omega
  have passes := free _ (List.mem_map.mpr ⟨i, List.mem_range.mpr range, rfl⟩)
  rw [take_snoc_of_lt range] at passes
  cases found : t.get? (pathOf (xs.take i)) with
  | none => simp [found] at passes
  | some e =>
    cases e with
    | dir => rfl
    | file d => simp [found] at passes

theorem DirsTo.no_file_above {t : Tree} {xs : List String} (dirs : DirsTo t xs) (plain : ∀ x ∈ xs, Plain x)
    {n : String} (name : Plain n) : ∀ a ∈ ancestors (pathOf (xs ++ [n])), ∀ d, t.get? a ≠ some (.file d) := by
  intro a mem d
  rw [ancestors_pathOf (Plain.snoc plain name)] at mem
  obtain ⟨i, lt, rfl⟩ := List.mem_map.mp mem
  have range : i < (xs ++ [n]).length := List.mem_range.mp lt
  rw [take_snoc_of_lt range, dirs i (by simp at range; omega)]
  simp

/-- Looking up a name below existing directories finds its entry. -/
theorem look_child_of_get? {t : Tree} {xs : List String} (plain : ∀ x ∈ xs, Plain x) {n : String}
    (name : Plain n) (dirs : DirsTo t xs) (op : String) {e : Entry} (found : t.get? (pathOf (xs ++ [n])) = some e) :
    t.look op (pathOf (xs ++ [n])) = .ok e := by
  unfold look
  simp only [clean_pathOf (Plain.snoc plain name), blocked?_child plain name dirs, found]

theorem look_child_of_none {t : Tree} {xs : List String} (plain : ∀ x ∈ xs, Plain x) {n : String}
    (name : Plain n) (dirs : DirsTo t xs) (op : String) (missing : t.get? (pathOf (xs ++ [n])) = none) :
    t.look op (pathOf (xs ++ [n])) = .error ⟨op, pathOf (xs ++ [n]), .notFound⟩ := by
  unfold look
  simp only [clean_pathOf (Plain.snoc plain name), blocked?_child plain name dirs, missing]

/-- Looking up a path where nothing stands, with no file on the way to it, finds that it
is missing, whether or not the directories above it exist. -/
theorem look_of_missing {t : Tree} {p : String} (cleaned : clean p = p) (missing : t.get? p = none)
    (noFile : ∀ a ∈ ancestors p, ∀ d, t.get? a ≠ some (.file d)) (op : String) :
    t.look op p = .error ⟨op, p, .notFound⟩ := by
  unfold look
  simp only [cleaned]
  cases blocked : t.blocked? p with
  | none => simp [missing]
  | some r =>
    -- what blocks the way is a missing ancestor, never a file
    obtain ⟨a, mem, found⟩ := List.exists_of_findSome?_eq_some blocked
    have reason : r = .notFound := by
      split at found
      · exact (Option.some_inj.mp found).symm
      · rename_i d isFile
        exact absurd isFile (noFile a mem d)
      · cases found
    rw [reason]

theorem get?_of_look {t : Tree} {op p : String} {e : Entry} (looked : t.look op p = .ok e) :
    t.get? (clean p) = some e := by
  unfold look at looked
  dsimp only at looked
  split at looked
  · cases looked
  · split at looked
    · rename_i found
      cases looked
      exact found
    · cases looked

/-! ## Making directories -/

theorem mkdirAll_go_of_dirs {t : Tree} {ds : List String} (dirs : ∀ d ∈ ds, t.get? d = some .dir)
    (rest : List String) : mkdirAll.go t (ds ++ rest) = mkdirAll.go t rest := by
  induction ds with
  | nil => rfl
  | cons d more ih =>
    rw [List.cons_append, mkdirAll.go, dirs d List.mem_cons_self]
    exact ih (fun x mem => dirs x (List.mem_cons_of_mem d mem))

/-- The directories on the way to a path through plain names, nearest last, are the
paths through the prefixes of its names. -/
theorem chain_pathOf {xs : List String} (plain : ∀ x ∈ xs, Plain x) :
    Tree.ancestors (pathOf xs) ++ [pathOf xs] = (List.range (xs.length + 1)).map (fun i => pathOf (xs.take i)) := by
  rw [ancestors_pathOf plain, List.range_succ, List.map_append, List.map_singleton, List.take_length]

/-- Making directories that exist changes nothing. -/
theorem mkdirAll_of_dirsTo {t : Tree} {xs : List String} (plain : ∀ x ∈ xs, Plain x) (dirs : DirsTo t xs) :
    t.mkdirAll (pathOf xs) = .ok t := by
  unfold mkdirAll
  simp only [clean_pathOf plain]
  rw [chain_pathOf plain, ← List.append_nil ((List.range _).map _), mkdirAll_go_of_dirs]
  · rfl
  · intro d mem
    obtain ⟨i, lt, rfl⟩ := List.mem_map.mp mem
    exact dirs i (by simp at lt; omega)

/-- Making a directory for a name below existing directories keeps a directory there, or
adds one where nothing was. -/
theorem mkdirAll_child_eq_ok {t t' : Tree} {xs : List String} (plain : ∀ x ∈ xs, Plain x) {n : String}
    (name : Plain n) (dirs : DirsTo t xs) (made : t.mkdirAll (pathOf (xs ++ [n])) = .ok t') :
    (t.get? (pathOf (xs ++ [n])) = some .dir ∧ t' = t) ∨
      (t.get? (pathOf (xs ++ [n])) = none ∧ t' = t.put (pathOf (xs ++ [n])) .dir) := by
  have allPlain := Plain.snoc plain name
  have above : ∀ d ∈ Tree.ancestors (pathOf (xs ++ [n])), t.get? d = some .dir := by
    intro d mem
    rw [ancestors_pathOf allPlain] at mem
    obtain ⟨i, lt, rfl⟩ := List.mem_map.mp mem
    have range : i < (xs ++ [n]).length := List.mem_range.mp lt
    rw [take_snoc_of_lt range]
    exact dirs i (by simp at range; omega)
  unfold mkdirAll at made
  simp only [clean_pathOf allPlain] at made
  rw [mkdirAll_go_of_dirs above, mkdirAll.go] at made
  split at made
  · rename_i isDir
    cases made
    exact Or.inl ⟨isDir, rfl⟩
  · cases made
  · rename_i missing
    cases made
    exact Or.inr ⟨missing, rfl⟩

/-- Making the directories of a chain leaves each of them a directory and every other path
as it was. -/
theorem mkdirAll_go_eq_ok {t t' : Tree} {ds : List String} (made : mkdirAll.go t ds = .ok t') :
    (∀ d ∈ ds, t'.get? d = some .dir) ∧ ∀ q ∉ ds, t'.get? q = t.get? q := by
  induction ds generalizing t with
  | nil =>
    cases made
    exact ⟨by simp, fun _ _ => rfl⟩
  | cons d rest ih =>
    rw [mkdirAll.go] at made
    split at made
    · rename_i isDir
      obtain ⟨dirs, kept⟩ := ih made
      refine ⟨fun x mem => ?_, fun q out => kept q (fun m => out (List.mem_cons_of_mem d m))⟩
      rcases List.mem_cons.mp mem with rfl | later
      · by_cases again : x ∈ rest
        · exact dirs x again
        · rw [kept x again, isDir]
      · exact dirs x later
    · cases made
    · -- the missing directory is put first, and the rest of the chain is made on top of it
      obtain ⟨dirs, kept⟩ := ih made
      refine ⟨fun x mem => ?_, fun q out => ?_⟩
      · rcases List.mem_cons.mp mem with rfl | later
        · by_cases again : x ∈ rest
          · exact dirs x again
          · rw [kept x again, get?_put, if_pos rfl]
        · exact dirs x later
      · have other : q ≠ d := fun same => out (same ▸ List.mem_cons_self)
        rw [kept q (fun m => out (List.mem_cons_of_mem d m)), get?_put, if_neg other]

/-- Making the directories of a path through plain names leaves them all directories and
every other path as it was. -/
theorem mkdirAll_eq_ok {t t' : Tree} {xs : List String} (plain : ∀ x ∈ xs, Plain x)
    (made : t.mkdirAll (pathOf xs) = .ok t') :
    DirsTo t' xs ∧ ∀ q, (∀ i ≤ xs.length, q ≠ pathOf (xs.take i)) → t'.get? q = t.get? q := by
  unfold mkdirAll at made
  simp only [clean_pathOf plain] at made
  rw [chain_pathOf plain] at made
  obtain ⟨dirs, kept⟩ := mkdirAll_go_eq_ok made
  refine ⟨fun i le => dirs _ (List.mem_map.mpr ⟨i, List.mem_range.mpr (by omega), rfl⟩), fun q other => kept q ?_⟩
  intro mem
  obtain ⟨i, lt, same⟩ := List.mem_map.mp mem
  exact other i (by simp at lt; omega) same.symm

/-! ## Replacing and removing files -/

/-- A replaced file is put at its cleaned path in the tree its directory was made in, and
only where no directory stands. -/
theorem replaceFile_eq_ok {t t' : Tree} {p text : String} (replaced : t.replaceFile p text = .ok t') :
    ∃ made, t.mkdirAll (parent (clean p)) = .ok made ∧ made.get? (clean p) ≠ some .dir ∧
      t' = made.put (clean p) (.file ⟨text, 0⟩) := by
  unfold replaceFile at replaced
  dsimp only at replaced
  split at replaced
  · cases replaced
  · rename_i made dirMade
    split at replaced
    · cases replaced
    · rename_i notDir
      cases replaced
      refine ⟨made, dirMade, ?_, rfl⟩
      intro isDir
      exact notDir isDir

theorem get?_replaceFile {t t' : Tree} {p text : String} (replaced : t.replaceFile p text = .ok t') :
    t'.get? (clean p) = some (.file ⟨text, 0⟩) := by
  obtain ⟨made, -, -, rfl⟩ := replaceFile_eq_ok replaced
  rw [get?_put, if_pos rfl]

/-- Replacing a file below existing directories puts it, unless a directory stands there. -/
theorem replaceFile_child {t : Tree} {xs : List String} (plain : ∀ x ∈ xs, Plain x) {n : String} (name : Plain n)
    (dirs : DirsTo t xs) (notDir : t.get? (pathOf (xs ++ [n])) ≠ some .dir) (text : String) :
    t.replaceFile (pathOf (xs ++ [n])) text = .ok (t.put (pathOf (xs ++ [n])) (.file ⟨text, 0⟩)) := by
  have allPlain := Plain.snoc plain name
  unfold replaceFile
  -- the directory is there already, and `notDir` rules out the refused rename
  simp only [clean_pathOf allPlain, parent_pathOf plain name, mkdirAll_of_dirsTo plain dirs]

/-- A removal that succeeds drops the cleaned path. -/
theorem remove_eq_ok {t t' : Tree} {p : String} (removed : t.remove p = .ok t') : t' = t.drop (clean p) := by
  unfold remove at removed
  split at removed
  · cases removed
  · dsimp only at removed
    split at removed
    · cases removed
      rfl
    · cases removed
  · cases removed
    rfl

/-! ## Listing a directory -/

theorem mem_childNames {t : Tree} {dir n : String} (mem : n ∈ t.childNames dir) : n ≠ "" ∧ '/' ∉ n.toList := by
  unfold childNames at mem
  rw [List.mem_mergeSort, List.mem_filterMap] at mem
  obtain ⟨e, -, listed⟩ := mem
  simp only [Option.ite_none_right_eq_some, Option.ite_none_left_eq_some, Option.some.injEq] at listed
  obtain ⟨-, kept, named⟩ := listed
  rw [named] at kept
  simp only [Bool.or_eq_true, not_or, Bool.not_eq_true, String.isEmpty_iff] at kept
  refine ⟨kept.2, ?_⟩
  intro slash
  have listed : n.toList.contains '/' = true := List.contains_iff_mem.mpr slash
  rw [kept.1] at listed
  cases listed

theorem mem_childNames_key {t : Tree} {dir n : String} (mem : n ∈ t.childNames dir) :
    ∃ e, ((if dir == "/" then "/" else dir ++ "/") ++ n, e) ∈ t.entries := by
  unfold childNames at mem
  rw [List.mem_mergeSort, List.mem_filterMap] at mem
  obtain ⟨⟨k, e⟩, entry, listed⟩ := mem
  simp only [Option.ite_none_right_eq_some, Option.ite_none_left_eq_some, Option.some.injEq] at listed
  obtain ⟨below, -, named⟩ := listed
  simp only [Bool.and_eq_true] at below
  have pre := below.1
  rw [String.isPrefixOf, String.startsWith_string_iff] at pre
  obtain ⟨rest, split⟩ := pre
  have key : (if dir == "/" then "/" else dir ++ "/") ++ n = k := by
    rw [← named, ← String.toList_inj, String.toList_append, String.toList_ofList, ← split,
      List.drop_left' String.length_toList]
  rw [key]
  exact ⟨e, entry⟩

theorem get?_ne_none_of_mem {t : Tree} {k : String} {e : Entry} (mem : (k, e) ∈ t.entries) : t.get? k ≠ none := by
  unfold get?
  intro none
  rw [Option.map_eq_none_iff, List.find?_eq_none] at none
  exact none (k, e) mem (by simp)

/-- A pattern that starts with a character other than `*` matches only texts that start
with it. -/
theorem go_head {c : Char} {rest cs : List Char} {fuel : Nat} (literal : c ≠ '*')
    (matched : wildcardMatch.go (c :: rest) cs (fuel + 1) = true) : cs.head? = some c := by
  unfold wildcardMatch.go at matched
  split at matched
  · rename_i empty
    cases empty
  · rename_i star
    cases star
    exact absurd rfl literal
  · rename_i p more other same
    cases same
    split at matched
    · simp only [Bool.and_eq_true, beq_iff_eq] at matched
      rw [matched.1]
      rfl
    · cases matched

/-- A listed name that a pattern matches, the pattern starting with a character other than
`*` and `.`, is plain. -/
theorem plain_of_listed {t : Tree} {dir n pattern : String} {c : Char} {rest : List Char}
    (listed : n ∈ t.childNames dir) (chars : pattern.toList = c :: rest) (literal : c ≠ '*') (notDot : c ≠ '.')
    (matched : wildcardMatch pattern n = true) : Plain n := by
  unfold wildcardMatch at matched
  rw [chars] at matched
  have head : n.toList.head? = some c := go_head literal matched
  obtain ⟨nonempty, noSlash⟩ := mem_childNames listed
  refine ⟨nonempty, noSlash, ?_, ?_⟩
  · rintro rfl
    exact notDot (Option.some.inj head).symm
  · rintro rfl
    exact notDot (Option.some.inj head).symm

/-- What a listing by pattern returns: the directory joined with a listed name that the
pattern matches. -/
theorem mem_glob {t : Tree} {dir pattern p : String} (mem : p ∈ t.glob dir pattern) :
    ∃ n ∈ t.childNames (clean dir), wildcardMatch pattern n = true ∧ p = join (clean dir) n := by
  unfold glob at mem
  split at mem
  · obtain ⟨n, listed, rfl⟩ := List.mem_map.mp mem
    obtain ⟨named, matched⟩ := List.mem_filter.mp listed
    exact ⟨n, named, matched, rfl⟩
  · cases mem

/-- Listing by such a pattern below a path through plain names gives paths of the tree
through one more plain name. -/
theorem mem_glob_plain {t : Tree} {xs : List String} (plain : ∀ x ∈ xs, Plain x) {pattern p : String} {c : Char}
    {rest : List Char} (chars : pattern.toList = c :: rest) (literal : c ≠ '*') (notDot : c ≠ '.')
    (mem : p ∈ t.glob (pathOf xs) pattern) : ∃ n, Plain n ∧ p = pathOf (xs ++ [n]) ∧ t.get? p ≠ none := by
  obtain ⟨n, listed, matched, joined⟩ := mem_glob mem
  rw [clean_pathOf plain] at listed joined
  have name : Plain n := plain_of_listed listed chars literal notDot matched
  have path : p = pathOf (xs ++ [n]) := joined.trans (join_pathOf plain name)
  obtain ⟨e, entry⟩ := mem_childNames_key listed
  have key : (if pathOf xs == "/" then "/" else pathOf xs ++ "/") ++ n = p := by
    rw [path]
    rcases xs with _ | ⟨x, more⟩
    · rfl
    · have notRoot : (pathOf (x :: more) == "/") = false := by
        rw [beq_eq_false_iff_ne, ← pathOf_nil, Ne, pathOf_inj plain (by simp)]
        exact List.cons_ne_nil x more
      rw [notRoot, if_neg Bool.false_ne_true, pathOf_append_singleton (List.cons_ne_nil x more)]
  rw [key] at entry
  exact ⟨n, name, path, get?_ne_none_of_mem entry⟩

/-! ## Appending to files -/

theorem creatable_eq_ok {t : Tree} {p : String} (ok : t.creatable p = .ok ()) :
    t.blocked? (clean p) = none ∧ t.get? (clean p) ≠ some .dir := by
  unfold creatable at ok
  dsimp only at ok
  split at ok
  · cases ok
  · rename_i free
    split at ok
    · cases ok
    · rename_i notDir
      exact ⟨free, notDir⟩

/-- An append that succeeds found the way open, and adds the text to the end of the file
there or puts a file holding only the text where nothing stood. -/
theorem appendFile_eq_ok {t t' : Tree} {p text : String} (appended : t.appendFile p text = .ok t') :
    t.blocked? (clean p) = none ∧
      ((t.get? (clean p) = none ∧ t' = t.put (clean p) (.file ⟨text, 0⟩)) ∨
        ∃ d, t.get? (clean p) = some (.file d) ∧ t' = t.put (clean p) (.file ⟨d.contents ++ text, 0⟩)) := by
  unfold appendFile at appended
  cases creatable : t.creatable p with
  | error e =>
    rw [creatable] at appended
    cases appended
  | ok u =>
    obtain ⟨free, notDir⟩ := creatable_eq_ok creatable
    rw [creatable] at appended
    dsimp only at appended
    refine ⟨free, ?_⟩
    split at appended
    · rename_i d found
      cases appended
      exact Or.inr ⟨d, found, rfl⟩
    · rename_i notFile
      cases appended
      cases found : t.get? (clean p) with
      | none => exact Or.inl ⟨rfl, rfl⟩
      | some e =>
        cases e with
        | dir => exact absurd found notDir
        | file d => exact absurd found (notFile d)

end Tree
end Disk
end AgentMemory
