import Mathlib.Data.String.Basic
import AgentMemory.Episodic.Index

namespace AgentMemory
namespace Episodic

/-!
# The index invariant

The index keeps two inverted indices, from tags and from projects to episode
identifiers, as lists of entries kept in key order.  `Index.Exact` states what the
stores keep of them: identifiers are distinct, every list is non-empty and holds an
identifier once, each key has one entry, and an identifier is listed under a tag or a
project exactly when its summary carries that tag or project.

Each change of the index is described once, through the list under each key (`refs`):
adding an identifier under a key appends it there unless it is present
(`refs_addRef`), dropping an identifier takes it out of every list (`refs_dropRef`).
From these, logging a fresh summary (`Exact.add`), dropping an episode
(`Exact.remove`) and regenerating the index from its log (`exact_reindex`) keep the
invariant, and the check that reading runs passes on every such index
(`Exact.consistent`).
-/

/-- The keys of an inverted index strictly increase, so that each key has one list. -/
def KeysSorted (m : List (String × List String)) : Prop := (m.map Prod.fst).Pairwise (· < ·)

theorem KeysSorted.nodup {m : List (String × List String)} (sorted : KeysSorted m) :
    (m.map Prod.fst).Nodup :=
  sorted.imp ne_of_lt

theorem refs_of_mem {m : List (String × List String)} (keys : (m.map Prod.fst).Nodup) {k : String}
    {l : List String} (mem : (k, l) ∈ m) : refs m k = l := by
  induction m with
  | nil => cases mem
  | cons kv rest ih =>
    obtain ⟨k', l'⟩ := kv
    rw [List.map_cons, List.nodup_cons] at keys
    by_cases same : k' = k
    · subst same
      rcases List.mem_cons.mp mem with head | tail
      · cases head
        simp [refs]
      · exact absurd (List.mem_map_of_mem (f := Prod.fst) tail) keys.1
    · rcases List.mem_cons.mp mem with head | tail
      · cases head
        exact absurd rfl same
      · have skip : refs ((k', l') :: rest) k = refs rest k := by simp [refs, same]
        rw [skip]
        exact ih keys.2 tail

theorem refs_of_not_mem {m : List (String × List String)} {k : String} (absent : k ∉ m.map Prod.fst) :
    refs m k = [] := by
  have none : m.find? (·.1 == k) = none := by
    rw [List.find?_eq_none]
    intro kv mem same
    exact absent (List.mem_map.mpr ⟨kv, mem, by simpa using same⟩)
  simp [refs, none]

theorem keysSorted_mergeSort {m : List (String × List String)} (keys : (m.map Prod.fst).Nodup) :
    KeysSorted (m.mergeSort (fun a b => decide (a.1 ≤ b.1))) := by
  have ordered : (m.mergeSort (fun a b => decide (a.1 ≤ b.1))).Pairwise (fun a b => decide (a.1 ≤ b.1)) :=
    List.pairwise_mergeSort
      (fun a b c ab bc => by simp only [decide_eq_true_eq] at ab bc ⊢; exact le_trans ab bc)
      (fun a b => by simpa using le_total a.1 b.1) m
  have distinct : ((m.mergeSort (fun a b => decide (a.1 ≤ b.1))).map Prod.fst).Nodup :=
    ((List.mergeSort_perm m _).map Prod.fst).nodup_iff.mpr keys
  unfold KeysSorted
  rw [List.Nodup, List.pairwise_map] at distinct
  rw [List.pairwise_map]
  exact (ordered.and distinct).imp fun ⟨le, ne⟩ => lt_of_le_of_ne (by simpa using le) ne

/-- The list under a key after an identifier is added to it: the identifier is put at its
end unless it is there already. -/
def appendNew (l : List String) (id : String) : List String := if id ∈ l then l else l ++ [id]

theorem keys_addRef_present (m : List (String × List String)) (key id : String) :
    (m.map fun kv : String × List String =>
        if kv.1 == key then (if kv.2.contains id then kv else (kv.1, kv.2 ++ [id])) else kv).map Prod.fst =
      m.map Prod.fst := by
  rw [List.map_map]
  congr 1
  funext kv
  simp only [Function.comp]
  split <;> (try split) <;> rfl

theorem keysSorted_addRef {m : List (String × List String)} (sorted : KeysSorted m) (key id : String) :
    KeysSorted (addRef m key id) := by
  unfold addRef
  split
  · unfold KeysSorted
    rw [keys_addRef_present]
    exact sorted
  · rename_i absent
    apply keysSorted_mergeSort
    rw [List.map_append, List.nodup_append]
    refine ⟨sorted.nodup, by simp, ?_⟩
    intro a mem b memb
    simp only [List.any_eq_true, beq_iff_eq, not_exists, not_and] at absent
    simp only [List.map_cons, List.map_nil, List.mem_singleton] at memb
    subst memb
    obtain ⟨kv, kvMem, rfl⟩ := List.mem_map.mp mem
    exact absent kv kvMem

/-- Adding an identifier under a key changes the list under that key only. -/
theorem refs_addRef {m : List (String × List String)} (sorted : KeysSorted m) (key id k : String) :
    refs (addRef m key id) k = if k = key then appendNew (refs m key) id else refs m k := by
  have keys := sorted.nodup
  have keys' := (keysSorted_addRef sorted key id).nodup
  unfold addRef at keys' ⊢
  split
  · rename_i present
    rw [if_pos present] at keys'
    obtain ⟨⟨key', l⟩, mem, same⟩ := List.any_eq_true.mp present
    simp only [beq_iff_eq] at same
    subst same
    by_cases listed : k ∈ m.map Prod.fst
    · obtain ⟨⟨k, lk⟩, memk, rfl⟩ := List.mem_map.mp listed
      have changed : (k, if k = key' then appendNew lk id else lk) ∈ m.map (fun kv : String × List String =>
          if kv.1 == key' then (if kv.2.contains id then kv else (kv.1, kv.2 ++ [id])) else kv) := by
        refine List.mem_map.mpr ⟨(k, lk), memk, ?_⟩
        by_cases at_key : k = key'
        · by_cases has : id ∈ lk <;> simp [at_key, has, appendNew]
        · simp [at_key]
      rw [refs_of_mem keys' changed]
      by_cases at_key : k = key'
      · subst at_key
        simp [refs_of_mem keys memk]
      · simp [at_key]
        exact (refs_of_mem keys memk).symm
    · have other : k ≠ key' := fun same => listed (same ▸ List.mem_map_of_mem mem)
      rw [refs_of_not_mem listed, if_neg other, refs_of_not_mem]
      rw [keys_addRef_present]
      exact listed
  · rename_i absent
    rw [if_neg absent] at keys'
    have fresh : key ∉ m.map Prod.fst := by
      simp only [List.any_eq_true, beq_iff_eq, not_exists, not_and] at absent
      intro mem
      obtain ⟨kv, kvMem, same⟩ := List.mem_map.mp mem
      exact absent kv kvMem same
    by_cases at_key : k = key
    · subst at_key
      have added : (k, [id]) ∈ (m ++ [(k, [id])]).mergeSort (fun a b => decide (a.1 ≤ b.1)) := by simp
      rw [refs_of_mem keys' added, refs_of_not_mem fresh]
      simp [appendNew]
    · rw [if_neg at_key]
      by_cases listed : k ∈ m.map Prod.fst
      · obtain ⟨⟨k, lk⟩, memk, rfl⟩ := List.mem_map.mp listed
        have kept : (k, lk) ∈ (m ++ [(key, [id])]).mergeSort (fun a b => decide (a.1 ≤ b.1)) := by simp [memk]
        rw [refs_of_mem keys' kept, refs_of_mem keys memk]
      · rw [refs_of_not_mem listed, refs_of_not_mem]
        simp only [List.mem_map, List.mem_mergeSort, List.mem_append, List.mem_singleton, not_exists, not_and]
        rintro ⟨k', l'⟩ (mem | same) rfl
        · exact listed (List.mem_map_of_mem mem)
        · cases same
          exact at_key rfl

/-- The lists of an inverted index are neither empty nor hold an identifier twice. -/
def ListsProper (m : List (String × List String)) : Prop := ∀ kv ∈ m, kv.2 ≠ [] ∧ kv.2.Nodup

theorem listsProper_addRef {m : List (String × List String)} (proper : ListsProper m) (key id : String) :
    ListsProper (addRef m key id) := by
  intro kv mem
  unfold addRef at mem
  split at mem
  · obtain ⟨⟨k, l⟩, memk, rfl⟩ := List.mem_map.mp mem
    obtain ⟨filled, distinct⟩ := proper (k, l) memk
    by_cases at_key : k = key
    · by_cases has : id ∈ l
      · simp [at_key, has, filled, distinct]
      · simp [at_key, has, List.nodup_append, distinct]
        intro a mem same
        exact has (same ▸ mem)
    · simp [at_key, filled, distinct]
  · rcases List.mem_append.mp (List.mem_mergeSort.mp mem) with old | new
    · exact proper kv old
    · rw [List.mem_singleton] at new
      subst new
      simp

theorem keysSorted_dropRef {m : List (String × List String)} (sorted : KeysSorted m) (id : String) :
    KeysSorted (dropRef m id) := by
  unfold KeysSorted dropRef
  have sub : List.Sublist
      (((m.map fun kv => (kv.1, kv.2.filter (· != id))).filter (fun kv => !kv.2.isEmpty)).map Prod.fst)
      (m.map Prod.fst) := by
    have := (List.filter_sublist (p := fun kv : String × List String => !kv.2.isEmpty)
      (l := m.map fun kv => (kv.1, kv.2.filter (· != id)))).map Prod.fst
    simpa [List.map_map, Function.comp_def] using this
  exact sorted.sublist sub

/-- Dropping an identifier takes it out of every list. -/
theorem refs_dropRef {m : List (String × List String)} (sorted : KeysSorted m) (id k : String) :
    refs (dropRef m id) k = (refs m k).filter (· != id) := by
  have keys := sorted.nodup
  have keys' := (keysSorted_dropRef sorted id).nodup
  by_cases listed : k ∈ m.map Prod.fst
  · obtain ⟨⟨k, l⟩, memk, rfl⟩ := List.mem_map.mp listed
    rw [refs_of_mem keys memk]
    by_cases emptied : l.filter (· != id) = []
    · rw [emptied, refs_of_not_mem]
      simp only [dropRef, List.mem_map, List.mem_filter, not_exists, not_and]
      rintro ⟨k', l'⟩ ⟨⟨⟨k'', l''⟩, mem'', same⟩, filled⟩ rfl
      simp only [Prod.mk.injEq] at same
      obtain ⟨rfl, rfl⟩ := same
      have := refs_of_mem keys mem''
      rw [refs_of_mem keys memk] at this
      subst this
      simp [emptied] at filled
    · have kept : (k, l.filter (· != id)) ∈ dropRef m id := by
        simp only [dropRef, List.mem_filter, List.mem_map]
        exact ⟨⟨(k, l), memk, rfl⟩, by simpa using emptied⟩
      exact refs_of_mem keys' kept
  · rw [refs_of_not_mem listed, refs_of_not_mem]
    · rfl
    · simp only [dropRef, List.mem_map, List.mem_filter, not_exists, not_and]
      rintro ⟨k', l'⟩ ⟨⟨⟨k'', l''⟩, mem'', same⟩, -⟩ rfl
      simp only [Prod.mk.injEq] at same
      exact listed (List.mem_map.mpr ⟨(k'', l''), mem'', same.1⟩)

theorem listsProper_dropRef {m : List (String × List String)} (proper : ListsProper m) (id : String) :
    ListsProper (dropRef m id) := by
  intro kv mem
  simp only [dropRef, List.mem_filter, List.mem_map] at mem
  obtain ⟨⟨⟨k, l⟩, memk, rfl⟩, filled⟩ := mem
  exact ⟨by simpa using filled, (proper (k, l) memk).2.filter _⟩

@[simp] theorem mem_appendNew {l : List String} {id x : String} : x ∈ appendNew l id ↔ x ∈ l ∨ x = id := by
  unfold appendNew
  split
  · rename_i has
    constructor
    · exact Or.inl
    · rintro (mem | rfl)
      · exact mem
      · exact has
  · simp

theorem keysSorted_addRefs {m : List (String × List String)} (sorted : KeysSorted m) (ts : List String)
    (id : String) : KeysSorted (ts.foldl (fun m t => addRef m t id) m) := by
  induction ts generalizing m with
  | nil => exact sorted
  | cons t ts ih => exact ih (keysSorted_addRef sorted t id)

theorem listsProper_addRefs {m : List (String × List String)} (proper : ListsProper m) (ts : List String)
    (id : String) : ListsProper (ts.foldl (fun m t => addRef m t id) m) := by
  induction ts generalizing m with
  | nil => exact proper
  | cons t ts ih => exact ih (listsProper_addRef proper t id)

/-- Adding one identifier under several keys lists it under each of them, and changes no
other list. -/
theorem mem_refs_addRefs {m : List (String × List String)} (sorted : KeysSorted m) (ts : List String)
    (id k x : String) :
    x ∈ refs (ts.foldl (fun m t => addRef m t id) m) k ↔ x ∈ refs m k ∨ (k ∈ ts ∧ x = id) := by
  induction ts generalizing m with
  | nil => simp
  | cons t ts ih =>
    rw [List.foldl_cons, ih (keysSorted_addRef sorted t id), refs_addRef sorted]
    by_cases at_key : k = t
    · subst at_key
      simp only [if_true, mem_appendNew, List.mem_cons, true_or, true_and]
      tauto
    · simp only [at_key, if_false, List.mem_cons, false_or]

/-- Every list of an inverted index is non-empty and holds logged identifiers only. -/
def ListsWithin (m : List (String × List String)) (ids : List String) : Prop :=
  ∀ kv ∈ m, kv.2 ≠ [] ∧ ∀ x ∈ kv.2, x ∈ ids

theorem ListsWithin.mono {m : List (String × List String)} {ids ids' : List String} (within : ListsWithin m ids)
    (grown : ∀ x ∈ ids, x ∈ ids') : ListsWithin m ids' :=
  fun kv mem => ⟨(within kv mem).1, fun x listed => grown x ((within kv mem).2 x listed)⟩

theorem ListsWithin.addRef {m : List (String × List String)} {ids : List String} (within : ListsWithin m ids)
    {id : String} (logged : id ∈ ids) (key : String) : ListsWithin (addRef m key id) ids := by
  intro kv mem
  unfold AgentMemory.Episodic.addRef at mem
  split at mem
  · obtain ⟨⟨k, l⟩, memk, rfl⟩ := List.mem_map.mp mem
    obtain ⟨filled, inside⟩ := within (k, l) memk
    by_cases at_key : k = key
    · by_cases has : id ∈ l
      · simpa [at_key, has] using ⟨filled, inside⟩
      · simp only [at_key, beq_self_eq_true, List.contains_iff_mem, has, if_true, if_false, ne_eq,
          List.append_eq_nil_iff, List.cons_ne_nil, and_false, not_false_eq_true, List.mem_append,
          List.mem_singleton, true_and]
        rintro x (old | rfl)
        · exact inside x old
        · exact logged
    · simpa [at_key] using ⟨filled, inside⟩
  · rcases List.mem_append.mp (List.mem_mergeSort.mp mem) with old | new
    · exact within kv old
    · rw [List.mem_singleton] at new
      subst new
      simpa using logged

theorem ListsWithin.addRefs {m : List (String × List String)} {ids : List String} (within : ListsWithin m ids)
    {id : String} (logged : id ∈ ids) (ts : List String) :
    ListsWithin (ts.foldl (fun m t => AgentMemory.Episodic.addRef m t id) m) ids := by
  induction ts generalizing m with
  | nil => exact within
  | cons t ts ih => exact ih (within.addRef logged t)

theorem eraseDups_of_nodup {l : List String} (distinct : l.Nodup) : l.eraseDups = l := by
  induction l with
  | nil => rfl
  | cons a as ih =>
    obtain ⟨fresh, rest⟩ := List.nodup_cons.mp distinct
    have keep : as.filter (fun b => !b == a) = as := by
      apply List.filter_eq_self.mpr
      intro b mem
      simp only [Bool.not_eq_eq_eq_not, Bool.not_true, beq_eq_false_iff_ne, ne_eq]
      rintro rfl
      exact fresh mem
    rw [List.eraseDups_cons, keep, ih rest]

namespace Index

/-- The index invariant as the stores keep it: identifiers are distinct, each inverted
index has one proper list per key, kept in key order, and an identifier is listed under
a tag or a project exactly when its summary carries that tag or project. -/
structure Exact (idx : Index) : Prop where
  distinct : idx.ids.Nodup
  tagKeys : KeysSorted idx.tags
  projectKeys : KeysSorted idx.projects
  tagLists : ListsProper idx.tags
  projectLists : ListsProper idx.projects
  tagged : ∀ t x, x ∈ refs idx.tags t ↔ ∃ s ∈ idx.episodes, s.id = x ∧ t ∈ s.tags.getD []
  inProject : ∀ p x, x ∈ refs idx.projects p ↔ ∃ s ∈ idx.episodes, s.id = x ∧ s.project = p

theorem exact_empty : (({} : Index)).Exact where
  distinct := List.nodup_nil
  tagKeys := List.Pairwise.nil
  projectKeys := List.Pairwise.nil
  tagLists := fun _ mem => by cases mem
  projectLists := fun _ mem => by cases mem
  tagged := fun t x => by simp [refs]
  inProject := fun p x => by simp [refs]

/-- Logging a summary under a fresh identifier keeps the invariant. -/
theorem Exact.add {idx : Index} (exact : idx.Exact) {s : Summary} (fresh : s.id ∉ idx.ids) :
    (idx.add s).Exact := by
  have tagRefs := mem_refs_addRefs exact.tagKeys (s.tags.getD []) s.id
  refine ⟨?_, keysSorted_addRefs exact.tagKeys _ _, keysSorted_addRef exact.projectKeys _ _,
    listsProper_addRefs exact.tagLists _ _, listsProper_addRef exact.projectLists _ _, ?_, ?_⟩
  · simp only [ids, Index.add, List.map_append, List.map_cons, List.map_nil]
    refine List.nodup_append.mpr ⟨exact.distinct, by simp, ?_⟩
    intro a mem b memb same
    rw [List.mem_singleton] at memb
    subst memb same
    exact fresh mem
  · intro t x
    simp only [Index.add]
    rw [tagRefs, exact.tagged]
    simp only [List.mem_append, List.mem_singleton]
    constructor
    · rintro (⟨s', mem, rfl, has⟩ | ⟨has, rfl⟩)
      · exact ⟨s', Or.inl mem, rfl, has⟩
      · exact ⟨s, Or.inr rfl, rfl, has⟩
    · rintro ⟨s', (mem | rfl), rfl, has⟩
      · exact Or.inl ⟨s', mem, rfl, has⟩
      · exact Or.inr ⟨has, rfl⟩
  · intro p x
    simp only [Index.add]
    rw [refs_addRef exact.projectKeys]
    by_cases at_project : p = s.project
    · subst at_project
      rw [if_pos rfl, mem_appendNew, exact.inProject]
      simp only [List.mem_append, List.mem_singleton]
      constructor
      · rintro (⟨s', mem, rfl, same⟩ | rfl)
        · exact ⟨s', Or.inl mem, rfl, same⟩
        · exact ⟨s, Or.inr rfl, rfl, rfl⟩
      · rintro ⟨s', (mem | rfl), rfl, same⟩
        · exact Or.inl ⟨s', mem, rfl, same⟩
        · exact Or.inr rfl
    · rw [if_neg at_project, exact.inProject]
      simp only [List.mem_append, List.mem_singleton]
      constructor
      · rintro ⟨s', mem, rfl, same⟩
        exact ⟨s', Or.inl mem, rfl, same⟩
      · rintro ⟨s', (mem | rfl), rfl, same⟩
        · exact ⟨s', mem, rfl, same⟩
        · exact absurd same.symm at_project

/-- Dropping an identifier keeps the invariant. -/
theorem Exact.remove {idx : Index} (exact : idx.Exact) (id : String) : (idx.remove id).1.Exact := by
  refine ⟨?_, keysSorted_dropRef exact.tagKeys id, keysSorted_dropRef exact.projectKeys id,
    listsProper_dropRef exact.tagLists id, listsProper_dropRef exact.projectLists id, ?_, ?_⟩
  · exact exact.distinct.sublist (List.filter_sublist.map _)
  · intro t x
    simp only [Index.remove]
    rw [refs_dropRef exact.tagKeys, List.mem_filter, exact.tagged]
    simp only [List.mem_filter, bne_iff_ne, ne_eq]
    constructor
    · rintro ⟨⟨s, mem, rfl, has⟩, other⟩
      exact ⟨s, ⟨mem, other⟩, rfl, has⟩
    · rintro ⟨s, ⟨mem, other⟩, rfl, has⟩
      exact ⟨⟨s, mem, rfl, has⟩, other⟩
  · intro p x
    simp only [Index.remove]
    rw [refs_dropRef exact.projectKeys, List.mem_filter, exact.inProject]
    simp only [List.mem_filter, bne_iff_ne, ne_eq]
    constructor
    · rintro ⟨⟨s, mem, rfl, same⟩, other⟩
      exact ⟨s, ⟨mem, other⟩, rfl, same⟩
    · rintro ⟨s, ⟨mem, other⟩, rfl, same⟩
      exact ⟨⟨s, mem, rfl, same⟩, other⟩

/-- Logging summaries of distinct fresh identifiers one after the other keeps the
invariant, and the log grows by them in order. -/
theorem Exact.addAll {idx : Index} (exact : idx.Exact) (xs : List Summary) (distinct : (xs.map (·.id)).Nodup)
    (fresh : ∀ s ∈ xs, s.id ∉ idx.ids) :
    (xs.foldl Index.add idx).Exact ∧ (xs.foldl Index.add idx).episodes = idx.episodes ++ xs := by
  induction xs generalizing idx with
  | nil => exact ⟨exact, by simp⟩
  | cons s xs ih =>
    rw [List.map_cons, List.nodup_cons] at distinct
    have grown : (idx.add s).ids = idx.ids ++ [s.id] := by simp [ids, Index.add]
    have later : ∀ s' ∈ xs, s'.id ∉ (idx.add s).ids := by
      intro s' mem
      rw [grown, List.mem_append, List.mem_singleton, not_or]
      exact ⟨fresh s' (List.mem_cons_of_mem s mem),
        fun same => distinct.1 (same ▸ List.mem_map_of_mem mem)⟩
    obtain ⟨exact', log⟩ := ih (exact.add (fresh s (List.mem_cons_self ..))) distinct.2 later
    refine ⟨exact', ?_⟩
    rw [List.foldl_cons, log]
    simp [Index.add]

end Index

/-- Keeping the first summary of each identifier leaves distinct identifiers, each of a
summary of the list. -/
theorem firstById_spec (xs : List Summary) :
    ((firstById xs).map (·.id)).Nodup ∧ (∀ s ∈ firstById xs, s ∈ xs) ∧
      ∀ s ∈ xs, ∃ s' ∈ firstById xs, s'.id = s.id := by
  have step : ∀ (ys acc : List Summary), (acc.map (·.id)).Nodup →
      let out := ys.foldl (fun acc s => if acc.any (·.id == s.id) then acc else acc ++ [s]) acc
      (out.map (·.id)).Nodup ∧ (∀ s ∈ out, s ∈ acc ∨ s ∈ ys) ∧
        ∀ s ∈ acc ++ ys, ∃ s' ∈ out, s'.id = s.id := by
    intro ys
    induction ys with
    | nil => intro acc distinct; simp only [List.foldl_nil, List.append_nil]; exact ⟨distinct, fun s mem => Or.inl mem,
        fun s mem => ⟨s, mem, rfl⟩⟩
    | cons y ys ih =>
      intro acc distinct
      simp only [List.foldl_cons]
      split
      · rename_i seen
        obtain ⟨d, kept, covered⟩ := ih acc distinct
        refine ⟨d, fun s mem => ?_, fun s mem => ?_⟩
        · rcases kept s mem with old | later
          · exact Or.inl old
          · exact Or.inr (List.mem_cons_of_mem y later)
        · rcases List.mem_append.mp mem with old | rest
          · exact covered s (List.mem_append_left _ old)
          · rcases List.mem_cons.mp rest with here | later
            · subst here
              obtain ⟨s0, mem0, same⟩ := List.any_eq_true.mp seen
              simp only [beq_iff_eq] at same
              obtain ⟨s', mem', same'⟩ := covered s0 (List.mem_append_left _ mem0)
              exact ⟨s', mem', same'.trans same⟩
            · exact covered s (List.mem_append_right _ later)
      · rename_i unseen
        have distinct' : ((acc ++ [y]).map (·.id)).Nodup := by
          rw [List.map_append, List.nodup_append]
          refine ⟨distinct, by simp, ?_⟩
          intro a mem b memb same
          simp only [List.map_cons, List.map_nil, List.mem_singleton] at memb
          subst memb same
          obtain ⟨s0, mem0, same⟩ := List.mem_map.mp mem
          exact unseen (List.any_eq_true.mpr ⟨s0, mem0, by simp [same]⟩)
        obtain ⟨d, kept, covered⟩ := ih (acc ++ [y]) distinct'
        refine ⟨d, fun s mem => ?_, fun s mem => ?_⟩
        · rcases kept s mem with old | later
          · rcases List.mem_append.mp old with old | new
            · exact Or.inl old
            · exact Or.inr (by simp at new; simp [new])
          · exact Or.inr (List.mem_cons_of_mem y later)
        · apply covered s
          simp only [List.mem_append, List.mem_cons] at mem ⊢
          tauto
  obtain ⟨d, kept, covered⟩ := step xs [] List.nodup_nil
  exact ⟨d, fun s mem => (kept s mem).resolve_left (by simp), fun s mem => covered s (by simpa using mem)⟩

namespace Index

/-- Regenerating the index leaves the first summary of each identifier and the invariant. -/
theorem exact_reindex (idx : Index) : idx.reindex.Exact ∧ idx.reindex.episodes = firstById idx.episodes := by
  obtain ⟨distinct, -, -⟩ := firstById_spec idx.episodes
  obtain ⟨exact, log⟩ := exact_empty.addAll (firstById idx.episodes) distinct (by simp [ids])
  exact ⟨exact, by rw [reindex, log]; rfl⟩

/-- What the check of the invariant that reading runs asks: identifiers are distinct, every
list of the inverted indices is non-empty and holds logged identifiers, and every summary
is listed under its project and its tags.  It asks less than `Exact`: a list may hold an
identifier twice, or one whose summary does not carry the key. -/
theorem consistent_iff (idx : Index) : idx.consistent = true ↔
    idx.ids.eraseDups.length = idx.ids.length ∧ ListsWithin (idx.tags ++ idx.projects) idx.ids ∧
      ∀ s ∈ idx.episodes, s.id ∈ refs idx.projects s.project ∧ ∀ t ∈ s.tags.getD [], s.id ∈ refs idx.tags t := by
  simp only [Index.consistent, Bool.and_eq_true, beq_iff_eq, List.all_eq_true, Bool.not_eq_true',
    List.isEmpty_eq_false_iff, List.contains_iff_mem, ListsWithin, and_assoc]

/-- The check of the invariant that reading runs passes on every exact index. -/
theorem Exact.consistent {idx : Index} (exact : idx.Exact) : idx.consistent = true := by
  have within : ListsWithin (idx.tags ++ idx.projects) idx.ids := by
    intro kv mem
    rcases List.mem_append.mp mem with tag | project
    · refine ⟨(exact.tagLists kv tag).1, fun x listed => ?_⟩
      rw [← refs_of_mem exact.tagKeys.nodup tag, exact.tagged] at listed
      obtain ⟨s, smem, rfl, -⟩ := listed
      exact List.mem_map_of_mem smem
    · refine ⟨(exact.projectLists kv project).1, fun x listed => ?_⟩
      rw [← refs_of_mem exact.projectKeys.nodup project, exact.inProject] at listed
      obtain ⟨s, smem, rfl, -⟩ := listed
      exact List.mem_map_of_mem smem
  refine (consistent_iff idx).mpr ⟨by rw [eraseDups_of_nodup exact.distinct], within, fun s mem => ?_⟩
  exact ⟨(exact.inProject s.project s.id).mpr ⟨s, mem, rfl, rfl⟩,
    fun t has => (exact.tagged t s.id).mpr ⟨s, mem, rfl, has⟩⟩

/-- Logging a summary under a fresh identifier keeps the check of the invariant passing,
whatever else the index holds, as long as its keys are in order. -/
theorem consistent_add {idx : Index} (consistent : idx.consistent = true) (tagKeys : KeysSorted idx.tags)
    (projectKeys : KeysSorted idx.projects) {s : Summary} (fresh : s.id ∉ idx.ids) :
    (idx.add s).consistent = true := by
  obtain ⟨distinct, within, listed⟩ := (consistent_iff idx).mp consistent
  have ids_add : (idx.add s).ids = idx.ids ++ [s.id] := by simp [ids, Index.add]
  have grown : ∀ x ∈ idx.ids, x ∈ (idx.add s).ids := fun x mem => by simp [ids_add, mem]
  have logged : s.id ∈ (idx.add s).ids := by simp [ids_add]
  have tagsWithin : ListsWithin idx.tags (idx.add s).ids :=
    fun kv mem => within.mono grown kv (List.mem_append_left _ mem)
  have projectsWithin : ListsWithin idx.projects (idx.add s).ids :=
    fun kv mem => within.mono grown kv (List.mem_append_right _ mem)
  have project : ∀ p x, x ∈ refs idx.projects p → x ∈ refs (idx.add s).projects p := by
    intro p x mem
    simp only [Index.add]
    rw [refs_addRef projectKeys]
    split
    · rename_i same
      subst same
      exact mem_appendNew.mpr (Or.inl mem)
    · exact mem
  refine (consistent_iff _).mpr ⟨?_, ?_, ?_⟩
  · rw [ids_add, List.eraseDups_append]
    simp [List.removeAll, fresh, distinct, List.eraseDups_cons]
  · intro kv mem
    rcases List.mem_append.mp mem with tag | project
    · exact (tagsWithin.addRefs logged (s.tags.getD [])) kv tag
    · exact (projectsWithin.addRef logged s.project) kv project
  · intro s' mem
    simp only [Index.add, mem_refs_addRefs tagKeys]
    rcases List.mem_append.mp mem with old | added
    · exact ⟨project _ _ (listed s' old).1, fun t has => Or.inl ((listed s' old).2 t has)⟩
    · rw [List.mem_singleton.mp added]
      refine ⟨?_, fun t has => Or.inr ⟨has, rfl⟩⟩
      rw [refs_addRef projectKeys, if_pos rfl]
      exact mem_appendNew.mpr (Or.inr rfl)

end Index

end Episodic
end AgentMemory
