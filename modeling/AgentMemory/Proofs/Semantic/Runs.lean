import AgentMemory.Proofs.Semantic.Documents
import AgentMemory.Proofs.Text.Lines

namespace AgentMemory
namespace Semantic

open Storage Disk Tree

/-!
# What the fact store's operations do to its file

`Holds s ns w facts` says that in the world `w` the store's file stands for `facts`: it is
missing and there are none, or it holds their document, which reads back as them and is
within the size the store reads.  It also asks what every locked cycle needs: the store's
directory exists, nothing stands as a directory in the lock's place, no one else holds the
lock, and no logger is open.

Under it, loading gives the facts and changes nothing (`Holds.run_load`), and a locked
change that does no more than compute the new list writes that list and keeps the
relation (`Holds.run_update`).  The queries of the store are answered from the facts
(`Holds.run_get`, `Holds.run_count`, `Holds.run_search`).  The relation looks at the
tree only at the store's file, its lock and its directories, and at the locks held and the
logger (`Holds.frame`), so the clock, the log and the identifiers drawn may change freely
between calls.
-/

/-- The store's document is the file `name` in the directory through the plain names `ns`. -/
structure Placed (s : Store) (ns : List String) (name : String) : Prop where
  plain : ∀ n ∈ ns, Plain n
  named : Plain name
  path : s.path = pathOf (ns ++ [name])

/-- The document of the facts is within the size the store reads. -/
def Small (facts : List Fact) : Prop := (⟨documentText (Store.document facts), 0⟩ : FileData).size ≤ maxDocumentBytes

instance : DecidablePred Small := fun _ => inferInstanceAs (Decidable (_ ≤ _))

theorem Small.sublist {facts facts' : List Fact} (small : Small facts) (sub : facts'.Sublist facts) : Small facts' := by
  have text := sublist_documentText_single "facts" (Json.sublist_indentedAt_arr .document 1 (sub.map Fact.toJson))
  have bytes : (documentText (Store.document facts')).utf8ByteSize ≤ (documentText (Store.document facts)).utf8ByteSize :=
    Text.utf8ByteSize_le_of_sublist text
  exact Nat.le_trans (Nat.add_le_add_right bytes 0) small

/-- The store's file stands for `facts`, and a locked cycle on it can run. -/
structure Holds (s : Store) (ns : List String) (w : World) (facts : List Fact) : Prop where
  dirs : w.tree.DirsTo ns
  lock : w.tree.get? (lockPath s.path) ≠ some .dir
  free : w.held.contains s.path = false
  quiet : w.sink = none
  file : (w.tree.get? s.path = none ∧ facts = []) ∨
    w.tree.get? s.path = some (.file ⟨documentText (Store.document facts), 0⟩)
  storable : ∀ f ∈ facts, f.Storable
  small : Small facts

section

variable {s : Store} {ns : List String} {name : String} {w : World} {facts : List Fact}

theorem Placed.lockPath_eq (placed : Placed s ns name) :
    Storage.lockPath s.path = pathOf (ns ++ [name ++ ".lock"]) := by
  rw [placed.path, lockPath_pathOf]

theorem Placed.lock_ne (placed : Placed s ns name) : Storage.lockPath s.path ≠ s.path := by
  rw [placed.path]
  exact lockPath_ne placed.plain placed.named

theorem Placed.made (placed : Placed s ns name) (dirs : w.tree.DirsTo ns) :
    w.tree.mkdirAll (parent s.path) = .ok w.tree := by
  rw [placed.path, parent_pathOf placed.plain placed.named, mkdirAll_of_dirsTo placed.plain dirs]

/-- The relation reads the tree only at the store's file, its lock and its directories. -/
theorem Holds.frame (holds : Holds s ns w facts) {w' : World} (tree : w'.tree = w.tree) (held : w'.held = w.held)
    (sink : w'.sink = w.sink) : Holds s ns w' facts := by
  obtain ⟨dirs, lock, free, quiet, file, storable, small⟩ := holds
  exact ⟨tree ▸ dirs, tree ▸ lock, held ▸ free, sink ▸ quiet, tree ▸ file, storable, small⟩

theorem Holds.lock_taken (placed : Placed s ns name) (holds : Holds s ns w facts) :
    Holds s ns { w with tree := w.tree.put (lockPath s.path) (.file ⟨"", 0⟩) } facts := by
  obtain ⟨dirs, lock, free, quiet, file, storable, small⟩ := holds
  have other : s.path ≠ lockPath s.path := placed.lock_ne.symm
  refine ⟨?_, ?_, free, quiet, ?_, storable, small⟩
  · rw [placed.lockPath_eq]
    exact dirs.put_child placed.plain (plain_lock placed.named) _
  · simp [get?_put]
  · simpa only [get?_put, if_neg other] using file

/-- Loading gives the facts the file stands for, and changes nothing. -/
theorem Holds.run_load (placed : Placed s ns name) (holds : Holds s ns w facts) : s.load.run.run w = (.ok facts, w) := by
  rcases holds.file with ⟨missing, rfl⟩ | present
  · have fetched : fetch w.tree s.path = .ok none := by
      rw [placed.path] at missing ⊢
      exact fetch_of_get?_none placed.plain placed.named holds.dirs missing
    have read : (readJson s.path Store.readFacts).run.run w = (.ok none, w) := by
      simp only [readJson, run_bind, run_readText fetched, run_pure]
    simp only [Store.load, run_bind, run_attempt, read, run_pure, Option.getD_none]
  · have fetched : fetch w.tree s.path = .ok (some (documentText (Store.document facts))) := by
      rw [placed.path] at present ⊢
      rw [fetch_of_get?_file placed.plain placed.named holds.dirs present, if_neg (Nat.not_lt.mpr holds.small),
        contents_of_text]
    have read := readJson_documentText (Store.integral_document holds.storable).spelled fetched
      (Store.readFacts_document holds.storable)
    simp only [Store.load, run_bind, run_attempt, read, run_pure, Option.getD_some]

/-- Taking the lock and loading the facts leave a world where the relation still holds; a
change that only computes a new list then comes down to writing it, when it says so. -/
theorem Holds.update_locked (placed : Placed s ns name) (holds : Holds s ns w facts) :
    ∃ t, Holds s ns { w with tree := t } facts ∧
      ∀ {α : Type} (change : List Fact → Act (Bool × List Fact × α)) (changed : Bool) (facts' : List Fact) (out : α),
        change facts = pure (changed, facts', out) →
        (s.update change).run.run w =
          (show Act α from do
            if changed then writeJsonTimed s.path (Store.times facts') (Store.document facts')
            return out).run.run { w with tree := t } := by
  obtain ⟨t₁, taken, locked⟩ := run_withLock_free (placed.made holds.dirs) holds.lock holds.free
  have holds₁ : Holds s ns { w with tree := t₁ } facts := by
    rcases taken with rfl | rfl
    · exact holds.frame rfl rfl rfl
    · exact holds.lock_taken placed
  refine ⟨t₁, holds₁, fun change changed facts' out computed => ?_⟩
  rw [Store.update, locked, run_bind, holds₁.run_load placed]
  dsimp only
  rw [run_bind, computed, run_pure]

/-- A locked change that asks to write a list whose facts read back writes its document,
whatever its size: the directories and the lock stay as a cycle needs them, and only the
store's file (and perhaps the lock file) changes. -/
theorem Holds.run_update_writes (placed : Placed s ns name) (holds : Holds s ns w facts) (facts' : List Fact)
    (storable : ∀ f ∈ facts', f.Storable) :
    ∃ t : Tree, t.DirsTo ns ∧ t.get? (lockPath s.path) ≠ some .dir ∧
      ∀ {α : Type} (change : List Fact → Act (Bool × List Fact × α)) (out : α),
        change facts = pure (true, facts', out) →
        (s.update change).run.run w =
          (.ok out, { w with tree := t.put s.path (.file ⟨documentText (Store.document facts'), 0⟩) }) := by
  obtain ⟨t₁, holds₁, locked⟩ := holds.update_locked placed
  have times : (Store.times facts').findSome? Clock.Instant.encodingProblem? = none := by
    apply findSome?_encodingProblem_eq_none
    intro t mem
    obtain ⟨f, mem, listed⟩ := List.mem_flatMap.mp mem
    have fits := storable f mem
    simp only [List.mem_cons, List.not_mem_nil, or_false] at listed
    rcases listed with rfl | rfl
    · exact fits.createdWritable
    · exact fits.updatedWritable
  have notDir : t₁.get? (pathOf (ns ++ [name])) ≠ some .dir := by
    rw [← placed.path]
    rcases holds₁.file with ⟨missing, -⟩ | present
    · simp [missing]
    · simp [present]
  have written := replaceFile_child placed.plain placed.named holds₁.dirs notDir
    (documentText (Store.document facts'))
  rw [← placed.path] at written
  refine ⟨t₁, holds₁.dirs, holds₁.lock, fun change out computed => ?_⟩
  rw [locked change _ facts' out computed]
  simp only [if_true, run_bind, run_writeJsonTimed, times, run_writeText, written, run_pure]

/-- A locked change of the store that only computes a new list: when it says so, the new
list is written, which keeps the relation as long as its facts read back and its document
is small enough; otherwise the file stays.  Either way the lock file may have been added
and nothing else changes.  The world it leaves depends only on the list computed, so one
world serves every change that computes it. -/
theorem Holds.run_update (placed : Placed s ns name) (holds : Holds s ns w facts) (changed : Bool)
    (facts' : List Fact) (storable : changed = true → ∀ f ∈ facts', f.Storable)
    (small : changed = true → Small facts') :
    ∃ t, Holds s ns { w with tree := t } (if changed then facts' else facts) ∧
      ∀ {α : Type} (change : List Fact → Act (Bool × List Fact × α)) (out : α),
        change facts = pure (changed, facts', out) → (s.update change).run.run w = (.ok out, { w with tree := t }) := by
  cases changed with
  | false =>
    obtain ⟨t₁, holds₁, locked⟩ := holds.update_locked placed
    refine ⟨t₁, holds₁, fun change out computed => ?_⟩
    rw [locked change _ facts' out computed]
    simp only [Bool.false_eq_true, if_false, run_pure]
  | true =>
    obtain ⟨t₁, dirs, lock, updated⟩ := holds.run_update_writes placed facts' (storable rfl)
    refine ⟨t₁.put s.path (.file ⟨documentText (Store.document facts'), 0⟩), ?_, updated⟩
    refine ⟨?_, ?_, holds.free, holds.quiet, Or.inr (by simp [get?_put]), storable rfl, small rfl⟩
    · rw [placed.path]
      exact dirs.put_child placed.plain placed.named _
    · simpa only [get?_put, if_neg placed.lock_ne] using lock

theorem Holds.run_update_unchanged (placed : Placed s ns name) (holds : Holds s ns w facts) :
    ∃ t, Holds s ns { w with tree := t } facts ∧
      ∀ {α : Type} (change : List Fact → Act (Bool × List Fact × α)) (out : α),
        change facts = pure (false, facts, out) → (s.update change).run.run w = (.ok out, { w with tree := t }) :=
  holds.run_update placed false facts (fun unchanged => absurd unchanged Bool.false_ne_true)
    (fun unchanged => absurd unchanged Bool.false_ne_true)

/-- A locked change whose new list holds an instant with no written form is refused: the
store fails with the refusal and its file stays. -/
theorem Holds.run_update_refused (placed : Placed s ns name) (holds : Holds s ns w facts) (facts' : List Fact)
    {problem : String} (refused : (Store.times facts').findSome? Clock.Instant.encodingProblem? = some problem) :
    ∃ t, Holds s ns { w with tree := t } facts ∧
      ∀ {α : Type} (change : List Fact → Act (Bool × List Fact × α)) (out : α),
        change facts = pure (true, facts', out) →
        (s.update change).run.run w = (.error (encodeFailure s.path problem), { w with tree := t }) := by
  obtain ⟨t, holds', locked⟩ := holds.update_locked placed
  refine ⟨t, holds', fun change out computed => ?_⟩
  rw [locked change true facts' out computed]
  simp only [if_true, run_bind, run_writeJsonTimed, refused]

theorem run_load_large (placed : Placed s ns name) (dirs : w.tree.DirsTo ns) {d : FileData}
    (present : w.tree.get? s.path = some (.file d)) (large : maxDocumentBytes < d.size) :
    ∃ msg, s.load.run.run w = (.error ⟨.documentTooLarge, msg⟩, w) := by
  have refused : fetch w.tree s.path = .error ⟨.documentTooLarge,
      "document too large: " ++ s.path ++ " is " ++ toString d.size ++ " bytes"⟩ := by
    rw [placed.path] at present ⊢
    rw [fetch_of_get?_file placed.plain placed.named dirs present, if_pos large]
  simp only [Store.load, readJson, readText, run_bind, run_attempt, run_files, refused, run_fail]
  exact ⟨_, rfl⟩

/-! ## Queries -/

theorem Holds.run_get (placed : Placed s ns name) (holds : Holds s ns w facts) (id : String) :
    (s.get id).run.run w = (.ok (facts.find? (·.id == id)), w) := by
  simp only [Store.get, run_bind, holds.run_load placed, run_pure]

theorem Holds.run_list (placed : Placed s ns name) (holds : Holds s ns w facts) :
    s.list.run.run w = (.ok facts, w) :=
  holds.run_load placed

theorem Holds.run_count (placed : Placed s ns name) (holds : Holds s ns w facts) :
    s.count.run.run w = (.ok facts.length, w) := by
  simp only [Store.count, run_bind, holds.run_load placed, run_pure]

/-! ## Search -/

/-- The query, in lower case, occurs in the lower-cased content of a fact or in one of its
lower-cased tags. -/
def Matches (query : String) (f : Fact) : Bool :=
  Text.containsText (Text.lower f.content) (Text.lower query) ||
    (f.tags.getD []).any (fun t => Text.containsText (Text.lower t) (Text.lower query))

/-- `ranking` lists `hits` most important first, and of two hits in order the first stays
first when it is at least as important. -/
structure RanksByImportance (hits ranking : List Fact) : Prop where
  perm : ranking.Perm hits
  ranked : ranking.Pairwise (fun a b => b.importance ≤ a.importance)
  stable : ∀ a b, List.Sublist [a, b] hits → b.importance ≤ a.importance → List.Sublist [a, b] ranking

theorem importance_trans (a b c : Fact) (hab : decide (a.importance ≥ b.importance) = true)
    (hbc : decide (b.importance ≥ c.importance) = true) : decide (a.importance ≥ c.importance) = true := by
  simp only [decide_eq_true_eq] at *
  omega

theorem importance_total (a b : Fact) :
    (decide (a.importance ≥ b.importance) || decide (b.importance ≥ a.importance)) = true := by
  simp only [Bool.or_eq_true, decide_eq_true_eq]
  omega

theorem ranksByImportance_mergeSort (hits : List Fact) :
    RanksByImportance hits (hits.mergeSort fun a b => decide (a.importance ≥ b.importance)) where
  perm := List.mergeSort_perm _ _
  ranked := by
    have sorted := List.pairwise_mergeSort importance_trans importance_total hits
    simpa only [decide_eq_true_eq, ge_iff_le] using sorted
  stable a b pair tie := List.pair_sublist_mergeSort importance_trans importance_total (by simpa using tie) pair

/-- A search answers the first hits of the facts ranked by importance: at most `limit` of
them, or 10 when the limit is not positive. -/
theorem Holds.run_search (placed : Placed s ns name) (holds : Holds s ns w facts) (query : String) (limit : Int) :
    ∃ ranking, RanksByImportance (facts.filter (Matches query)) ranking ∧
      (s.search query limit).run.run w = (.ok (ranking.take (if limit ≤ 0 then 10 else limit.toNat)), w) := by
  refine ⟨_, ranksByImportance_mergeSort _, ?_⟩
  simp only [Store.search, run_bind, holds.run_load placed, run_pure]
  -- the store matches the lower-cased query as `Matches` does, and its default limit is 10
  rfl

end

end Semantic
end AgentMemory
