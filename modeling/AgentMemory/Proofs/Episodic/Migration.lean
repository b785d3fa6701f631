import Mathlib
import AgentMemory.Proofs.Storage.Run
import AgentMemory.Proofs.Episodic.Documents
import AgentMemory.Proofs.Episodic.Invariant

namespace AgentMemory
namespace Episodic

open Json Storage

/-!
# Reading the index settles it

`Store.readIndex` reads the index document, folds in the flat entries that older tools
wrote, and regenerates the inverted indices when the check of the invariant fails.  Main
statement: `readIndex_settles`.  Whatever document is read, the index read passes the
check, and once written it reads back as itself with nothing left to write.  Its log is
the document's log followed by the folded entries in time order, only the first summary
of each identifier kept when the inverted indices were regenerated, and it is to be
written back exactly when the document had no log, had flat entries, or failed the check.

Reading back needs two things of an index (`Index.Storable`): summaries that read back
(`Summary.Storable`) and inverted indices with strictly increasing keys
(`decode_documentText`).  Reading gives all of it but a written form of the times
(`Index.Readable`): whatever the document, the summaries read have offsets of whole
minutes and 64-bit importance, and the inverted indices read are sorted by key with
each key once (`decode_readable`).
-/

/-! ## One entry for each key -/

section LastPerKey

variable {β : Type}

/-- The keys `lastPerKey` holds after one more entry: the new key is added at the end
unless it is there already. -/
theorem keys_lastPerKey_step (acc : List (String × β)) (kv : String × β) :
    ((if acc.any (·.1 == kv.1) then acc.map (fun x => if x.1 == kv.1 then kv else x) else acc ++ [kv]).map
      Prod.fst) = if kv.1 ∈ acc.map Prod.fst then acc.map Prod.fst else acc.map Prod.fst ++ [kv.1] := by
  by_cases present : kv.1 ∈ acc.map Prod.fst
  · have found : acc.any (·.1 == kv.1) = true := by
      obtain ⟨x, mem, same⟩ := List.mem_map.mp present
      exact List.any_eq_true.mpr ⟨x, mem, by simp [same]⟩
    rw [if_pos found, if_pos present, List.map_map]
    congr 1
    funext x
    by_cases hx : x.1 = kv.1 <;> simp [hx]
  · have missing : acc.any (·.1 == kv.1) = false := by
      rw [List.any_eq_false]
      intro x mem same
      exact present (List.mem_map.mpr ⟨x, mem, by simpa using same⟩)
    rw [if_neg (by simp [missing]), if_neg present, List.map_append]
    rfl

theorem lastPerKey_nodup (xs : List (String × β)) : ((lastPerKey xs).map Prod.fst).Nodup := by
  unfold lastPerKey
  apply List.foldlRecOn (motive := fun acc : List (String × β) => (acc.map Prod.fst).Nodup)
  · exact List.nodup_nil
  · intro acc distinct kv _
    rw [keys_lastPerKey_step]
    split
    · exact distinct
    · rename_i fresh
      rw [List.nodup_append]
      refine ⟨distinct, List.nodup_cons.mpr ⟨List.not_mem_nil, List.nodup_nil⟩, ?_⟩
      intro a mem b single same
      rw [List.mem_singleton] at single
      subst single same
      exact fresh mem

/-- A fold that appends each element whose key it has not met yet, started from a list
whose keys together with the rest are distinct, appends them all. -/
theorem foldl_of_fresh {α : Type} (key : α → String) {step : List α → α → List α}
    (fresh : ∀ acc a, key a ∉ acc.map key → step acc a = acc ++ [a]) :
    ∀ (ys acc : List α), ((acc ++ ys).map key).Nodup → ys.foldl step acc = acc ++ ys := by
  intro ys
  induction ys with
  | nil => simp
  | cons y ys ih =>
    intro acc distinct
    have unseen : key y ∉ acc.map key := by
      rw [List.map_append, List.nodup_append] at distinct
      exact fun seen => distinct.2.2 _ seen _ (by simp) rfl
    rw [List.foldl_cons, fresh acc y unseen, ih (acc ++ [y]) (by simpa using distinct)]
    simp

theorem lastPerKey_of_nodup {xs : List (String × β)} (keys : (xs.map Prod.fst).Nodup) :
    lastPerKey xs = xs := by
  have appends : ∀ (acc : List (String × β)) (kv : String × β), kv.1 ∉ acc.map Prod.fst →
      (if acc.any (·.1 == kv.1) then acc.map (fun x => if x.1 == kv.1 then kv else x) else acc ++ [kv]) =
        acc ++ [kv] := by
    intro acc kv unseen
    rw [if_neg]
    simpa [List.any_eq_true] using unseen
  exact foldl_of_fresh Prod.fst appends xs [] (by simpa using keys)

end LastPerKey

/-! ## What reading gives -/

/-- What every summary read from a document has of a storable one: an offset of whole
minutes and a 64-bit importance. -/
structure Summary.Readable (s : Summary) : Prop where
  minutes : s.timestamp.offset % 60 = 0
  importance : Fits64 s.importance

theorem Summary.Readable.storable {s : Summary} (readable : s.Readable) (writable : s.timestamp.writable) :
    s.Storable :=
  ⟨writable, readable.minutes, readable.importance⟩

theorem Summary.read_readable {j : Json} {s : Summary} (read : Summary.read j = .ok s) : s.Readable := by
  refine readRecord_keeps Summary.Readable ⟨rfl, by decide⟩ ?_ read
  intro f mem v x y held step
  simp only [List.mem_cons, List.mem_nil_iff, or_false] at mem
  rcases mem with rfl | rfl | rfl | rfl | rfl | rfl | rfl
  · obtain ⟨a, -, rfl⟩ := except_map_eq_ok step
    exact ⟨held.minutes, held.importance⟩
  · obtain ⟨t, field, rfl⟩ := except_map_eq_ok step
    exact ⟨readInstant_minutes field held.minutes, held.importance⟩
  · obtain ⟨a, -, rfl⟩ := except_map_eq_ok step
    exact ⟨held.minutes, held.importance⟩
  · obtain ⟨a, -, rfl⟩ := except_map_eq_ok step
    exact ⟨held.minutes, held.importance⟩
  · obtain ⟨a, -, rfl⟩ := except_map_eq_ok step
    exact ⟨held.minutes, held.importance⟩
  · obtain ⟨n, field, rfl⟩ := except_map_eq_ok step
    exact ⟨held.minutes, readInt_fits field held.importance⟩
  · obtain ⟨a, -, rfl⟩ := except_map_eq_ok step
    exact ⟨held.minutes, held.importance⟩

@[simp] theorem mem_sortSummaries {s : Summary} {xs : List Summary} : s ∈ sortSummaries xs ↔ s ∈ xs :=
  (List.mergeSort_perm xs _).mem_iff

namespace Index

theorem FlatEntry.read_importance {j : Json} {e : FlatEntry} (read : FlatEntry.read j = .ok e) :
    ∀ n ∈ e.importance, Fits64 n := by
  refine readRecord_keeps (fun e : FlatEntry => ∀ n ∈ e.importance, Fits64 n) (fun n absent => by cases absent)
    ?_ read
  intro f mem v x y held step
  simp only [List.mem_cons, List.mem_nil_iff, or_false] at mem
  rcases mem with rfl | rfl | rfl | rfl | rfl | rfl
  · obtain ⟨a, -, rfl⟩ := except_map_eq_ok step
    exact held
  · obtain ⟨a, -, rfl⟩ := except_map_eq_ok step
    exact held
  · obtain ⟨a, -, rfl⟩ := except_map_eq_ok step
    exact held
  · obtain ⟨o, field, rfl⟩ := except_map_eq_ok step
    exact readOptInt_fits field
  · obtain ⟨a, -, rfl⟩ := except_map_eq_ok step
    exact held
  · obtain ⟨a, -, rfl⟩ := except_map_eq_ok step
    exact held

/-- The summary of a flat entry is readable: its time is read in UTC or is the zero
instant, and its importance is the entry's or the default. -/
theorem FlatEntry.summary_readable {e : FlatEntry} (fits : ∀ n ∈ e.importance, Fits64 n) (id : String) :
    (e.summary id).Readable := by
  constructor
  · show (parseTimestamp e.timestamp).offset % 60 = 0
    unfold parseTimestamp
    cases found : Clock.Instant.parseFirst timestampLayouts e.timestamp with
    | none => rfl
    | some t => simp [Clock.Instant.parseFirst_offset found]
  · show Fits64 (e.importance.getD defaultImportance)
    cases imp : e.importance with
    | none => decide
    | some n => exact fits n imp

theorem flatSummaries_readable (top : List (String × Json)) (known : List String) :
    ∀ s ∈ flatSummaries top known, s.Readable := by
  intro s mem
  obtain ⟨kv, -, made⟩ := List.mem_filterMap.mp mem
  split at made
  · cases made
  · split at made
    · cases made
    · rename_i e read
      cases made
      exact FlatEntry.summary_readable (FlatEntry.read_importance read) kv.1

theorem readRefs_keysSorted {j : Json} {m : List (String × List String)} (read : readRefs j = .ok (some m)) :
    KeysSorted m := by
  unfold readRefs at read
  split at read
  · cases read
  · dsimp only at read
    split at read
    · cases read
    · cases read
      apply keysSorted_mergeSort
      exact lastPerKey_nodup _
  · cases read

end Index

/-- What every index read from a document has: readable summaries, and inverted indices
with strictly increasing keys. -/
structure Index.Readable (idx : Index) : Prop where
  summaries : ∀ s ∈ idx.episodes, s.Readable
  tagKeys : KeysSorted idx.tags
  projectKeys : KeysSorted idx.projects

namespace Index

theorem reindex_readable {idx : Index} (summaries : ∀ s ∈ idx.episodes, s.Readable) : idx.reindex.Readable := by
  obtain ⟨exact, log⟩ := exact_reindex idx
  obtain ⟨-, kept, -⟩ := firstById_spec idx.episodes
  refine ⟨fun s mem => ?_, exact.tagKeys, exact.projectKeys⟩
  rw [log] at mem
  exact summaries s (kept s mem)

theorem structured_readable {top : List (String × Json)} {base : Index} (read : structured top = .ok base) :
    base.Readable := by
  unfold structured at read
  split at read
  · cases read
    exact ⟨fun s mem => (by cases mem), List.Pairwise.nil, List.Pairwise.nil⟩
  · obtain ⟨eps, readEps, rest⟩ := except_bind_eq_ok read
    have summaries : ∀ s ∈ eps.getD [], s.Readable := by
      cases eps with
      | none =>
        intro s mem
        cases mem
      | some xs =>
        intro s mem
        obtain ⟨v, readOne⟩ := readList_mem (except_mapError_eq_ok readEps) s mem
        exact Summary.read_readable readOne
    have sorted : ∀ {t : Json} {task : String} {m : Option (List (String × List String))},
        (readRefs t).mapError (Failure.within task) = .ok m → KeysSorted (m.getD []) := by
      intro t task m read
      cases m with
      | none => exact List.Pairwise.nil
      | some m => exact readRefs_keysSorted (except_mapError_eq_ok read)
    dsimp only at rest
    split at rest
    · obtain ⟨tags, readTags, rest⟩ := except_bind_eq_ok rest
      split at rest
      · obtain ⟨projects, readProjects, rest⟩ := except_bind_eq_ok rest
        cases rest
        exact ⟨summaries, sorted readTags, sorted readProjects⟩
      · cases rest
        exact ⟨summaries, sorted readTags, List.Pairwise.nil⟩
    · simp only [except_pure, except_ok_bind] at rest
      split at rest
      · obtain ⟨projects, readProjects, rest⟩ := except_bind_eq_ok rest
        cases rest
        exact ⟨summaries, List.Pairwise.nil, sorted readProjects⟩
      · cases rest
        exact ⟨summaries, List.Pairwise.nil, List.Pairwise.nil⟩

/-- What decoding does: it takes the members of the document and its structured part, and
when there are flat entries it folds them into the log and regenerates the inverted
indices. -/
theorem decode_cases {d : String} {decoded : Index} {migrated : Bool} (read : decode d = .ok (decoded, migrated)) :
    ∃ top base, documentMembers d = .ok top ∧ structured top = .ok base ∧
      if (flatSummaries top base.ids).isEmpty then
        decoded = base ∧ migrated = (member? top "episodes").isNone
      else
        decoded = { base with episodes := base.episodes ++ sortSummaries (flatSummaries top base.ids) }.reindex ∧
          migrated = true := by
  unfold decode at read
  obtain ⟨top, members, rest⟩ := except_bind_eq_ok read
  obtain ⟨base, built, rest⟩ := except_bind_eq_ok rest
  refine ⟨top, base, members, built, ?_⟩
  dsimp only at rest
  split at rest
  · rename_i none
    rw [if_pos none]
    cases rest
    simp
  · rename_i some
    rw [if_neg some]
    cases rest
    simp

/-- Whatever the document, the index decoded from it is readable. -/
theorem decode_readable {d : String} {decoded : Index} {migrated : Bool} (read : decode d = .ok (decoded, migrated)) :
    decoded.Readable := by
  obtain ⟨top, base, -, built, folded⟩ := decode_cases read
  have readable := structured_readable built
  split at folded
  · obtain ⟨rfl, -⟩ := folded
    exact readable
  · obtain ⟨rfl, -⟩ := folded
    apply reindex_readable
    intro s mem
    rcases List.mem_append.mp mem with old | new
    · exact readable.summaries s old
    · exact flatSummaries_readable top base.ids s (mem_sortSummaries.mp new)

theorem settle_consistent (idx : Index) (migrated : Bool) : (idx.settle migrated).1.consistent = true := by
  unfold settle
  split
  · assumption
  · exact (exact_reindex idx).1.consistent

theorem settle_readable {idx : Index} (readable : idx.Readable) (migrated : Bool) :
    (idx.settle migrated).1.Readable := by
  unfold settle
  split
  · exact readable
  · exact reindex_readable readable.summaries

/-- Logging a readable summary keeps an index readable. -/
theorem Readable.add {idx : Index} (readable : idx.Readable) {s : Summary} (summary : s.Readable) :
    (idx.add s).Readable where
  summaries x mem := by
    rcases List.mem_append.mp mem with old | added
    · exact readable.summaries x old
    · rw [List.mem_singleton.mp added]
      exact summary
  tagKeys := keysSorted_addRefs readable.tagKeys _ _
  projectKeys := keysSorted_addRef readable.projectKeys _ _

theorem settle_of_consistent {idx : Index} (consistent : idx.consistent = true) (migrated : Bool) :
    idx.settle migrated = (idx, migrated) := by
  simp [settle, consistent]

end Index

/-! ## Reading back -/

/-- An index whose document reads back as itself: summaries that read back, and inverted
indices with strictly increasing keys. -/
structure Index.Storable (idx : Index) : Prop where
  summaries : ∀ s ∈ idx.episodes, s.Storable
  tagKeys : KeysSorted idx.tags
  projectKeys : KeysSorted idx.projects

theorem Index.Readable.storable {idx : Index} (readable : idx.Readable)
    (encodable : ∀ s ∈ idx.episodes, s.timestamp.writable) : idx.Storable :=
  ⟨fun s mem => (readable.summaries s mem).storable (encodable s mem), readable.tagKeys, readable.projectKeys⟩

theorem Summary.integral_toJson (s : Summary) : Integral s.toJson :=
  ⟨trivial, trivial, trivial, trivial, trivial, integral_ofInt _, integral_ofStrings _, trivial⟩

namespace Index

theorem integral_refsJson (m : List (String × List String)) : Integral (refsJson m) :=
  fieldsIntegral_map _ m (fun kv _ => integral_ofStrings (some kv.2))

theorem integral_toJson (idx : Index) : Integral idx.toJson :=
  ⟨itemsIntegral_map _ _ (fun s _ => s.integral_toJson), integral_refsJson idx.tags,
    integral_refsJson idx.projects, trivial⟩

theorem readRefs_refsJson {m : List (String × List String)} (sorted : KeysSorted m) :
    readRefs (refsJson m) = .ok (some m) := by
  have back : ∀ l, readStrings (ofStrings l) = .ok (some l) := fun l => readStrings_ofStrings (some l)
  have kept : lastPerKey m = m := lastPerKey_of_nodup sorted.nodup
  have ordered : m.mergeSort (fun a b => decide (a.1 ≤ b.1)) = m := by
    apply List.mergeSort_of_pairwise
    unfold KeysSorted at sorted
    rw [List.pairwise_map] at sorted
    exact sorted.imp fun lt => by simpa using le_of_lt lt
  -- every list reads back, so no member fails and every key keeps its list
  simp [readRefs, refsJson, Function.comp_def, back, List.find?_map, List.filterMap_map]
  rw [kept, ordered]

/-- The document of a storable index reads back as the index, with nothing to write. -/
theorem decode_documentText {idx : Index} (storable : idx.Storable) :
    decode (documentText idx.toJson) = .ok (idx, false) := by
  have parsed : parseDocument (documentText idx.toJson) = .ok idx.toJson :=
    parseDocument_indented _ (integral_toJson idx).spelled
  have log : readList Summary.read "[]episodic.Summary" (.arr (idx.episodes.map Summary.toJson)) =
      .ok (some idx.episodes) :=
    readList_map _ _ (fun s mem => Summary.read_toJson s (storable.summaries s mem))
  have members : documentMembers (documentText idx.toJson) =
      .ok [("episodes", .arr (idx.episodes.map Summary.toJson)), ("tags", refsJson idx.tags),
        ("projects", refsJson idx.projects)] := by
    unfold documentMembers
    rw [parsed]
    simp only [Except.mapError, except_ok_bind, toJson, except_pure]
    exact congrArg Except.ok (lastPerKey_of_nodup (by simp only [List.map_cons, List.map_nil]; decide))
  have built : structured [("episodes", .arr (idx.episodes.map Summary.toJson)), ("tags", refsJson idx.tags),
      ("projects", refsJson idx.projects)] = .ok idx := by
    simp [structured, member?, log, readRefs_refsJson storable.tagKeys, readRefs_refsJson storable.projectKeys,
      Except.mapError]
  have flat : flatSummaries [("episodes", .arr (idx.episodes.map Summary.toJson)), ("tags", refsJson idx.tags),
      ("projects", refsJson idx.projects)] idx.ids = [] := by
    have episodes : "ep-".isPrefixOf "episodes" = false := by decide +kernel
    have tags : "ep-".isPrefixOf "tags" = false := by decide +kernel
    have projects : "ep-".isPrefixOf "projects" = false := by decide +kernel
    simp [flatSummaries, episodes, tags, projects]
  simp [decode, members, built, flat, member?]

theorem documentText_obj_not_blank {fs : List (String × Json)} (nonempty : fs ≠ []) :
    Text.isBlankText (documentText (.obj fs)) = false := by
  have opens := @toList_indentedAt_obj .document 0 fs nonempty
  have brace : Text.isBlank '{' = false := by decide
  simp only [Text.isBlankText, documentText, indented, String.toList_append, opens, List.cons_append,
    List.all_cons, brace, Bool.false_and]

theorem documentText_not_blank (idx : Index) : Text.isBlankText (documentText idx.toJson) = false :=
  documentText_obj_not_blank (by simp)

end Index

/-! ## Reading the index -/

namespace Store

/-- Reading a present index file that is not blank gives the settled decoding of its
text. -/
theorem readIndex_value (s : Store) (w : World) {d : String} (file : fetch w.tree s.indexPath = .ok (some d))
    (text : Text.isBlankText d = false) :
    (s.readIndex.run.run w).1 = (Index.decode d).map fun r => r.1.settle r.2 := by
  cases decoded : Index.decode d with
  | error e =>
    simp only [readIndex, run_bind, run_files, file, run_pure, text, Bool.false_eq_true, if_false, decoded,
      run_fail, Except.map]
  | ok r =>
    obtain ⟨idx, migrated⟩ := r
    simp only [readIndex, run_bind, run_files, file, run_pure, text, Bool.false_eq_true, if_false, decoded]
    -- what is logged on the way does not change the value
    obtain ⟨w1, info⟩ := run_emit s.log .info "migrated legacy episode index"
      [.int "episodes" idx.episodes.length] w
    obtain ⟨w2, warnAfter⟩ := run_emit s.log .warn "episode index inconsistent, regenerating inverted indices" [] w1
    obtain ⟨w3, warn⟩ := run_emit s.log .warn "episode index inconsistent, regenerating inverted indices" [] w
    split <;> split <;> simp only [run_bind, run_pure, info, warnAfter, warn, Except.map]

/-- Reading the index settles it for good.  The index read passes the check of the
invariant, and written and read again it gives itself with nothing to write.  Its log is
the document's log followed by the flat entries folded in, only the first summary of
each identifier kept when the inverted indices were regenerated; it is to be written
back exactly when the document had no log, had flat entries, or failed the check. -/
theorem readIndex_settles (s : Store) (w : World) {d : String} {idx : Index} {needsWrite : Bool}
    (file : fetch w.tree s.indexPath = .ok (some d)) (text : Text.isBlankText d = false)
    (read : (s.readIndex.run.run w).1 = .ok (idx, needsWrite))
    (encodable : ∀ e ∈ idx.episodes, e.timestamp.writable) :
    idx.consistent = true ∧
      (∀ w' : World, fetch w'.tree s.indexPath = .ok (some (documentText idx.toJson)) →
        (s.readIndex.run.run w').1 = .ok (idx, false)) ∧
      ∃ top base, Index.documentMembers d = .ok top ∧ Index.structured top = .ok base ∧
        let folded := Index.flatSummaries top base.ids
        let regenerated := !folded.isEmpty || !base.consistent
        idx.episodes = (if regenerated then firstById (base.episodes ++ sortSummaries folded)
          else base.episodes ++ sortSummaries folded) ∧
        needsWrite = ((Index.member? top "episodes").isNone || regenerated) := by
  rw [readIndex_value s w file text] at read
  obtain ⟨⟨decoded, migrated⟩, decodedOk, settled⟩ := except_map_eq_ok read
  have consistent : idx.consistent = true := by
    have settles := Index.settle_consistent decoded migrated
    rwa [settled] at settles
  have readable : idx.Readable := by
    have settles := Index.settle_readable (Index.decode_readable decodedOk) migrated
    rwa [settled] at settles
  refine ⟨consistent, ?_, ?_⟩
  · intro w' written
    rw [readIndex_value s w' written (Index.documentText_not_blank idx),
      Index.decode_documentText (readable.storable encodable)]
    simp only [Except.map, Index.settle_of_consistent consistent]
  · obtain ⟨top, base, members, built, folded⟩ := Index.decode_cases decodedOk
    refine ⟨top, base, members, built, ?_⟩
    split at folded
    · rename_i noFlat
      obtain ⟨rfl, rfl⟩ := folded
      have none : Index.flatSummaries top decoded.ids = [] := List.isEmpty_iff.mp noFlat
      unfold Index.settle at settled
      split at settled
      · rename_i passes
        cases settled
        simp [none, passes, sortSummaries]
      · rename_i fails
        cases settled
        simp [none, fails, sortSummaries, (Index.exact_reindex decoded).2]
    · rename_i someFlat
      obtain ⟨rfl, rfl⟩ := folded
      rw [Index.settle_of_consistent (Index.exact_reindex _).1.consistent] at settled
      cases settled
      simp [someFlat, (Index.exact_reindex _).2]

/-- An index on disk as its own document, passing the check of the invariant, is read as
itself with nothing to write, and reading it logs nothing. -/
theorem run_readIndex_stored (s : Store) (w : World) {idx : Index}
    (file : fetch w.tree s.indexPath = .ok (some (documentText idx.toJson))) (storable : idx.Storable)
    (consistent : idx.consistent = true) :
    s.readIndex.run.run w = (.ok (idx, false), w) := by
  simp only [readIndex, run_bind, run_files, file, run_pure, Index.documentText_not_blank, Bool.false_eq_true,
    if_false, Index.decode_documentText storable, consistent, Bool.not_true, Index.settle_of_consistent consistent]

theorem run_summaries_stored (s : Store) (w : World) {idx : Index}
    (file : fetch w.tree s.indexPath = .ok (some (documentText idx.toJson))) (storable : idx.Storable)
    (consistent : idx.consistent = true) :
    s.summaries.run.run w = (.ok idx.episodes, w) := by
  simp only [summaries, loadIndex, run_bind, run_readIndex_stored s w file storable consistent, Bool.not_false,
    if_true, run_pure]

end Store

/-- A store at `/m`. -/
def legacyStore : Store := { dir := "/m" }

/-- An index document of an older tool: a log that holds `ep-a` twice, a tag list naming
an episode the log lacks and no project lists, a flat entry beside the log dated by day
only and written twice, a flat entry under an identifier the log holds, and a member of
another kind. -/
def legacyDocument : Json :=
  .obj [("episodes", .arr [
      .obj [("episode_id", .str "ep-a"), ("timestamp", .str "2025-01-02T09:00:00Z"), ("task", .str "deploy"),
        ("project", .str "core"), ("success", .bool true), ("importance", .num "7"), ("tags", .arr [.str "ops"])],
      .obj [("episode_id", .str "ep-a"), ("timestamp", .str "2025-01-03T09:00:00Z"), ("task", .str "redeploy"),
        ("project", .str "core"), ("importance", .num "3")]]),
    ("tags", .obj [("ops", .arr [.str "ep-a", .str "ep-z"])]),
    ("ep-b", .obj [("task", .str "fix tests")]),
    ("ep-a", .obj [("task", .str "shadowed")]),
    ("notes", .num "3"),
    ("ep-b", .obj [("task", .str "fix build"), ("tags", .arr [.str "ops"]), ("success", .bool true),
      ("timestamp", .str "2025-01-01"), ("project", .str "core")])]

/-- A world whose index file holds the older document. -/
def legacyWorld : World :=
  { tree := ⟨[("/", .dir), ("/m", .dir), ("/m/index.json", .file ⟨documentText legacyDocument, 0⟩)]⟩,
    now := Clock.Instant.zero }

/-- The index the older document stands for: the first `ep-a` of the log, then the flat
`ep-b` as last written, with the inverted indices rebuilt from the two. -/
def legacySettled : Index :=
  { episodes :=
      [ { id := "ep-a", timestamp := Clock.Instant.ofCivil 2025 1 2 9 0 0, task := "deploy", project := "core",
          success := true, importance := 7, tags := some ["ops"] },
        { id := "ep-b", timestamp := Clock.Instant.ofCivil 2025 1 1 0 0 0, task := "fix build", project := "core",
          success := true, importance := defaultImportance, tags := some ["ops"] } ],
    tags := [("ops", ["ep-a", "ep-b"])],
    projects := [("core", ["ep-a", "ep-b"])] }

theorem spelled_legacyDocument : Spelled legacyDocument := by
  have seven : NumberText "7".toList := numberText_toString 7
  have three : NumberText "3".toList := numberText_toString 3
  simp only [legacyDocument, Spelled, ItemsSpelled, FieldsSpelled, seven, three, and_true]

theorem readIndex_settles_legacy :
    fetch legacyWorld.tree legacyStore.indexPath = .ok (some (documentText legacyDocument)) ∧
      Text.isBlankText (documentText legacyDocument) = false ∧
      (legacyStore.readIndex.run.run legacyWorld).1 = .ok (legacySettled, true) ∧
      (legacySettled.consistent = true ∧
        (∀ w' : World, fetch w'.tree legacyStore.indexPath = .ok (some (documentText legacySettled.toJson)) →
          (legacyStore.readIndex.run.run w').1 = .ok (legacySettled, false)) ∧
        ∃ top base, Index.documentMembers (documentText legacyDocument) = .ok top ∧ Index.structured top = .ok base ∧
          let folded := Index.flatSummaries top base.ids
          let regenerated := !folded.isEmpty || !base.consistent
          legacySettled.episodes = (if regenerated then firstById (base.episodes ++ sortSummaries folded)
            else base.episodes ++ sortSummaries folded) ∧
          true = ((Index.member? top "episodes").isNone || regenerated)) := by
  have file : fetch legacyWorld.tree legacyStore.indexPath = .ok (some (documentText legacyDocument)) := by
    decide +kernel
  have text : Text.isBlankText (documentText legacyDocument) = false :=
    Index.documentText_obj_not_blank (by simp)
  -- the text is read back by the round trip of the writer, the rest is evaluated
  have read : (legacyStore.readIndex.run.run legacyWorld).1 = .ok (legacySettled, true) := by
    rw [Store.readIndex_value legacyStore legacyWorld file text]
    unfold Index.decode Index.documentMembers
    rw [documentText, parseDocument_indented legacyDocument spelled_legacyDocument]
    decide +kernel
  have encodable : ∀ e ∈ legacySettled.episodes, e.timestamp.writable := by decide +kernel
  exact ⟨file, text, read, Store.readIndex_settles legacyStore legacyWorld file text read encodable⟩

end Episodic
end AgentMemory
