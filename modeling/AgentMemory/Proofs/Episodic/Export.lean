import AgentMemory.Proofs.Episodic.Layout

namespace AgentMemory
namespace Episodic

open Json Storage Disk Tree

/-!
# The flat export read back

`Store.exportLegacy` writes, for older tools, the flat document that maps the identifiers of
the newest summaries to their entries; reading such a document as an index folds every entry
back into the log.  Main statement: `Store.exportLegacy_reads_back`.  From a consistent index
on disk whose identifiers are distinct and start with `ep-`, whose tasks need no cut and whose
times have a written form, an export of `n ≥ 1` entries reports the smaller of `n` and the
length of the log, and the document it writes decodes, as a migration, to the index whose
log is the `n` newest summaries ordered by time and identifier, each with its time in UTC and
every other field as it was, and whose inverted indices are exactly those of that log.

Two facts carry it.  A flat entry reads back as its summary in UTC (`Summary.flatEntry_summary`),
and summaries with distinct identifiers have one order by time and identifier whatever order
they come in (`sortSummaries_eq_of_perm`): the export writes them in the order of their
identifiers, and decoding sorts them again.
-/

/-! ## One order by time and identifier -/

theorem Summary.precedes_iff {a b : Summary} :
    a.precedes b = true ↔ a.timestamp.nanos < b.timestamp.nanos ∨
      (a.timestamp.nanos = b.timestamp.nanos ∧ a.id ≤ b.id) := by
  unfold Summary.precedes Clock.Instant.same Clock.Instant.before
  by_cases same : a.timestamp.nanos = b.timestamp.nanos
  · simp [same]
  · simp [same]

theorem Summary.precedes_trans {a b c : Summary} (ab : a.precedes b = true) (bc : b.precedes c = true) :
    a.precedes c = true := by
  rw [Summary.precedes_iff] at ab bc ⊢
  rcases ab with ab | ⟨ab, abId⟩ <;> rcases bc with bc | ⟨bc, bcId⟩
  · exact Or.inl (by omega)
  · exact Or.inl (by omega)
  · exact Or.inl (by omega)
  · exact Or.inr ⟨by omega, le_trans abId bcId⟩

theorem Summary.precedes_total (a b : Summary) : (a.precedes b || b.precedes a) = true := by
  rw [Bool.or_eq_true, Summary.precedes_iff, Summary.precedes_iff]
  rcases lt_trichotomy a.timestamp.nanos b.timestamp.nanos with lt | same | gt
  · exact Or.inl (Or.inl lt)
  · rcases le_total a.id b.id with le | ge
    · exact Or.inl (Or.inr ⟨same, le⟩)
    · exact Or.inr (Or.inr ⟨same.symm, ge⟩)
  · exact Or.inr (Or.inl gt)

theorem Summary.id_eq_of_precedes {a b : Summary} (ab : a.precedes b = true) (ba : b.precedes a = true) :
    a.id = b.id := by
  rw [Summary.precedes_iff] at ab ba
  rcases ab with ab | ⟨ab, abId⟩ <;> rcases ba with ba | ⟨ba, baId⟩
  · exact absurd ab (by omega)
  · exact absurd ab (by omega)
  · exact absurd ab (by omega)
  · exact le_antisymm abId baId

theorem pairwise_sortSummaries (xs : List Summary) :
    (sortSummaries xs).Pairwise (fun a b => a.precedes b = true) :=
  @List.pairwise_mergeSort _ Summary.precedes (fun _ _ _ => Summary.precedes_trans) Summary.precedes_total xs

/-- Summaries with distinct identifiers have one order by time and identifier: sorting any
arrangement of them gives the same log. -/
theorem sortSummaries_eq_of_perm {xs ys : List Summary} (perm : xs.Perm ys) (distinct : (xs.map (·.id)).Nodup) :
    sortSummaries xs = sortSummaries ys := by
  have arranged : (sortSummaries xs).Perm (sortSummaries ys) :=
    (List.mergeSort_perm xs _).trans (perm.trans (List.mergeSort_perm ys _).symm)
  refine List.Perm.eq_of_pairwise ?_ (pairwise_sortSummaries xs) (pairwise_sortSummaries ys) arranged
  intro a b memA memB ab ba
  have inA : a ∈ xs := mem_sortSummaries.mp memA
  have inB : b ∈ xs := perm.mem_iff.mpr (mem_sortSummaries.mp memB)
  exact List.inj_on_of_nodup_map distinct inA inB (Summary.id_eq_of_precedes ab ba)

theorem firstById_of_nodup {xs : List Summary} (distinct : (xs.map (·.id)).Nodup) : firstById xs = xs := by
  have appends : ∀ (acc : List Summary) (s : Summary), s.id ∉ acc.map (·.id) →
      (if acc.any (·.id == s.id) then acc else acc ++ [s]) = acc ++ [s] := by
    intro acc s unseen
    rw [if_neg]
    simpa [List.any_eq_true] using unseen
  exact foldl_of_fresh (·.id) appends xs [] (by simpa using distinct)

/-! ## Flat entries -/

/-- A summary with its time in UTC: what a flat entry keeps of it. -/
def Summary.inUtc (sum : Summary) : Summary := { sum with timestamp := sum.timestamp.utc }

@[simp] theorem Summary.id_inUtc (sum : Summary) : sum.inUtc.id = sum.id := rfl

/-- A time written as RFC 3339 text is read by the layouts of older tools as the same
instant in UTC. -/
theorem parseTimestamp_rfc3339 {t : Clock.Instant} (writable : t.writable) (minutes : t.offset % 60 = 0) :
    parseTimestamp t.rfc3339 = t.utc := by
  have first : (Clock.Instant.rfc3339Layout == Clock.Instant.rfc3339Layout) = true := by decide +kernel
  simp [parseTimestamp, timestampLayouts, Clock.Instant.parseFirst, first,
    Clock.Instant.parseRfc3339_rfc3339 t writable minutes]

theorem Summary.integral_flatJson (sum : Summary) : Integral sum.flatJson :=
  ⟨trivial, integral_ofStrings _, trivial, integral_ofInt _, trivial, trivial, trivial⟩

theorem Summary.read_flatJson (sum : Summary) (fits : Fits64 sum.importance) :
    Index.FlatEntry.read sum.flatJson =
      .ok { task := sum.task, tags := sum.tags, success := sum.success, importance := some sum.importance,
            timestamp := sum.timestamp.rfc3339, project := sum.project } := by
  have importance : readOptInt (ofInt sum.importance) = .ok (some sum.importance) :=
    readOptInt_optJson (some sum.importance) (by simpa using fits)
  simp only [Index.FlatEntry.read, Summary.flatJson]
  refine (readRecord_cons rfl rfl).trans ?_
  refine (readRecord_cons rfl (by simp [readStrings_ofStrings]; rfl)).trans ?_
  refine (readRecord_cons rfl rfl).trans ?_
  refine (readRecord_cons rfl (by simp [importance]; rfl)).trans ?_
  refine (readRecord_cons rfl rfl).trans ?_
  refine (readRecord_cons rfl rfl).trans ?_
  rfl

/-- The flat entry of a summary reads back as the summary in UTC, when its task needs no
cut. -/
theorem Summary.flatEntry_summary {sum : Summary} (storable : sum.Storable)
    (short : sum.task.length ≤ summaryTaskLength) :
    (Index.FlatEntry.read sum.flatJson).map (·.summary sum.id) = .ok sum.inUtc := by
  rw [Summary.read_flatJson sum storable.importance]
  simp [Except.map, Index.FlatEntry.summary, Summary.inUtc,
    parseTimestamp_rfc3339 storable.writable storable.minutes, truncate, short]

namespace Index

/-- The flat entries of a document written from summaries with `ep-` identifiers are those
summaries in UTC, in the order written. -/
theorem flatSummaries_flatJson {xs : List Summary} (named : ∀ sum ∈ xs, "ep-".isPrefixOf sum.id = true)
    (storable : ∀ sum ∈ xs, sum.Storable) (short : ∀ sum ∈ xs, sum.task.length ≤ summaryTaskLength) :
    flatSummaries (xs.map fun sum => (sum.id, sum.flatJson)) [] = xs.map Summary.inUtc := by
  induction xs with
  | nil => rfl
  | cons sum xs ih =>
    have rest := ih (fun s mem => named s (List.mem_cons_of_mem _ mem))
      (fun s mem => storable s (List.mem_cons_of_mem _ mem)) (fun s mem => short s (List.mem_cons_of_mem _ mem))
    obtain ⟨e, read, back⟩ := except_map_eq_ok
      (Summary.flatEntry_summary (storable sum List.mem_cons_self) (short sum List.mem_cons_self))
    unfold flatSummaries at rest ⊢
    rw [List.map_cons, List.filterMap_cons, rest]
    simp [named sum List.mem_cons_self, read, back]

/-- A flat document of summaries with distinct `ep-` identifiers is a document to migrate:
it decodes to the index regenerated from those summaries in UTC, sorted by time and
identifier. -/
theorem decode_flat {xs : List Summary} (named : ∀ sum ∈ xs, "ep-".isPrefixOf sum.id = true)
    (distinct : (xs.map (·.id)).Nodup) (storable : ∀ sum ∈ xs, sum.Storable)
    (short : ∀ sum ∈ xs, sum.task.length ≤ summaryTaskLength) :
    decode (documentText (.obj (xs.map fun sum => (sum.id, sum.flatJson)))) =
      .ok (({ episodes := sortSummaries (xs.map Summary.inUtc) } : Index).reindex, true) := by
  have parsed : parseDocument (documentText (.obj (xs.map fun sum => (sum.id, sum.flatJson)))) =
      .ok (.obj (xs.map fun sum => (sum.id, sum.flatJson))) :=
    parseDocument_indented _ (fieldsIntegral_map _ xs fun sum _ => sum.integral_flatJson).spelled
  have members : documentMembers (documentText (.obj (xs.map fun sum => (sum.id, sum.flatJson)))) =
      .ok (xs.map fun sum => (sum.id, sum.flatJson)) := by
    unfold documentMembers
    rw [parsed]
    simp only [Except.mapError, except_ok_bind, except_pure]
    exact congrArg Except.ok (lastPerKey_of_nodup (by simpa [List.map_map, Function.comp_def] using distinct))
  have noLog : member? (xs.map fun sum => (sum.id, sum.flatJson)) "episodes" = none := by
    have notFlat : "ep-".isPrefixOf "episodes" = false := by decide +kernel
    simp only [member?, Option.map_eq_none_iff, List.find?_eq_none, List.mem_map]
    rintro _ ⟨sum, mem, rfl⟩ same
    have name := named sum mem
    simp only [beq_iff_eq] at same
    rw [same, notFlat] at name
    cases name
  have built : structured (xs.map fun sum => (sum.id, sum.flatJson)) = .ok {} := by
    simp [structured, noLog]
  have folded := flatSummaries_flatJson named storable short
  unfold decode
  rw [members]
  simp only [except_ok_bind]
  rw [built]
  simp only [except_ok_bind]
  rw [show ({} : Index).ids = [] from rfl, folded]
  cases xs with
  | nil => simp [member?, sortSummaries, reindex, firstById]
  | cons sum rest => simp

end Index

/-! ## The export -/

/-- Where an export can run: the store's directory exists, its index file holds the document
of `idx` within the size the store reads, no one holds the lock and nothing keeps the lock
or the exported file from being put in place. -/
structure Exporting (s : Store) (ns : List String) (w : World) (idx : Index) : Prop where
  plain : ∀ n ∈ ns, Plain n
  dir : s.dir = pathOf ns
  dirs : w.tree.DirsTo ns
  lock : w.tree.get? (pathOf (ns ++ ["index.json.lock"])) ≠ some .dir
  free : w.held.contains s.indexPath = false
  quiet : w.sink = none
  index : w.tree.get? (pathOf (ns ++ ["index.json"])) = some (.file ⟨documentText idx.toJson, 0⟩)
  small : (⟨documentText idx.toJson, 0⟩ : FileData).size ≤ maxDocumentBytes
  legacy : w.tree.get? (pathOf (ns ++ ["legacy-index.json"])) ≠ some .dir

theorem Exporting.fetch_index {s : Store} {ns : List String} {w : World} {idx : Index} (env : Exporting s ns w idx) :
    fetch w.tree s.indexPath = .ok (some (documentText idx.toJson)) := by
  rw [Store.indexPath_eq env.plain env.dir, fetch_of_get?_file env.plain (by decide) env.dirs env.index,
    if_neg (Nat.not_lt.mpr env.small), contents_of_text]

/-- The summaries an export of `n` entries writes, in the order of their identifiers. -/
def exported (idx : Index) (n : Nat) : List Summary :=
  ((Store.newestFirst idx.episodes).take n).mergeSort fun a b => decide (a.id ≤ b.id)

theorem exported_perm (idx : Index) (n : Nat) :
    (exported idx n).Perm ((Store.newestFirst idx.episodes).take n) :=
  List.mergeSort_perm _ _

theorem newestFirst_perm (xs : List Summary) : (Store.newestFirst xs).Perm xs :=
  List.mergeSort_perm _ _

/-- Summaries newest first, those of equal time in the order they had. -/
structure RanksNewestFirst (xs ranking : List Summary) : Prop where
  perm : ranking.Perm xs
  ranked : ranking.Pairwise (fun a b => b.timestamp.nanos ≤ a.timestamp.nanos)
  stable : ∀ a b, List.Sublist [a, b] xs → a.timestamp.nanos = b.timestamp.nanos → List.Sublist [a, b] ranking

theorem ranksNewestFirst_newestFirst (xs : List Summary) : RanksNewestFirst xs (Store.newestFirst xs) := by
  -- the comparison is "not older than", a total preorder
  have trans : ∀ a b c : Summary, (!b.timestamp.after a.timestamp) = true →
      (!c.timestamp.after b.timestamp) = true → (!c.timestamp.after a.timestamp) = true := by
    intro a b c
    simp only [Clock.Instant.after, Bool.not_eq_eq_eq_not, Bool.not_true, decide_eq_false_iff_not]
    omega
  have total : ∀ a b : Summary, ((!b.timestamp.after a.timestamp) || !a.timestamp.after b.timestamp) = true := by
    intro a b
    simp only [Clock.Instant.after, Bool.or_eq_true, Bool.not_eq_eq_eq_not, Bool.not_true, decide_eq_false_iff_not]
    omega
  refine ⟨newestFirst_perm xs, ?_, fun a b pair same => List.pair_sublist_mergeSort trans total ?_ pair⟩
  · exact (List.pairwise_mergeSort trans total xs).imp fun ordered => by
      simpa [Clock.Instant.after] using ordered
  · simp [Clock.Instant.after, same]

theorem mem_of_mem_exported {idx : Index} {n : Nat} {sum : Summary} (mem : sum ∈ exported idx n) :
    sum ∈ idx.episodes :=
  (newestFirst_perm idx.episodes).mem_iff.mp (List.mem_of_mem_take ((exported_perm idx n).mem_iff.mp mem))

theorem nodup_exported {idx : Index} (distinct : idx.ids.Nodup) (n : Nat) :
    ((exported idx n).map (·.id)).Nodup := by
  have recent : (((Store.newestFirst idx.episodes).take n).map (·.id)).Nodup :=
    (((newestFirst_perm idx.episodes).map _).nodup_iff.mpr distinct).sublist
      ((List.take_sublist n _).map _)
  exact ((exported_perm idx n).map _).nodup_iff.mpr recent

namespace Store

variable {s : Store} {ns : List String} {w : World} {idx : Index}

/-- An export from a consistent index on disk whose identifiers are distinct writes the
document of its entries in the order of their identifiers, and reports how many there are. -/
theorem run_exportLegacy (env : Exporting s ns w idx) (storable : idx.Storable)
    (consistent : idx.consistent = true) (distinct : idx.ids.Nodup) {limit : Int} (positive : 0 < limit) :
    ∃ w', (s.exportLegacy limit).run.run w = (.ok (exported idx limit.toNat).length, w') ∧
      w'.tree.get? s.legacyIndexPath = some (.file
        ⟨documentText (.obj ((exported idx limit.toNat).map fun sum => (sum.id, sum.flatJson))), 0⟩) := by
  have indexAt := indexPath_eq env.plain env.dir
  have lockAt := lockPath_indexPath env.plain env.dir
  have legacyAt := legacyIndexPath_eq env.plain env.dir
  have made : w.tree.mkdirAll (parent s.indexPath) = .ok w.tree := by
    rw [indexAt, parent_pathOf env.plain (by decide), mkdirAll_of_dirsTo env.plain env.dirs]
  obtain ⟨t, tree, locked⟩ := run_withLock_free made (by rw [lockAt]; exact env.lock) env.free
  have dirs : t.DirsTo ns := by
    rcases tree with rfl | rfl
    · exact env.dirs
    · rw [lockAt]
      exact env.dirs.put_child env.plain (by decide) _
  have index : t.get? (pathOf (ns ++ ["index.json"])) = some (.file ⟨documentText idx.toJson, 0⟩) := by
    rcases tree with rfl | rfl
    · exact env.index
    · rw [lockAt, index_put_child env.plain (by decide) (by decide)]
      exact env.index
  have legacy : t.get? (pathOf (ns ++ ["legacy-index.json"])) ≠ some .dir := by
    rcases tree with rfl | rfl
    · exact env.legacy
    · rw [lockAt, Tree.get?_put, if_neg]
      · exact env.legacy
      · intro same
        have names := List.singleton_inj.mp
          ((pathOf_append_inj env.plain (by decide) (by decide)).mp same)
        exact absurd names (by decide)
  have fetched : fetch t s.indexPath = .ok (some (documentText idx.toJson)) := by
    rw [indexAt, fetch_of_get?_file env.plain (by decide) dirs index, if_neg (Nat.not_lt.mpr env.small),
      contents_of_text]
  have read := run_readIndex_stored s { w with tree := t } fetched storable consistent
  -- the entries have distinct identifiers, so none replaces another, and they are written
  -- in the order of their identifiers
  have recentIds : (((newestFirst idx.episodes).take limit.toNat).map (·.id)).Nodup :=
    (((newestFirst_perm idx.episodes).map _).nodup_iff.mpr distinct).sublist ((List.take_sublist _ _).map _)
  have kept : lastPerKey (((newestFirst idx.episodes).take limit.toNat).map
      fun sum => (sum.id, sum.flatJson, sum.timestamp)) =
      ((newestFirst idx.episodes).take limit.toNat).map fun sum => (sum.id, sum.flatJson, sum.timestamp) :=
    lastPerKey_of_nodup (by simpa [List.map_map, Function.comp_def] using recentIds)
  have sorted : (((newestFirst idx.episodes).take limit.toNat).map
      fun sum => (sum.id, sum.flatJson, sum.timestamp)).mergeSort (fun a b => decide (a.1 ≤ b.1)) =
      (exported idx limit.toNat).map fun sum => (sum.id, sum.flatJson, sum.timestamp) :=
    (@List.map_mergeSort Summary (String × Json × Clock.Instant) (fun a b => decide (a.id ≤ b.id))
      (fun a b => decide (a.1 ≤ b.1)) (fun sum => (sum.id, sum.flatJson, sum.timestamp))
      ((newestFirst idx.episodes).take limit.toNat) (fun _ _ _ _ => rfl)).symm
  have times : ((exported idx limit.toNat).map (·.timestamp)).findSome? Clock.Instant.encodingProblem? = none := by
    refine findSome?_encodingProblem_eq_none fun time listed => ?_
    obtain ⟨sum, mem, rfl⟩ := List.mem_map.mp listed
    exact (storable.summaries sum (mem_of_mem_exported mem)).writable
  have replaced := replaceFile_child env.plain (by decide) dirs legacy
    (documentText (.obj ((exported idx limit.toNat).map fun sum => (sum.id, sum.flatJson))))
  rw [← legacyAt] at replaced
  obtain ⟨exportedTree, put⟩ : ∃ t', t' = t.put s.legacyIndexPath
      (.file ⟨documentText (.obj ((exported idx limit.toNat).map fun sum => (sum.id, sum.flatJson))), 0⟩) :=
    ⟨_, rfl⟩
  rw [← put] at replaced
  obtain ⟨log, logged⟩ := @run_emit_quiet s.log .debug "legacy index exported"
    [.int "entries" (exported idx limit.toNat).length] { w with tree := exportedTree } env.quiet
  have ran : (s.exportLegacy limit).run.run w =
      (.ok (exported idx limit.toNat).length, { { w with tree := exportedTree } with log := log }) := by
    unfold exportLegacy
    simp only [if_neg (not_le.mpr positive), run_bind, run_pure, run_attempt, locked, read, kept, sorted,
      run_writeJsonTimed, List.map_map, Function.comp_def, times, run_writeText, replaced, logged, List.length_map]

  exact ⟨_, ran, by simp [put, Tree.get?_put]⟩

end Store

/-- The flat export read back: from a consistent index on disk whose identifiers are distinct
and start with `ep-`, whose tasks need no cut and whose times have a written form, an export
of `limit ≥ 1` entries reports the smaller of the limit and the length of the log, and the
document it writes decodes, as a migration, to the index whose log is the `limit` newest
summaries (newest first, equal times in log order) sorted by time and identifier, each with
its time in UTC, and whose inverted indices are exactly those of that log. -/
theorem Store.exportLegacy_reads_back (s : Store) (ns : List String) (w : World) (idx : Index) (limit : Int)
    (env : Exporting s ns w idx) (consistent : idx.consistent = true) (storable : idx.Storable)
    (distinct : idx.ids.Nodup) (named : ∀ sum ∈ idx.episodes, "ep-".isPrefixOf sum.id = true)
    (short : ∀ sum ∈ idx.episodes, sum.task.length ≤ summaryTaskLength) (positive : 0 < limit) :
    ∃ w' text, (s.exportLegacy limit).run.run w = (.ok (min limit.toNat idx.episodes.length), w') ∧
      w'.tree.get? s.legacyIndexPath = some (.file ⟨text, 0⟩) ∧
      ∃ decoded, Index.decode text = .ok (decoded, true) ∧ decoded.Exact ∧
        decoded.episodes = sortSummaries (((Store.newestFirst idx.episodes).take limit.toNat).map Summary.inUtc) := by
  obtain ⟨w', ran, written⟩ := Store.run_exportLegacy env storable consistent distinct positive
  have ids := nodup_exported distinct limit.toNat
  have count : (exported idx limit.toNat).length = min limit.toNat idx.episodes.length := by
    rw [(exported_perm idx _).length_eq, List.length_take, (newestFirst_perm _).length_eq]
  have decoded := Index.decode_flat (fun sum mem => named sum (mem_of_mem_exported mem)) ids
    (fun sum mem => storable.summaries sum (mem_of_mem_exported mem))
    (fun sum mem => short sum (mem_of_mem_exported mem))
  have resorted : sortSummaries ((exported idx limit.toNat).map Summary.inUtc) =
      sortSummaries (((Store.newestFirst idx.episodes).take limit.toNat).map Summary.inUtc) :=
    sortSummaries_eq_of_perm ((exported_perm idx _).map _) (by simpa [List.map_map, Function.comp_def] using ids)
  have logIds : ((sortSummaries ((exported idx limit.toNat).map Summary.inUtc)).map (·.id)).Nodup :=
    ((List.mergeSort_perm _ _).map _).nodup_iff.mpr (by simpa [List.map_map, Function.comp_def] using ids)
  obtain ⟨exact, log⟩ := Index.exact_reindex { episodes := sortSummaries ((exported idx limit.toNat).map Summary.inUtc) }
  refine ⟨w', _, count ▸ ran, written, _, decoded, exact, ?_⟩
  rw [log, firstById_of_nodup logIds, resorted]

/-- Two summaries of one project, the older tagged `go`. -/
def exportIndex : Index :=
  { episodes := [{ id := "ep-a", timestamp := Clock.Instant.ofCivil 2025 1 1 0 0 0, task := "plan", project := "p",
                   success := true, importance := 5, tags := some ["go"] },
                 { id := "ep-b", timestamp := Clock.Instant.ofCivil 2025 1 2 0 0 0, task := "ship", project := "p",
                   importance := 3 }],
    tags := [("go", ["ep-a"])], projects := [("p", ["ep-a", "ep-b"])] }

/-- The store at `/m` with the index of `exportIndex` on disk. -/
def exportWorld : World :=
  { tree := ⟨[("/", .dir), ("/m", .dir), ("/m/index.json", .file ⟨documentText exportIndex.toJson, 0⟩)]⟩,
    now := Clock.Instant.zero }

theorem exportWorld_exporting : Exporting legacyStore ["m"] exportWorld exportIndex := by
  have dirs : exportWorld.tree.DirsTo ["m"] := by
    intro i le
    simp only [List.length_cons, List.length_nil, zero_add] at le
    -- looked up by `simp`, which never evaluates the document the index file holds
    interval_cases i <;> simp [pathOf, exportWorld, Disk.Tree.get?]
  exact ⟨by decide, by decide, dirs, by simp [pathOf, exportWorld, Disk.Tree.get?], rfl, rfl,
    by simp [pathOf, exportWorld, Disk.Tree.get?], by decide +kernel, by simp [pathOf, exportWorld, Disk.Tree.get?]⟩

theorem exportIndex_consistent : exportIndex.consistent = true := by decide +kernel

theorem exportIndex_storable : exportIndex.Storable := by
  refine ⟨?_, by unfold KeysSorted; decide +kernel, by unfold KeysSorted; decide +kernel⟩
  intro sum mem
  simp only [exportIndex, List.mem_cons, List.not_mem_nil, or_false] at mem
  rcases mem with rfl | rfl <;> exact ⟨by decide +kernel, by decide, by decide⟩

theorem exportLegacy_reads_back_newest :
    Exporting legacyStore ["m"] exportWorld exportIndex ∧ exportIndex.consistent = true ∧ exportIndex.Storable ∧
      exportIndex.ids.Nodup ∧ (∀ sum ∈ exportIndex.episodes, "ep-".isPrefixOf sum.id = true) ∧
      (∀ sum ∈ exportIndex.episodes, sum.task.length ≤ summaryTaskLength) ∧ (0 : Int) < 1 ∧
      ∃ w' text, (legacyStore.exportLegacy 1).run.run exportWorld =
          (.ok (min (1 : Int).toNat exportIndex.episodes.length), w') ∧
        w'.tree.get? legacyStore.legacyIndexPath = some (.file ⟨text, 0⟩) ∧
        ∃ decoded, Index.decode text = .ok (decoded, true) ∧ decoded.Exact ∧
          decoded.episodes =
            sortSummaries (((Store.newestFirst exportIndex.episodes).take (1 : Int).toNat).map Summary.inUtc) := by
  have distinct : exportIndex.ids.Nodup := by decide +kernel
  have named : ∀ sum ∈ exportIndex.episodes, "ep-".isPrefixOf sum.id = true := by decide +kernel
  have short : ∀ sum ∈ exportIndex.episodes, sum.task.length ≤ summaryTaskLength := by decide +kernel
  exact ⟨exportWorld_exporting, exportIndex_consistent, exportIndex_storable, distinct, named, short, by decide,
    Store.exportLegacy_reads_back legacyStore ["m"] exportWorld exportIndex 1 exportWorld_exporting
      exportIndex_consistent exportIndex_storable distinct named short (by decide)⟩

end Episodic
end AgentMemory
