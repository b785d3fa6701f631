import AgentMemory.Proofs.Episodic.Writes
import AgentMemory.Proofs.Episodic.Layout
import AgentMemory.Proofs.Episodic.Documents
import AgentMemory.Proofs.Text.Lines

namespace AgentMemory

@[simp] theorem Disk.FileData.size_text (text : String) : (⟨text, 0⟩ : Disk.FileData).size = text.utf8ByteSize :=
  Nat.add_zero _

theorem Disk.Tree.mem_entries_of_get? {t : Disk.Tree} {k : String} {e : Disk.Entry} (found : t.get? k = some e) :
    (k, e) ∈ t.entries := by
  unfold Disk.Tree.get? at found
  obtain ⟨⟨k', e'⟩, hit, rfl⟩ := Option.map_eq_some_iff.mp found
  have same : k' = k := by simpa using List.find?_some hit
  subst same
  exact List.mem_of_find?_eq_some hit

namespace Storage

/-- A timed document write that succeeded found a written form for every time, and
replaced the file with the document, changing nothing else. -/
theorem run_writeJsonTimed_ok {path : String} {times : List Clock.Instant} {j : Json} {w w' : World}
    (ran : (writeJsonTimed path times j).run.run w = (.ok (), w')) :
    (∀ t ∈ times, t.writable = true) ∧
      ∃ t, w.tree.replaceFile path (documentText j) = .ok t ∧ w' = { w with tree := t } := by
  rw [run_writeJsonTimed] at ran
  cases found : times.findSome? Clock.Instant.encodingProblem? with
  | some problem =>
    simp only [found] at ran
    cases ran
  | none =>
    simp only [found] at ran
    exact ⟨writable_of_findSome?_eq_none found, run_writeText_ok ran⟩

end Storage


namespace Episodic

open Json Storage Disk Tree

/-!
# An episode read back after it is written

A write files the episode it prepared at `<store>/<month>/<id>.json` and adds its summary
to the index; reading the identifier back looks the summary up in the index, and finds
the body in the month of the summary's time.  Main statement: `Store.get_returns_written`.
Whatever the store held before (an index in an older layout or one that breaks the
invariant, summaries without bodies, files that are no episodes), a write that succeeds
returns the episode with its time defaulted to the clock and put in UTC, an identifier
drawn when it had none and an importance of 5 when it had none, and reading that
identifier back gives exactly that episode and changes nothing: every field, absent lists
and absent values included.

Nothing is assumed of the store: reading the index repairs what it finds
(`Store.run_readIndex_apart`), and the write itself files what it reads back.  The one
thing outside the store that could touch its files is the logger, whose file is kept off
them (`LogsApart`).  A successful write is taken apart once, step by step
(`Store.run_prepare_ok`, `Store.run_update_apart`, `Store.run_fileEpisode_ok`), and the
files it leaves are read off the two replacements (`Store.filed_of_writes`).

Reading refuses a document over 64 MiB.  The write puts no bound on what it writes, so
the statement assumes the body and the index it leaves are within that bound; an episode
whose body passes it is written and then cannot be read (`large_episode_written_unread`).
-/

theorem firstFailed_eq_none {checks : List (Cause × Bool)} :
    firstFailed checks = none ↔ ∀ c ∈ checks, c.2 = true := by
  simp [firstFailed, List.find?_eq_none]

theorem integral_optJson {α : Type} (f : α → Json) (o : Option α) (each : ∀ v ∈ o, Integral (f v)) :
    Integral (optJson f o) := by
  cases o with
  | none => trivial
  | some v => exact each v rfl

theorem Episode.integral_toJson (e : Episode) : Integral e.toJson :=
  ⟨trivial, trivial, trivial, trivial, trivial, trivial, integral_ofStrings _, trivial,
    integral_optJson _ _ (fun xs _ => itemsIntegral_map _ xs fun _ _ =>
      ⟨trivial, trivial, trivial⟩),
    integral_ofStrings _,
    integral_optJson _ _ (fun xs _ => itemsIntegral_map _ xs fun _ _ =>
      ⟨trivial, trivial, trivial, trivial, integral_optJson _ _ (fun _ _ => trivial), trivial⟩),
    trivial, integral_optJson _ _ (fun n _ => integral_ofInt n), integral_optJson _ _ (fun _ _ => trivial),
    integral_ofStrings _, integral_ofStrings _, integral_ofStrings _, integral_ofInt _,
    integral_optJson _ _ (fun n _ => integral_ofInt n), trivial⟩

/-! ## The prepared episode -/

/-- What preparing an episode changes: its time, defaulted to the clock and put in UTC;
its identifier, drawn from that time when it has none; and its importance, 5 when it has
none. -/
theorem Episode.prepared_eq (ep : Episode) (now : Clock.Instant) (n : Nat) :
    ep.prepared now n = { ep with
      timestamp := (if ep.timestamp.isZero then now else ep.timestamp).utc,
      id := if ep.id.isEmpty then
          freshId (if ep.timestamp.isZero then now else ep.timestamp).utc
            (String.ofList ((uuidHex (n + 1)).toList.take 6))
        else ep.id,
      importance := if ep.importance = 0 then defaultImportance else ep.importance } := by
  unfold Episode.prepared Episode.identified Store.withImportance Store.stamp
  by_cases fresh : ep.id.isEmpty = true <;> by_cases zero : ep.importance = 0 <;> simp [fresh, zero]

/-- An episode that passes its checks has a task, an identifier that is valid once drawn,
and an importance in 1..10 once defaulted. -/
theorem Episode.checks_pass {ep : Episode} {now : Clock.Instant} {n : Nat}
    (passes : firstFailed (ep.checks now n) = none) :
    Text.isBlankText ep.task = false ∧ validId (ep.prepared now n).id = true ∧
      1 ≤ (ep.prepared now n).importance ∧ (ep.prepared now n).importance ≤ 10 := by
  unfold Episode.checks at passes
  have each := firstFailed_eq_none.mp passes
  have task := each _ List.mem_cons_self
  have valid := each _ (List.mem_cons_of_mem _ List.mem_cons_self)
  have importance := each _ (List.mem_cons_of_mem _ (List.mem_cons_of_mem _ List.mem_cons_self))
  simp only [Bool.not_eq_true'] at task
  simp only [decide_eq_true_eq] at importance
  rw [Episode.prepared, id_withImportance, importance_withImportance, Episode.importance_identified]
  exact ⟨task, valid, importance⟩

/-- The summary of the episode a write prepares reads back once its time has a written
form: its time is in UTC and its importance in 1..10. -/
theorem Episode.summary_storable_prepared {ep : Episode} {now : Clock.Instant} {n : Nat}
    (passes : firstFailed (ep.checks now n) = none) (writable : (ep.prepared now n).timestamp.writable = true) :
    (ep.prepared now n).summary.Storable := by
  obtain ⟨-, -, low, high⟩ := Episode.checks_pass passes
  refine ⟨writable, ?_, ⟨le_trans (by norm_num) low, lt_of_le_of_lt high (by norm_num)⟩⟩
  rw [Episode.prepared_eq]
  rfl

/-- The episode a write prepares reads back from its document once, besides its summary,
its numbers are 64-bit. -/
theorem Episode.storable_prepared {ep : Episode} {now : Clock.Instant} {n : Nat}
    (passes : firstFailed (ep.checks now n) = none) (writable : (ep.prepared now n).timestamp.writable = true)
    (fitsTests : ∀ k ∈ ep.testsPassed, Fits64 k) (fitsDuration : ∀ k ∈ ep.durationMinutes, Fits64 k) :
    (ep.prepared now n).Storable := by
  have summary := Episode.summary_storable_prepared passes writable
  rw [Episode.prepared_eq] at summary ⊢
  exact ⟨summary.writable, summary.minutes, summary.importance, fitsTests, fitsDuration⟩

theorem Episode.task_length_lt_documentText (e : Episode) : e.task.length < (documentText e.toJson).length := by
  have part : (indentedAt .document 1 (.str e.task)).toList <:+: (documentText e.toJson).toList := by
    unfold Episode.toJson
    exact infix_documentText "task" (by simp)
  have quoted : indentedAt .document 1 (.str e.task) = quote .document e.task := by
    simp [indentedAt, compactWith]
  calc e.task.length < (quote .document e.task).length := length_lt_quote .document e.task
    _ = (indentedAt .document 1 (.str e.task)).toList.length := by rw [quoted, String.length_toList]
    _ ≤ (documentText e.toJson).toList.length := part.length_le
    _ = (documentText e.toJson).length := String.length_toList

/-! ## The index with the episode added -/

namespace Index

theorem not_mem_ids {idx : Index} {id : String} (missing : idx.find? id = none) : id ∉ idx.ids := by
  simp only [find?, List.find?_eq_none, beq_iff_eq] at missing
  simp only [ids, List.mem_map, not_exists, not_and]
  exact missing

theorem find?_add_self {idx : Index} {s : Summary} (missing : idx.find? s.id = none) :
    (idx.add s).find? s.id = some s := by
  simp only [find?, add] at missing ⊢
  rw [List.find?_append, missing]
  simp

/-- Adding a summary that reads back, under a new identifier, to an index that keeps the
invariant and reads back leaves an index that reads back. -/
theorem Exact.storable_add {idx : Index} (exact : idx.Exact) (storable : idx.Storable) {s : Summary}
    (summary : s.Storable) (missing : idx.find? s.id = none) : (idx.add s).Storable where
  summaries x mem := by
    rcases List.mem_append.mp mem with old | added
    · exact storable.summaries x old
    · rw [List.mem_singleton.mp added]
      exact summary
  tagKeys := (exact.add (not_mem_ids missing)).tagKeys
  projectKeys := (exact.add (not_mem_ids missing)).projectKeys

end Index

/-! ## Reading an episode back -/

/-- What reading an episode back needs of the files: the directories of the store, the
index holding the episode's summary, and the episode's body in the month of its time. -/
structure Filed (ns : List String) (t : Tree) (idx : Index) (e : Episode) : Prop where
  dirs : t.DirsTo ns
  index : t.get? (pathOf (ns ++ ["index.json"])) = some (.file ⟨documentText idx.toJson, 0⟩)
  storable : idx.Storable
  consistent : idx.consistent = true
  listed : idx.find? e.id = some e.summary
  valid : validId e.id = true
  month : t.get? (pathOf (ns ++ [e.timestamp.monthText])) = some .dir
  body : t.get? (pathOf (ns ++ [e.timestamp.monthText, e.id ++ ".json"])) = some (.file ⟨documentText e.toJson, 0⟩)

/-- Filing reads the tree only at the paths the store reads and at the index. -/
theorem Filed.frame {ns : List String} {t t' : Tree} {idx : Index} {e : Episode} (filed : Filed ns t idx e)
    (agree : Agree ns t t')
    (index : t'.get? (pathOf (ns ++ ["index.json"])) = t.get? (pathOf (ns ++ ["index.json"]))) :
    Filed ns t' idx e where
  dirs := agree.dirsTo filed.dirs
  index := index.trans filed.index
  storable := filed.storable
  consistent := filed.consistent
  listed := filed.listed
  valid := filed.valid
  month := (agree _ (Or.inr (Or.inl ⟨_, plain_monthText _, monthLike_monthText _, rfl⟩))).trans filed.month
  body := (agree _ (Or.inr (Or.inr ⟨_, _, plain_monthText _, plain_bodyName filed.valid, rfl⟩))).trans filed.body

namespace Store

variable {s : Store} {ns : List String}

/-- Reading a filed episode back, under an index within the size a read takes, reads the
body at the path its summary gives, and only that: the result is what reading that document
gives, a failure put down to the episode. -/
theorem run_get_filed_body (plain : ∀ n ∈ ns, Plain n) (dir : s.dir = pathOf ns) {w : World} {idx : Index}
    {e : Episode} (filed : Filed ns w.tree idx e) (indexSmall : (documentText idx.toJson).utf8ByteSize ≤ maxDocumentBytes) :
    (s.get e.id).run.run w = match (readJson (s.bodyPath e.id e.timestamp) Episode.read).run.run w with
      | (.ok r, w') => (.ok r, w')
      | (.error f, w') => (.error (f.within ("loading episode " ++ e.id)), w') := by
  have month : ∀ n ∈ ns ++ [e.timestamp.monthText], Plain n := plain_append plain (by simpa using plain_monthText _)
  have name : Plain (e.id ++ ".json") := plain_bodyName filed.valid
  have dirs : w.tree.DirsTo (ns ++ [e.timestamp.monthText]) := filed.dirs.snoc filed.month
  have bodyFound : w.tree.get? (pathOf (ns ++ [e.timestamp.monthText] ++ [e.id ++ ".json"])) =
      some (.file ⟨documentText e.toJson, 0⟩) := by
    rw [List.append_assoc]
    exact filed.body
  have stat : w.tree.stat (s.bodyPath e.id e.timestamp) = .ok (.file ⟨documentText e.toJson, 0⟩) := by
    rw [bodyPath_eq plain dir filed.valid, ← List.singleton_append, ← List.append_assoc, Tree.stat,
      Tree.look_child_of_get? month name dirs "stat" bodyFound]
  have indexRead : fetch w.tree s.indexPath = .ok (some (documentText idx.toJson)) := by
    rw [indexPath_eq plain dir, fetch_of_get?_file plain (by decide) filed.dirs filed.index, FileData.size_text,
      if_neg (Nat.not_lt.mpr indexSmall), contents_of_text]
  simp only [get, filed.valid, Bool.not_true, Bool.false_eq_true, if_false, loadIndex, run_bind,
    run_readIndex_stored s w indexRead filed.storable filed.consistent, Bool.not_false, if_true, run_pure,
    filed.listed, Episode.summary, run_files, stat, run_attempt]
  rcases (readJson (s.bodyPath e.id e.timestamp) Episode.read).run.run w with ⟨_ | _, w'⟩ <;> rfl

/-- Reading the body of a filed episode gives its document, unless the document is over
the size a read takes. -/
theorem fetch_body_filed (plain : ∀ n ∈ ns, Plain n) (dir : s.dir = pathOf ns) {t : Tree} {idx : Index}
    {e : Episode} (filed : Filed ns t idx e) :
    fetch t (s.bodyPath e.id e.timestamp) = if (documentText e.toJson).utf8ByteSize > maxDocumentBytes then
      .error ⟨.documentTooLarge, "document too large: " ++ s.bodyPath e.id e.timestamp ++ " is " ++
        toString (documentText e.toJson).utf8ByteSize ++ " bytes"⟩
    else .ok (some (documentText e.toJson)) := by
  have month : ∀ n ∈ ns ++ [e.timestamp.monthText], Plain n := plain_append plain (by simpa using plain_monthText _)
  have bodyAt : s.bodyPath e.id e.timestamp = pathOf (ns ++ [e.timestamp.monthText] ++ [e.id ++ ".json"]) := by
    rw [bodyPath_eq plain dir filed.valid, List.append_assoc]
    rfl
  rw [bodyAt, fetch_of_get?_file month (plain_bodyName filed.valid) (filed.dirs.snoc filed.month)
    (by rw [List.append_assoc]; exact filed.body), FileData.size_text, contents_of_text]

/-- An episode filed with its summary in the index, whose body is within the size a read
takes and reads back, reads back as itself, and reading changes nothing. -/
theorem run_get_filed (plain : ∀ n ∈ ns, Plain n) (dir : s.dir = pathOf ns) {w : World} {idx : Index}
    {e : Episode} (filed : Filed ns w.tree idx e) (indexSmall : (documentText idx.toJson).utf8ByteSize ≤ maxDocumentBytes)
    (bodySmall : (documentText e.toJson).utf8ByteSize ≤ maxDocumentBytes) (readable : e.Storable) :
    (s.get e.id).run.run w = (.ok (some e), w) := by
  have bodyRead : fetch w.tree (s.bodyPath e.id e.timestamp) = .ok (some (documentText e.toJson)) := by
    rw [fetch_body_filed plain dir filed, if_neg (Nat.not_lt.mpr bodySmall)]
  rw [run_get_filed_body plain dir filed indexSmall,
    readJson_documentText (Episode.integral_toJson e).spelled bodyRead (Episode.read_toJson e readable)]

/-- An episode filed with its summary in the index, whose body is over the size a read
takes, is not read back: reading it fails as a document too large, and changes nothing. -/
theorem run_get_filed_large (plain : ∀ n ∈ ns, Plain n) (dir : s.dir = pathOf ns) {w : World} {idx : Index}
    {e : Episode} (filed : Filed ns w.tree idx e) (indexSmall : (documentText idx.toJson).utf8ByteSize ≤ maxDocumentBytes)
    (large : maxDocumentBytes < (documentText e.toJson).utf8ByteSize) :
    ∃ msg, (s.get e.id).run.run w = (.error ⟨.documentTooLarge, msg⟩, w) := by
  have refused := fetch_body_filed plain dir filed
  rw [if_pos large] at refused
  rw [run_get_filed_body plain dir filed indexSmall]
  simp only [readJson, readText, run_bind, run_files, refused, run_fail]
  exact ⟨_, rfl⟩

/-! ## A write taken apart -/

/-- A preparation that succeeded passed the checks and gave the prepared episode, drawing
an identifier when the episode had none. -/
theorem run_prepare_ok {ep e : Episode} {w w₁ : World} (ran : (prepare ep).run.run w = (.ok e, w₁)) :
    firstFailed (ep.checks w.now w.drawn) = none ∧ e = ep.prepared w.now w.drawn ∧
      w₁ = if ep.draws then { w with drawn := w.drawn + 1 } else w := by
  cases checked : firstFailed (ep.checks w.now w.drawn) with
  | some c =>
    obtain ⟨msg, refused⟩ := prepare_rejected checked
    rw [refused] at ran
    cases ran
  | none =>
    rw [prepare_passes checked] at ran
    cases ran
    exact ⟨rfl, rfl, rfl⟩

/-- Reading the index, when it reads at all, gives an index that passes the check of the
invariant and is readable, whatever the file held; what it logs on the way, under a logger
apart from the store, leaves the store's files alone. -/
theorem run_readIndex_apart (s : Store) {w w₁ : World} {idx : Index} {needsWrite : Bool}
    (apart : LogsApart ns w) (read : s.readIndex.run.run w = (.ok (idx, needsWrite), w₁)) :
    idx.consistent = true ∧ idx.Readable ∧ LogsOnly ns w w₁ := by
  have empty : ({} : Index).consistent = true ∧ ({} : Index).Readable :=
    ⟨by decide, ⟨(fun _ mem => by cases mem), List.Pairwise.nil, List.Pairwise.nil⟩⟩
  unfold readIndex at read
  simp only [run_bind, run_files] at read
  cases fetched : fetch w.tree s.indexPath with
  | error e =>
    simp only [fetched] at read
    cases read
  | ok text =>
    simp only [fetched] at read
    rw [run_bind, run_pure] at read
    dsimp only at read
    cases text with
    | none =>
      cases read
      exact ⟨empty.1, empty.2, LogsOnly.refl apart⟩
    | some text =>
      dsimp only at read
      by_cases blank : Text.isBlankText text = true
      · rw [if_pos blank] at read
        cases read
        exact ⟨empty.1, empty.2, LogsOnly.refl apart⟩
      rw [if_neg blank] at read
      split at read
      · simp only [run_fail] at read
        cases read
      · rename_i idx₀ migrated decoded
        -- however many warnings are logged, the index read is the settled one
        have finish : ∀ {w₃ : World}, LogsOnly ns w w₃ →
            ((.ok (idx₀.settle migrated), w₃) : Except Failure (Index × Bool) × World) = (.ok (idx, needsWrite), w₁) →
            idx.consistent = true ∧ idx.Readable ∧ LogsOnly ns w w₁ := by
          intro w₃ logged same
          have settled : idx₀.settle migrated = (idx, needsWrite) := Except.ok.inj (Prod.mk.inj same).1
          have consistent := Index.settle_consistent idx₀ migrated
          have readable := Index.settle_readable (Index.decode_readable decoded) migrated
          rw [settled] at consistent readable
          exact ⟨consistent, readable, (Prod.mk.inj same).2 ▸ logged⟩
        split at read
        · obtain ⟨w₂, info, first⟩ := run_emit_apart s.log .info "migrated legacy episode index"
            [.int "episodes" idx₀.episodes.length] apart
          rw [run_bind, info] at read
          dsimp only at read
          split at read
          · obtain ⟨w₃, warn, second⟩ := run_emit_apart s.log .warn
              "episode index inconsistent, regenerating inverted indices" [] first.apart
            rw [run_bind, warn] at read
            dsimp only at read
            rw [run_pure] at read
            exact finish (first.trans second) read
          · rw [run_pure] at read
            exact finish first read
        · split at read
          · obtain ⟨w₃, warn, second⟩ := run_emit_apart s.log .warn
              "episode index inconsistent, regenerating inverted indices" [] apart
            rw [run_bind, warn] at read
            dsimp only at read
            rw [run_pure] at read
            exact finish second read
          · rw [run_pure] at read
            exact finish (LogsOnly.refl apart) read

/-- A change of the index under its lock that succeeded, from any store: the directories
down to the store were made and the lock file put, the index was read (passing the check
of the invariant, and readable), the change ran on it, and the index was written when the
change or the reading asked for it.  A logger apart from the store stays apart. -/
theorem run_update_apart (plain : ∀ n ∈ ns, Plain n) (dir : s.dir = pathOf ns) {α : Type}
    {change : Index → Act (Bool × Index × α)} {w w' : World} {out : α} (apart : LogsApart ns w)
    (ran : (s.update change).run.run w = (.ok out, w')) :
    ∃ w₁ idx needsWrite changed idx' w₂, w₁.tree.DirsTo ns ∧ LogsApart ns w₁ ∧ idx.consistent = true ∧
      idx.Readable ∧ (change idx).run.run w₁ = (.ok (changed, idx', out), w₂) ∧
      (if (changed || needsWrite) = true then (s.writeIndex (if changed then idx' else idx)).run.run w₂ = (.ok (), w')
        else w₂ = w') := by
  unfold update at ran
  obtain ⟨t, ⟨t₁, made, lock⟩, body⟩ := run_withLock_ok ran
  rw [indexPath_eq plain dir, parent_pathOf plain (by decide)] at made
  rw [lockPath_indexPath plain dir] at lock
  have dirs : t.DirsTo ns := by
    rcases lock with rfl | rfl
    · exact (mkdirAll_eq_ok plain made).1
    · exact (mkdirAll_eq_ok plain made).1.put_child plain (by decide) _
  obtain ⟨⟨idx, needsWrite⟩, w₁, read, rest⟩ := run_bind_ok body
  obtain ⟨consistent, readable, logged⟩ := run_readIndex_apart s (w := { w with tree := t }) apart read
  rw [run_bind, run_attempt] at rest
  rcases changed : (change idx).run.run w₁ with ⟨_ | ⟨flag, idx', out'⟩, w₂⟩
  · -- a failed change fails the update, whether or not the index is written back
    rw [changed] at rest
    dsimp only at rest
    split at rest
    · obtain ⟨u, w₃, -, failed⟩ := run_bind_ok rest
      cases failed
    · cases rest
  rw [changed] at rest
  dsimp only at rest
  refine ⟨w₁, idx, needsWrite, flag, idx', w₂, logged.agree.dirsTo dirs, logged.apart, consistent, readable, ?_⟩
  split at rest
  · rename_i writes
    obtain ⟨u, w₃, written, returned⟩ := run_bind_ok rest
    cases returned
    exact ⟨changed, by rw [if_pos writes]; exact written⟩
  · rename_i quiet
    cases rest
    exact ⟨changed, by rw [if_neg quiet]⟩

/-- Filing an episode that succeeded found its identifier new, wrote its body into the
month of its time, changing nothing else, and added its summary to the index. -/
theorem run_fileEpisode_ok {e : Episode} {idx idx' : Index} {changed : Bool} {w w' : World}
    (ran : (s.fileEpisode e idx).run.run w = (.ok (changed, idx', ()), w')) :
    idx.find? e.id = none ∧ e.timestamp.writable = true ∧ changed = true ∧ idx' = idx.add e.summary ∧
      ∃ t, w.tree.replaceFile (s.bodyPath e.id e.timestamp) (documentText e.toJson) = .ok t ∧
        w' = { w with tree := t } := by
  cases found : idx.find? e.id with
  | some sum =>
    simp only [fileEpisode, found, Option.isSome_some, if_true, run_bind, run_fail] at ran
    cases ran
  | none =>
    rcases wrote : (writeJsonTimed (s.bodyPath e.id e.timestamp) [e.timestamp] e.toJson).run.run w with
      ⟨_ | ⟨⟩, w₁⟩
    · simp only [fileEpisode, found, Option.isSome_none, Bool.false_eq_true, if_false, run_bind, wrote] at ran
      cases ran
    simp only [fileEpisode, found, Option.isSome_none, Bool.false_eq_true, if_false, run_bind, run_pure,
      wrote] at ran
    obtain ⟨writable, t, replaced, rfl⟩ := run_writeJsonTimed_ok wrote
    cases ran
    exact ⟨rfl, writable _ List.mem_cons_self, rfl, rfl, t, replaced, rfl⟩

/-- Writing a body below a store whose directories stand, and then the index, leaves the
directories, the index, the month of the body and the body. -/
theorem filed_of_writes (plain : ∀ n ∈ ns, Plain n) (dir : s.dir = pathOf ns) {t t₁ t₂ : Tree}
    (dirs : t.DirsTo ns) {e : Episode} (valid : validId e.id = true) {text : String}
    (body : t.replaceFile (s.bodyPath e.id e.timestamp) (documentText e.toJson) = .ok t₁)
    (index : t₁.replaceFile s.indexPath text = .ok t₂) :
    t₂.DirsTo ns ∧ t₂.get? (pathOf (ns ++ ["index.json"])) = some (.file ⟨text, 0⟩) ∧
      t₂.get? (pathOf (ns ++ [e.timestamp.monthText])) = some .dir ∧
      t₂.get? (pathOf (ns ++ [e.timestamp.monthText, e.id ++ ".json"])) =
        some (.file ⟨documentText e.toJson, 0⟩) := by
  have monthPlain : Plain e.timestamp.monthText := plain_monthText _
  have name : Plain (e.id ++ ".json") := plain_bodyName valid
  have toMonth : ∀ n ∈ ns ++ [e.timestamp.monthText], Plain n := Plain.snoc plain monthPlain
  have indexName : ∀ n ∈ ns ++ ["index.json"], Plain n := Plain.snoc plain (by decide)
  have split : ns ++ [e.timestamp.monthText, e.id ++ ".json"] = ns ++ [e.timestamp.monthText] ++ [e.id ++ ".json"] := by
    simp
  rw [bodyPath_eq plain dir valid, split] at body
  rw [split]
  obtain ⟨made, monthMade, -, rfl⟩ := replaceFile_eq_ok body
  rw [clean_pathOf (Plain.snoc toMonth name), parent_pathOf toMonth name] at monthMade
  rw [clean_pathOf (Plain.snoc toMonth name)] at index
  have monthDirs : made.DirsTo (ns ++ [e.timestamp.monthText]) := by
    rcases mkdirAll_child_eq_ok plain monthPlain dirs monthMade with ⟨isDir, rfl⟩ | ⟨-, rfl⟩
    · exact dirs.snoc isDir
    · exact (dirs.put_child plain monthPlain .dir).snoc (by rw [Tree.get?_put, if_pos rfl])
  have bodyDirs := monthDirs.put_child toMonth name (.file ⟨documentText e.toJson, 0⟩)
  obtain ⟨made₂, indexMade, -, rfl⟩ := replaceFile_eq_ok index
  rw [indexPath_eq plain dir, clean_pathOf indexName, parent_pathOf plain (by decide),
    mkdirAll_of_dirsTo plain bodyDirs.of_append] at indexMade
  cases indexMade
  rw [indexPath_eq plain dir, clean_pathOf indexName]
  have notMonth : pathOf (ns ++ [e.timestamp.monthText]) ≠ pathOf (ns ++ ["index.json"]) := by
    intro same
    have names := List.singleton_inj.mp ((pathOf_append_inj plain (by simpa using monthPlain) (by decide)).mp same)
    have like := monthLike_monthText e.timestamp
    rw [names] at like
    exact absurd like (by decide)
  have notBody : pathOf (ns ++ [e.timestamp.monthText] ++ [e.id ++ ".json"]) ≠ pathOf (ns ++ ["index.json"]) :=
    pathOf_ne_of_length_ne (Plain.snoc toMonth name) indexName (by simp)
  refine ⟨bodyDirs.of_append.put_child plain (by decide) _, by rw [Tree.get?_put, if_pos rfl], ?_, ?_⟩
  · rw [Tree.get?_put, if_neg notMonth]
    exact bodyDirs.get?_self
  · rw [Tree.get?_put, if_neg notBody, Tree.get?_put, if_pos rfl]

/-- What a write that succeeded leaves, from any store whose logger keeps apart from it: the
prepared episode, under the identifier returned, filed with its summary in the index, and
the logger still apart. -/
theorem filed_of_write (plain : ∀ n ∈ ns, Plain n) (dir : s.dir = pathOf ns) {w w' : World}
    (apart : LogsApart ns w) {ep e : Episode} {id : String} (wrote : (s.write ep).run.run w = (.ok (id, e), w')) :
    firstFailed (ep.checks w.now w.drawn) = none ∧ e = ep.prepared w.now w.drawn ∧ id = e.id ∧
      e.timestamp.writable = true ∧ LogsApart ns w' ∧ ∃ idx, Filed ns w'.tree idx e := by
  obtain ⟨e₀, w₀, prepared, rest⟩ := run_bind_ok wrote
  obtain ⟨passes, rfl, drawn⟩ := run_prepare_ok prepared
  have apart₀ : LogsApart ns w₀ := by
    rw [drawn]
    split <;> exact apart
  rw [run_bind, run_attempt] at rest
  rcases updated : (s.update (s.fileEpisode (ep.prepared w.now w.drawn))).run.run w₀ with ⟨_ | ⟨⟩, w₁⟩
  · rw [updated] at rest
    cases rest
  rw [updated] at rest
  obtain ⟨w₂, idx, needsWrite, changed, idx', w₃, dirs, apart₂, consistent, readable, filed, written⟩ :=
    run_update_apart plain dir apart₀ updated
  obtain ⟨fresh, writable, rfl, rfl, t₁, body, rfl⟩ := run_fileEpisode_ok filed
  rw [Bool.true_or, if_pos rfl, if_pos rfl, writeIndex] at written
  obtain ⟨encodable, t₂, index, rfl⟩ := run_writeJsonTimed_ok written
  obtain ⟨w₄, logged, after⟩ := run_emit_apart s.log .debug "episode written"
    [.text "episode_id" (ep.prepared w.now w.drawn).id, .text "project" (ep.prepared w.now w.drawn).project,
      ⟨"tags", .texts ((ep.prepared w.now w.drawn).tags.getD [])⟩] (w := { w₂ with tree := t₂ }) apart₂
  simp only [run_bind, logged, run_pure] at rest
  cases rest
  have valid := (Episode.checks_pass passes).2.1
  obtain ⟨dirs', indexFile, month, bodyFile⟩ := filed_of_writes plain dir dirs valid body index
  have summary := Episode.summary_storable_prepared passes writable
  have added := readable.add ⟨summary.minutes, summary.importance⟩
  refine ⟨passes, rfl, rfl, writable, after.apart, idx.add (ep.prepared w.now w.drawn).summary,
    Filed.frame ?_ after.agree after.index⟩
  exact
    { dirs := dirs', index := indexFile,
      storable := added.storable (fun x mem => encodable _ (List.mem_map_of_mem mem)),
      consistent := Index.consistent_add consistent readable.tagKeys readable.projectKeys (Index.not_mem_ids fresh),
      listed := Index.find?_add_self fresh, valid := valid, month := month, body := bodyFile }

/-- The index a filed episode is listed in is the file at the store's index path, so a
bound on that file bounds it. -/
theorem index_small_of_filed (plain : ∀ n ∈ ns, Plain n) (dir : s.dir = pathOf ns) {t : Tree} {idx : Index}
    {e : Episode} (filed : Filed ns t idx e)
    (indexSmall : ∀ d, t.get? s.indexPath = some (.file d) → d.size ≤ maxDocumentBytes) :
    (documentText idx.toJson).utf8ByteSize ≤ maxDocumentBytes := by
  have small := indexSmall _ (by rw [indexPath_eq plain dir]; exact filed.index)
  rwa [FileData.size_text] at small

/-- An episode whose body is over the size a read takes is written all the same, and then
cannot be read back: reading its identifier fails as a document too large, and changes
nothing. -/
theorem get_fails_written_large (plain : ∀ n ∈ ns, Plain n) (dir : s.dir = pathOf ns) {w w' : World}
    (apart : LogsApart ns w) {ep e : Episode} {id : String} (wrote : (s.write ep).run.run w = (.ok (id, e), w'))
    (large : maxDocumentBytes < (documentText e.toJson).utf8ByteSize)
    (indexSmall : ∀ d, w'.tree.get? s.indexPath = some (.file d) → d.size ≤ maxDocumentBytes) :
    ∃ msg, (s.get id).run.run w' = (.error ⟨.documentTooLarge, msg⟩, w') := by
  obtain ⟨-, -, rfl, -, -, idx, filed⟩ := filed_of_write plain dir apart wrote
  exact run_get_filed_large plain dir filed (index_small_of_filed plain dir filed indexSmall) large

/-- An episode written to a store is read back as written, whatever the store held before:
an index in an older layout, summaries without bodies, files that are no episodes.  The
written episode is the one given with its time defaulted to the clock and put in UTC, the
identifier returned (the episode's own when it has one), and an importance of 5 when it
has none; that identifier is valid, the body lies at the path of the identifier and the
episode's time, and reading the identifier back from the world the write leaves gives
exactly that episode and changes nothing.  The numbers of the episode are 64-bit, the body
and the index written are within the size a read takes, and a logger, if one is open,
writes its file away from the store. -/
theorem get_returns_written (plain : ∀ n ∈ ns, Plain n) (dir : s.dir = pathOf ns) {w w' : World}
    (apart : LogsApart ns w) {ep e : Episode} {id : String}
    (fitsTests : ∀ k ∈ ep.testsPassed, Fits64 k) (fitsDuration : ∀ k ∈ ep.durationMinutes, Fits64 k)
    (wrote : (s.write ep).run.run w = (.ok (id, e), w'))
    (bodySmall : (documentText e.toJson).utf8ByteSize ≤ maxDocumentBytes)
    (indexSmall : ∀ d, w'.tree.get? s.indexPath = some (.file d) → d.size ≤ maxDocumentBytes) :
    e = { ep with
      timestamp := (if ep.timestamp.isZero then w.now else ep.timestamp).utc,
      id := id,
      importance := if ep.importance = 0 then defaultImportance else ep.importance } ∧
    (ep.id.isEmpty = false → id = ep.id) ∧ validId id = true ∧
    w'.tree.get? (s.bodyPath id e.timestamp) = some (.file ⟨documentText e.toJson, 0⟩) ∧
    (s.get id).run.run w' = (.ok (some e), w') := by
  obtain ⟨passes, rfl, rfl, writable, -, idx, filed⟩ := filed_of_write plain dir apart wrote
  have readable := Episode.storable_prepared passes writable fitsTests fitsDuration
  refine ⟨?_, fun own => ?_, filed.valid, ?_,
    run_get_filed plain dir filed (index_small_of_filed plain dir filed indexSmall) bodySmall readable⟩
  · rw [Episode.prepared_eq]
  · rw [Episode.prepared_eq]
    simp [own]
  · rw [bodyPath_eq plain dir filed.valid]
    exact filed.body

end Store

/-! ## Writing beside a history -/

theorem plain_m : ∀ n ∈ ["m"], Plain n := by decide

theorem indexSmall_of_replaced (s : Store) (clean : Disk.clean s.indexPath = s.indexPath) {t₁ t₂ : Tree}
    {text : String} (index : t₁.replaceFile s.indexPath text = .ok t₂) (small : text.utf8ByteSize ≤ maxDocumentBytes) :
    ∀ d, t₂.get? s.indexPath = some (.file d) → d.size ≤ maxDocumentBytes := by
  intro d found
  have put := Tree.get?_replaceFile index
  rw [clean, found] at put
  cases put
  simpa [Disk.FileData.size] using small

/-- The deploy of January the 10th, whose body the store keeps. -/
def deployRecord : Episode :=
  { id := "ep-deploy", timestamp := Clock.Instant.ofCivil 2025 1 10 9 0 0, task := "deploy", project := "core",
    tags := some ["ops"], importance := defaultImportance }

/-- The index of a store that logged the deploy, and then a note of January the 12th whose
body is gone. -/
def historyIndex : Index :=
  (({} : Index).add deployRecord.summary).add
    { id := "ep-note", timestamp := Clock.Instant.ofCivil 2025 1 12 17 30 0, task := "note", project := "core",
      importance := 3 }

/-- A store at `/m` with that index and its lock, the body of the deploy, and beside it in
its month a file that is no episode. -/
def historyWorld : World :=
  { tree := ⟨[("/", .dir), ("/m", .dir), ("/m/index.json", .file ⟨documentText historyIndex.toJson, 0⟩),
      ("/m/index.json.lock", .file ⟨"", 0⟩), ("/m/2025-01", .dir),
      ("/m/2025-01/ep-deploy.json", .file ⟨documentText deployRecord.toJson, 0⟩),
      ("/m/2025-01/notes.txt", .file ⟨"draft", 0⟩)]⟩,
    now := Clock.Instant.ofCivil 2025 1 15 12 0 0 }

/-- A review with its own identifier, a time two hours east of UTC, an importance, a count
of passed tests and an action. -/
def reviewEpisode : Episode :=
  { id := "ep-review", timestamp := { Clock.Instant.ofCivil 2025 1 14 8 0 0 with offset := 7200 },
    task := "review release", project := "core", tags := some ["ops"], importance := 8,
    testsPassed := some 3, actions := some [{ kind := "run", target := "make test" }] }

/-- The review as it is stored: its time in UTC, all else as given. -/
def reviewStored : Episode := { reviewEpisode with timestamp := reviewEpisode.timestamp.utc }

theorem dirsTo_historyWorld : historyWorld.tree.DirsTo ["m"] := by
  intro i le
  simp only [List.length_cons, List.length_nil, zero_add] at le
  -- looked up by `simp`, which never evaluates the documents the files hold
  interval_cases i <;> simp [pathOf, historyWorld, Disk.Tree.get?]

theorem historyIndex_storable : historyIndex.Storable := by
  refine ⟨?_, by unfold KeysSorted; decide +kernel, by unfold KeysSorted; decide +kernel⟩
  intro sum mem
  simp only [historyIndex, Index.add, List.nil_append, List.cons_append, List.mem_cons, List.not_mem_nil,
    or_false] at mem
  rcases mem with rfl | rfl <;> exact ⟨by decide +kernel, by decide, by decide⟩

/-- Writing the review to the store with a history returns it with its time in UTC, and
reading its identifier back gives it as stored. -/
theorem get_returns_written_review :
    legacyStore.dir = pathOf ["m"] ∧ LogsApart ["m"] historyWorld ∧
      ∃ w', (legacyStore.write reviewEpisode).run.run historyWorld = (.ok ("ep-review", reviewStored), w') ∧
        (documentText reviewStored.toJson).utf8ByteSize ≤ maxDocumentBytes ∧
        (∀ d, w'.tree.get? legacyStore.indexPath = some (.file d) → d.size ≤ maxDocumentBytes) ∧
        validId "ep-review" = true ∧
        w'.tree.get? (legacyStore.bodyPath "ep-review" reviewStored.timestamp) =
          some (.file ⟨documentText reviewStored.toJson, 0⟩) ∧
        (legacyStore.get "ep-review").run.run w' = (.ok (some reviewStored), w') := by
  have dir : legacyStore.dir = pathOf ["m"] := by cbv
  have apart : LogsApart ["m"] historyWorld := logsApart_of_quiet rfl
  have prepared : reviewEpisode.prepared historyWorld.now historyWorld.drawn = reviewStored := by
    rw [Episode.prepared_eq]
    rfl
  have passes : firstFailed (reviewEpisode.checks historyWorld.now historyWorld.drawn) = none := by decide +kernel
  have made : historyWorld.tree.mkdirAll (parent legacyStore.indexPath) = .ok historyWorld.tree := by
    rw [Store.indexPath_eq plain_m dir, parent_pathOf plain_m (by decide), mkdirAll_of_dirsTo plain_m dirsTo_historyWorld]
  have lockFile : historyWorld.tree.get? (lockPath legacyStore.indexPath) = some (.file ⟨"", 0⟩) := by
    rw [Store.lockPath_indexPath plain_m dir]
    simp [pathOf, historyWorld, Disk.Tree.get?]
  have file : fetch historyWorld.tree legacyStore.indexPath = .ok (some (documentText historyIndex.toJson)) := by
    decide +kernel
  have read := Store.run_readIndex_stored legacyStore historyWorld file historyIndex_storable (by decide +kernel)
  rcases body : historyWorld.tree.replaceFile (legacyStore.bodyPath reviewStored.id reviewStored.timestamp)
      (documentText reviewStored.toJson) with _ | t₁
  · have placed : (historyWorld.tree.replaceFile (legacyStore.bodyPath reviewStored.id reviewStored.timestamp)
        (documentText reviewStored.toJson)).isOk = true := by decide +kernel
    rw [body] at placed
    cases placed
  rcases index : t₁.replaceFile legacyStore.indexPath (documentText (historyIndex.add reviewStored.summary).toJson)
      with _ | t₂
  · have placed : ((historyWorld.tree.replaceFile (legacyStore.bodyPath reviewStored.id reviewStored.timestamp)
        (documentText reviewStored.toJson)).bind fun t =>
          t.replaceFile legacyStore.indexPath (documentText (historyIndex.add reviewStored.summary).toJson)).isOk = true := by
      decide +kernel
    rw [body, Except.bind, index] at placed
    cases placed
  obtain ⟨log, wrote⟩ := Store.write_stored legacyStore (w := historyWorld) passes rfl made lockFile rfl read
    (by rw [prepared]; decide +kernel) (by rw [prepared]; decide +kernel) (by rw [prepared]; exact body)
    (by rw [prepared]; exact index)
  rw [prepared] at wrote
  have bodySmall : (documentText reviewStored.toJson).utf8ByteSize ≤ maxDocumentBytes := by decide +kernel
  have indexSmall := indexSmall_of_replaced legacyStore (by cbv) index (by decide +kernel)
  obtain ⟨-, -, valid, bodyFile, got⟩ := Store.get_returns_written plain_m dir apart
    (fun k mem => by cases mem; decide) (fun _ none => by cases none) wrote bodySmall indexSmall
  exact ⟨dir, apart, _, wrote, bodySmall, indexSmall, valid, bodyFile, got⟩

/-! ## Beyond the read limit -/

/-- An episode store at `/m` that holds nothing but the lock file of its index. -/
def emptyStoreWorld : World :=
  { tree := ⟨[("/", .dir), ("/m", .dir), ("/m/index.json.lock", .file ⟨"", 0⟩)]⟩,
    now := Clock.Instant.ofCivil 2025 1 15 12 0 0 }

theorem dirsTo_emptyStoreWorld : emptyStoreWorld.tree.DirsTo ["m"] := by
  intro i le
  simp only [List.length_cons, List.length_nil, zero_add] at le
  interval_cases i <;> cbv

theorem index_emptyStoreWorld : emptyStoreWorld.tree.get? (pathOf (["m"] ++ ["index.json"])) = none := by
  have key : pathOf (["m"] ++ ["index.json"]) = "/m/index.json" := by cbv
  rw [key]
  simp [Tree.get?, emptyStoreWorld]

/-- A task of 64 MiB of the letter `a`. -/
def largeTask : String := String.ofList (List.replicate maxDocumentBytes 'a')

/-- An episode with its own identifier whose task alone is as large as a read takes. -/
def largeEpisode : Episode := { id := "ep-1", task := largeTask }

theorem length_largeTask : largeTask.length = maxDocumentBytes := by
  rw [largeTask, String.length_ofList, List.length_replicate]

theorem isBlankText_largeTask : Text.isBlankText largeTask = false := by
  have positive : 0 < maxDocumentBytes := by decide
  simp [Text.isBlankText, largeTask, List.all_replicate, Nat.pos_iff_ne_zero.mp positive, Text.isBlank]

theorem summary_largeEpisode :
    (largeEpisode.prepared emptyStoreWorld.now emptyStoreWorld.drawn).summary =
      { id := "ep-1", timestamp := emptyStoreWorld.now.utc, task := String.ofList (List.replicate 100 'a'),
        importance := defaultImportance, tags := some [] } := by
  have cut : truncate largeTask summaryTaskLength = String.ofList (List.replicate 100 'a') := by
    have long : ¬ largeTask.length ≤ summaryTaskLength := by
      rw [length_largeTask]
      decide
    rw [truncate, if_neg long, largeTask, String.toList_ofList, List.take_replicate]
    rfl
  rw [Episode.prepared_eq, Episode.summary]
  simp only [largeEpisode, cut]
  rfl

/-- An episode whose task is 64 MiB long is written to the empty store, and then cannot be
read back: its body is over the size a read takes, and reading its identifier fails. -/
theorem large_episode_written_unread :
    ∃ e w', (legacyStore.write largeEpisode).run.run emptyStoreWorld = (.ok ("ep-1", e), w') ∧
      maxDocumentBytes < (documentText e.toJson).utf8ByteSize ∧
      ∃ msg, (legacyStore.get "ep-1").run.run w' = (.error ⟨.documentTooLarge, msg⟩, w') := by
  have dir : legacyStore.dir = pathOf ["m"] := by cbv
  have apart : LogsApart ["m"] emptyStoreWorld := logsApart_of_quiet rfl
  have id : (largeEpisode.prepared emptyStoreWorld.now emptyStoreWorld.drawn).id = "ep-1" := by
    rw [Episode.prepared_eq]
    rfl
  have stamp : (largeEpisode.prepared emptyStoreWorld.now emptyStoreWorld.drawn).timestamp =
      emptyStoreWorld.now.utc := by
    rw [Episode.prepared_eq]
    rfl
  have passes : firstFailed (largeEpisode.checks emptyStoreWorld.now emptyStoreWorld.drawn) = none := by
    simp only [Episode.checks, show largeEpisode.task = largeTask from rfl, isBlankText_largeTask, Bool.not_false,
      firstFailed_pass]
    decide +kernel
  have draws : largeEpisode.draws = false := by
    simp only [Episode.draws, show largeEpisode.task = largeTask from rfl, isBlankText_largeTask]
    rfl
  have made : emptyStoreWorld.tree.mkdirAll (parent legacyStore.indexPath) = .ok emptyStoreWorld.tree := by
    rw [Store.indexPath_eq plain_m dir, parent_pathOf plain_m (by decide), mkdirAll_of_dirsTo plain_m dirsTo_emptyStoreWorld]
  have lockFile : emptyStoreWorld.tree.get? (lockPath legacyStore.indexPath) = some (.file ⟨"", 0⟩) := by
    have key : pathOf (["m"] ++ ["index.json.lock"]) = "/m/index.json.lock" := by cbv
    rw [Store.lockPath_indexPath plain_m dir, key]
    simp [Tree.get?, emptyStoreWorld]
  have read : legacyStore.readIndex.run.run emptyStoreWorld = (.ok ({}, false), emptyStoreWorld) := by
    refine Store.run_readIndex_missing _ _ ?_
    rw [Store.indexPath_eq plain_m dir]
    exact fetch_of_get?_none plain_m (by decide) dirsTo_emptyStoreWorld index_emptyStoreWorld
  -- both files are put in place whatever they hold, so the texts are never computed
  have placed : ((emptyStoreWorld.tree.replaceFile
      (legacyStore.bodyPath (largeEpisode.prepared emptyStoreWorld.now emptyStoreWorld.drawn).id
        (largeEpisode.prepared emptyStoreWorld.now emptyStoreWorld.drawn).timestamp)
      (documentText (largeEpisode.prepared emptyStoreWorld.now emptyStoreWorld.drawn).toJson)).bind fun t =>
        t.replaceFile legacyStore.indexPath
          (documentText (({} : Index).add (largeEpisode.prepared emptyStoreWorld.now emptyStoreWorld.drawn).summary).toJson)).isOk = true := by
    rw [id, stamp]
    decide +kernel
  rcases body : emptyStoreWorld.tree.replaceFile
      (legacyStore.bodyPath (largeEpisode.prepared emptyStoreWorld.now emptyStoreWorld.drawn).id
        (largeEpisode.prepared emptyStoreWorld.now emptyStoreWorld.drawn).timestamp)
      (documentText (largeEpisode.prepared emptyStoreWorld.now emptyStoreWorld.drawn).toJson) with _ | t₁
  · rw [body] at placed
    cases placed
  rcases index : t₁.replaceFile legacyStore.indexPath
      (documentText (({} : Index).add (largeEpisode.prepared emptyStoreWorld.now emptyStoreWorld.drawn).summary).toJson)
      with _ | t₂
  · rw [body, Except.bind, index] at placed
    cases placed
  obtain ⟨log, wrote⟩ := Store.write_stored legacyStore (w := emptyStoreWorld) passes rfl made lockFile rfl
    (by simp only [draws, Bool.false_eq_true, if_false]; exact read) rfl
    (by rw [stamp]; decide +kernel) body index
  rw [id] at wrote
  have large : maxDocumentBytes < (documentText (largeEpisode.prepared emptyStoreWorld.now emptyStoreWorld.drawn).toJson).utf8ByteSize := by
    have task : (largeEpisode.prepared emptyStoreWorld.now emptyStoreWorld.drawn).task = largeTask := by
      rw [Episode.prepared_eq]
      rfl
    calc maxDocumentBytes = (largeEpisode.prepared emptyStoreWorld.now emptyStoreWorld.drawn).task.length := by
          rw [task, length_largeTask]
      _ < (documentText (largeEpisode.prepared emptyStoreWorld.now emptyStoreWorld.drawn).toJson).length :=
          Episode.task_length_lt_documentText _
      _ ≤ _ := Text.length_le_utf8ByteSize _
  have indexSmall := indexSmall_of_replaced legacyStore (by cbv) index (by rw [summary_largeEpisode]; decide +kernel)
  have unread := Store.get_fails_written_large plain_m dir apart wrote large indexSmall
  exact ⟨_, _, wrote, large, unread⟩

end Episodic
end AgentMemory
