import AgentMemory.Reasoning.Log
import AgentMemory.Proofs.Json.Compact
import AgentMemory.Proofs.Json.Records
import AgentMemory.Proofs.Text.Lines
import AgentMemory.Proofs.Storage.Files

namespace AgentMemory
namespace Reasoning

open Storage Disk Tree Json

/-!
# Reading back what a reasoning log holds

An agent's reasoning log is a file of lines, one compact document per line.  The store
appends a line for every entry it stores; other writers may add lines of their own.  When
reading, every line is trimmed, and a line that decodes to an entry of type `reasoning` is
kept, the others passed over (`reasoningOf?`).

An entry's line reads back as the entry (`reasoningOf?_line`): a compact document is one
line with no blank at its ends, it parses back to the tree that was written, and the
record reader takes every member back, the time through RFC 3339 in UTC.
-/

/-- What reading makes of one line of a log: the entry it holds, when it holds one of type
`reasoning`. -/
def reasoningOf? (line : String) : Option Entry :=
  let line := Text.trimBlank line
  if line.isEmpty then none
  else ((Json.parseDocument line >>= Entry.read).toOption).filter (·.kind == entryType)

/-! ## Reading an entry back -/

theorem integral_toJson (e : Entry) : Integral e.toJson :=
  ⟨trivial, trivial, trivial, trivial, integral_ofInt _, trivial, trivial⟩

theorem parseFirst_rfc3339 {t : Clock.Instant} (writable : t.writable) (minutes : t.offset % 60 = 0) :
    Clock.Instant.parseFirst timestampLayouts t.rfc3339 = some t.utc := by
  have same : (Clock.Instant.rfc3339Layout == Clock.Instant.rfc3339Layout) = true := by decide
  simp [Clock.Instant.parseFirst, timestampLayouts, same, Clock.Instant.parseRfc3339_rfc3339 t writable minutes]

/-- An entry with a 64-bit character count and a time written in UTC reads back from its
document, member by member. -/
theorem Entry.read_toJson (e : Entry) (fits : Fits64 e.charCount) (writable : e.timestamp.writable)
    (utc : e.timestamp.offset = 0) : Entry.read e.toJson = .ok e := by
  simp only [Entry.read, Entry.toJson]
  rw [readRecord_cons rfl rfl, readRecord_cons rfl rfl, readRecord_cons rfl rfl, readRecord_cons rfl rfl,
    readRecord_cons rfl (by simp [readInt_ofInt fits]; rfl), readRecord_cons rfl rfl, readRecord_nil]
  simp [parseFirst_rfc3339 writable (by simp [utc]), Clock.Instant.utc_eq_self utc]

/-! ## The line of an entry -/

theorem newline_not_mem_line (e : Entry) : '\n' ∉ (compact e.toJson).toList :=
  newline_not_mem_compactWith .document e.toJson (integral_toJson e).spelled

theorem toList_line (e : Entry) : ∃ members, (compact e.toJson).toList = '{' :: (members ++ ['}']) :=
  ⟨_, toList_compactWith_obj _ _⟩

theorem line_ne_empty (e : Entry) : compact e.toJson ≠ "" := by
  obtain ⟨members, chars⟩ := toList_line e
  intro empty
  rw [empty] at chars
  simp at chars

theorem trimBlank_line (e : Entry) : Text.trimBlank (compact e.toJson) = compact e.toJson := by
  obtain ⟨members, chars⟩ := toList_line e
  apply Text.trimBlank_eq_self
  · rw [chars]
    simp only [List.head?_cons, Option.mem_def, Option.some_inj]
    rintro c rfl
    decide
  · rw [chars, ← List.cons_append, List.getLast?_concat]
    simp only [Option.mem_def, Option.some_inj]
    rintro c rfl
    decide

theorem dropReturn_line (e : Entry) : Text.dropReturn (compact e.toJson) = compact e.toJson := by
  obtain ⟨members, chars⟩ := toList_line e
  apply Text.dropReturn_eq_self
  rw [chars, ← List.cons_append, List.getLast?_concat]
  decide

theorem content_length_le_line (e : Entry) : e.content.length ≤ (compact e.toJson).length := by
  have quoted := (length_lt_quote .document e.content).le
  simp only [compact, Entry.toJson, compactWith, compactFields, String.length_append] at quoted ⊢
  omega

/-- What the reader makes of an entry's line: the entry itself, when it is a reasoning
entry with a 64-bit character count and a time written in UTC. -/
theorem reasoningOf?_line {e : Entry} (reasoning : e.kind = entryType) (fits : Fits64 e.charCount)
    (writable : e.timestamp.writable) (utc : e.timestamp.offset = 0) : reasoningOf? (compact e.toJson) = some e := by
  simp [reasoningOf?, trimBlank_line, line_ne_empty, parseDocument_compact _ (integral_toJson e).spelled,
    Entry.read_toJson e fits writable utc, reasoning, Except.toOption]

theorem reasoningOf?_other {e : Entry} (other : e.kind ≠ entryType) (fits : Fits64 e.charCount)
    (writable : e.timestamp.writable) (utc : e.timestamp.offset = 0) : reasoningOf? (compact e.toJson) = none := by
  simp [reasoningOf?, trimBlank_line, line_ne_empty, parseDocument_compact _ (integral_toJson e).spelled,
    Entry.read_toJson e fits writable utc, other, Except.toOption]

/-! ## Reading a log -/

theorem readLine_fst (acc : List Entry × Nat) (line : String) :
    (readLine acc line).1 = acc.1 ++ (reasoningOf? line).toList := by
  unfold readLine reasoningOf?
  dsimp only
  split
  · simp
  · cases decoded : (Json.parseDocument (Text.trimBlank line) >>= Entry.read) with
    | error => simp [Except.toOption]
    | ok e => by_cases kind : e.kind = entryType <;> simp [Except.toOption, Option.filter, kind]

theorem foldl_readLine (lines : List String) (acc : List Entry × Nat) :
    (lines.foldl readLine acc).1 = acc.1 ++ lines.filterMap reasoningOf? := by
  induction lines generalizing acc with
  | nil => simp
  | cons line lines ih =>
    rw [List.foldl_cons, ih, readLine_fst, List.filterMap_cons]
    cases reasoningOf? line <;> simp

/-- Each entry was stored strictly later than the ones before it. -/
def Ascending (entries : List Entry) : Prop := entries.Pairwise (fun a b => b.timestamp.after a.timestamp)

theorem Ascending.eq_of_same {entries : List Entry} (ascending : Ascending entries) {a b : Entry}
    (ma : a ∈ entries) (mb : b ∈ entries) (same : a.timestamp.nanos = b.timestamp.nanos) : a = b := by
  induction entries with
  | nil => simp at ma
  | cons x xs ih =>
    obtain ⟨later, rest⟩ := List.pairwise_cons.mp ascending
    rcases List.mem_cons.mp ma with rfl | inA <;> rcases List.mem_cons.mp mb with rfl | inB
    · rfl
    · have := later b inB
      simp only [Clock.Instant.after, decide_eq_true_eq] at this
      omega
    · have := later a inA
      simp only [Clock.Instant.after, decide_eq_true_eq] at this
      omega
    · exact ih rest inA inB

theorem notOlder_iff (a b : Entry) : (!b.timestamp.after a.timestamp) = true ↔ b.timestamp.nanos ≤ a.timestamp.nanos := by
  simp [Clock.Instant.after]

theorem newestFirst_of_ascending {entries : List Entry} (ascending : Ascending entries) :
    newestFirst entries = entries.reverse := by
  have trans : ∀ a b c : Entry, (!b.timestamp.after a.timestamp) = true → (!c.timestamp.after b.timestamp) = true →
      (!c.timestamp.after a.timestamp) = true := by
    intro a b c ab bc
    rw [notOlder_iff] at ab bc ⊢
    omega
  have total : ∀ a b : Entry, ((!b.timestamp.after a.timestamp) || (!a.timestamp.after b.timestamp)) = true := by
    intro a b
    rw [Bool.or_eq_true, notOlder_iff, notOlder_iff]
    omega
  -- the reversed list is sorted newest first as well, and sorting is a permutation
  have reversed : entries.reverse.Pairwise (fun a b => (!b.timestamp.after a.timestamp) = true) := by
    rw [List.pairwise_reverse]
    refine ascending.imp fun {a b} later => ?_
    simp only [Clock.Instant.after, decide_eq_true_eq] at later
    rw [notOlder_iff]
    omega
  refine List.Perm.eq_of_pairwise (fun a b ma mb ab ba => ?_) (List.pairwise_mergeSort trans total entries)
    reversed ((List.mergeSort_perm _ _).trans (List.reverse_perm _).symm)
  rw [notOlder_iff] at ab ba
  exact ascending.eq_of_same (List.mem_mergeSort.mp ma) (List.mem_reverse.mp mb) (by omega)

/-! ## Where the log lies -/

theorem plain_logName : Plain "episodes.jsonl" := ⟨by decide, by decide, by decide, by decide⟩

theorem plain_episodic : Plain "episodic" := ⟨by decide, by decide, by decide, by decide⟩

/-- An accepted agent identifier is a plain name: it is not empty, starts with a letter or
digit, and has no slash. -/
theorem plain_of_validAgent {agent : String} (valid : validAgent agent = true) : Plain agent := by
  unfold validAgent at valid
  split at valid
  · rename_i c rest chars
    simp only [Bool.and_eq_true, Bool.not_eq_true'] at valid
    obtain ⟨⟨first, others⟩, -⟩ := valid
    have notDot : c ≠ '.' := by
      rintro rfl
      exact absurd first (by decide)
    have notSlash : c ≠ '/' := by
      rintro rfl
      exact absurd first (by decide)
    refine ⟨?_, ?_, ?_, ?_⟩
    · rintro rfl
      simp at chars
    · rw [chars]
      intro mem
      rcases List.mem_cons.mp mem with same | later
      · exact notSlash same.symm
      · exact absurd (List.all_eq_true.mp others '/' later) (by decide)
    · rintro rfl
      exact notDot (List.cons.inj chars).1.symm
    · rintro rfl
      exact notDot (List.cons.inj chars).1.symm
  · cases valid

/-- The log of an agent is the file `episodes.jsonl` in the directory through the plain
names `ns`. -/
structure Placed (s : Store) (agent : String) (ns : List String) : Prop where
  plain : ∀ n ∈ ns, Plain n
  path : s.path agent = pathOf (ns ++ ["episodes.jsonl"])

theorem Placed.of_dir {s : Store} {root : List String} (dir : s.dir = pathOf root) (plain : ∀ n ∈ root, Plain n)
    {agent : String} (valid : validAgent agent = true) : Placed s agent (root ++ [agent, "episodic"]) := by
  have names : ∀ n ∈ [agent, "episodic"], Plain n := by
    intro n mem
    rcases List.mem_pair.mp mem with rfl | rfl
    · exact plain_of_validAgent valid
    · exact plain_episodic
  refine ⟨plain_append plain names, ?_⟩
  have all : ∀ n ∈ [agent, "episodic", "episodes.jsonl"], Plain n := by
    intro n mem
    rcases List.mem_cons.mp mem with rfl | rest
    · exact plain_of_validAgent valid
    · rcases List.mem_pair.mp rest with rfl | rfl
      · exact plain_episodic
      · exact plain_logName
  rw [Store.path, dir, joinAll_pathOf plain all]
  simp

/-! ## The log as a list of lines -/

/-- The log in the directory through `ns` holds `lines`: with no lines it may be missing,
with no file on the way to it; else it is a file below existing directories holding each
line closed by a line feed. -/
def Holds (t : Tree) (ns lines : List String) : Prop :=
  (lines = [] ∧ t.get? (pathOf (ns ++ ["episodes.jsonl"])) = none ∧
      ∀ a ∈ ancestors (pathOf (ns ++ ["episodes.jsonl"])), ∀ d, t.get? a ≠ some (.file d)) ∨
    (t.DirsTo ns ∧ t.get? (pathOf (ns ++ ["episodes.jsonl"])) = some (.file ⟨Text.joinLines lines, 0⟩))

section

variable {ns : List String} (plain : ∀ n ∈ ns, Plain n)
include plain

theorem Holds.of_dirsTo {t t₀ : Tree} {lines : List String} (holds : Holds t₀ ns lines) (dirs : t.DirsTo ns)
    (same : t.get? (pathOf (ns ++ ["episodes.jsonl"])) = t₀.get? (pathOf (ns ++ ["episodes.jsonl"]))) :
    Holds t ns lines := by
  rcases holds with ⟨none, missing, -⟩ | ⟨-, present⟩
  · exact Or.inl ⟨none, same.trans missing, dirs.no_file_above plain plain_logName⟩
  · exact Or.inr ⟨dirs, same.trans present⟩

/-- Taking the log's lock makes its directories and adds at most the lock file beside it,
so the log keeps its lines. -/
theorem Holds.locked {t t₀ : Tree} {lines : List String} (holds : Holds t ns lines)
    (locked : Locked t (pathOf (ns ++ ["episodes.jsonl"])) t₀) : Holds t₀ ns lines := by
  obtain ⟨t₁, made, taken⟩ := locked
  rw [parent_pathOf plain plain_logName] at made
  obtain ⟨dirs, kept⟩ := mkdirAll_eq_ok plain made
  have log₁ := kept (pathOf (ns ++ ["episodes.jsonl"])) fun i le =>
    pathOf_ne_of_length_ne (Plain.snoc plain plain_logName) (fun x mem => plain x (List.mem_of_mem_take mem))
      (by simp; omega)
  have holds₁ := holds.of_dirsTo plain dirs log₁
  rcases taken with rfl | rfl
  · exact holds₁
  · refine holds₁.of_dirsTo plain ?_ ?_
    · rw [lockPath_pathOf]
      exact dirs.put_child plain (plain_lock plain_logName) _
    · rw [get?_put, if_neg (lockPath_ne plain plain_logName).symm]

theorem Holds.appendFile {t t' : Tree} {lines : List String} {line : String} (holds : Holds t ns lines)
    (appended : t.appendFile (pathOf (ns ++ ["episodes.jsonl"])) (line ++ "\n") = .ok t') :
    Holds t' ns (lines ++ [line]) := by
  obtain ⟨free, written⟩ := appendFile_eq_ok appended
  rw [clean_pathOf (Plain.snoc plain plain_logName)] at free written
  have dirs := DirsTo.of_blocked? plain plain_logName free
  refine Or.inr ⟨?_, ?_⟩
  · rcases written with ⟨-, rfl⟩ | ⟨d, -, rfl⟩ <;> exact dirs.put_child plain plain_logName _
  · -- a missing log gets the line alone, a present one gets it after its lines
    rcases holds with ⟨rfl, missing, -⟩ | ⟨-, present⟩ <;> rcases written with ⟨absent, rfl⟩ | ⟨d, found, rfl⟩
    · simp [get?_put, Text.joinLines]
    · rw [missing] at found
      cases found
    · rw [present] at absent
      cases absent
    · rw [present] at found
      cases found
      simp [get?_put, Text.joinLines_append, FileData.contents]

end

/-! ## Reading the log -/

/-- What `recent` returns for an agent whose log holds `lines`, each shorter than the
reader's bound: the reasoning entries the lines hold, newest first, up to the limit. -/
theorem Holds.run_recent {s : Store} {agent : String} (valid : validAgent agent = true) {ns : List String}
    (placed : Placed s agent ns) {w : World} {lines : List String} (holds : Holds w.tree ns lines)
    (single : ∀ l ∈ lines, '\n' ∉ l.toList) (short : ∀ l ∈ lines, l.utf8ByteSize < maxLineBytes) (limit : Int) :
    ((s.recent agent limit).run.run w).1 =
      .ok ((newestFirst ((lines.map Text.dropReturn).filterMap reasoningOf?)).take
        (if limit ≤ 0 then defaultLimit else limit.toNat)) := by
  simp only [Store.recent, valid, Bool.not_true, Bool.false_eq_true, if_false]
  rw [run_bind, run_files]
  rcases holds with ⟨rfl, missing, noFile⟩ | ⟨dirs, present⟩
  · -- a missing log reads as no entries
    have looked := look_of_missing (clean_pathOf (Plain.snoc placed.plain plain_logName)) missing noFile "open"
    have reported : (Disk.Reason.notFound == Disk.Reason.notFound) = true := rfl
    simp [placed.path, looked, reported, newestFirst]
    rfl
  · have looked := look_child_of_get? placed.plain plain_logName dirs "open" present
    have contents : (⟨Text.joinLines lines, 0⟩ : FileData).contents = Text.joinLines lines := rfl
    have scanned := Text.scanLines_joinLines single short
    have read : ((lines.map Text.dropReturn).foldl readLine ([], 0)).1 =
        (lines.map Text.dropReturn).filterMap reasoningOf? := by
      rw [foldl_readLine]
      rfl
    simp only [placed.path, looked, run_bind, run_pure, contents, scanned, read]
    -- logging the skipped lines does not change the answer
    split
    · obtain ⟨w', logged⟩ := run_emit s.log .debug "skipped malformed reasoning lines"
        [.text "agent" agent, .int "count" ((lines.map Text.dropReturn).foldl readLine ([], 0)).2] w
      simp only [run_bind, logged, run_pure]
    · rfl

/-- A log holding a line of the reader's bound or more cannot be read: `recent` fails with
the scanner's error, whatever the other lines are. -/
theorem Holds.recent_fails_long {s : Store} {agent : String} (valid : validAgent agent = true) {ns : List String}
    (placed : Placed s agent ns) {w : World} {lines : List String} (holds : Holds w.tree ns lines)
    (single : ∀ l ∈ lines, '\n' ∉ l.toList) {line : String} (mem : line ∈ lines)
    (long : maxLineBytes ≤ line.utf8ByteSize) (limit : Int) :
    ((s.recent agent limit).run.run w).1 =
      .error (Failure.plain ("reading reasoning for " ++ agent ++ ": " ++ Text.tooLong)) := by
  simp only [Store.recent, valid, Bool.not_true, Bool.false_eq_true, if_false]
  rw [run_bind, run_files]
  rcases holds with ⟨rfl, -, -⟩ | ⟨dirs, present⟩
  · cases mem
  · have looked := look_child_of_get? placed.plain plain_logName dirs "open" present
    have contents : (⟨Text.joinLines lines, 0⟩ : FileData).contents = Text.joinLines lines := rfl
    have scanned := Text.scanLines_joinLines_long single mem long
    simp only [placed.path, looked, run_bind, run_pure, contents, scanned, run_fail]

/-! ## Appending -/

/-- A successful append: the agent is accepted, the entry returned is the one built from the
request at the clock's time, which has a written form, and the world after it is the one
where the lock was taken and the entry's line appended to the log; a quiet logger only
adds to the log of the run. -/
theorem Store.run_append_ok {s : Store} {agent taskId project content : String} {w w' : World} {e : Entry}
    (ran : (s.append agent taskId project content).run.run w = (.ok e, w')) (quiet : w.sink = none) :
    validAgent agent = true ∧
      e = { kind := entryType, taskId := taskId, project := project, content := content,
            charCount := content.length, timestamp := w.now } ∧
      e.timestamp.writable ∧
      ∃ t t' log, Locked w.tree (s.path agent) t ∧
        t.appendFile (s.path agent) (compact e.toJson ++ "\n") = .ok t' ∧
        w' = { w with tree := t', log := log } := by
  unfold Store.append at ran
  dsimp only at ran
  by_cases valid : validAgent agent = true
  swap
  · rw [if_pos (by simpa using valid), run_bind, run_fail] at ran
    cases ran
  rw [if_neg (by simp [valid])] at ran
  by_cases blank : Text.isBlankText content = true
  · rw [if_pos blank, run_bind, run_fail] at ran
    cases ran
  rw [if_neg blank, run_bind, run_clock] at ran
  dsimp only at ran
  split at ran
  · rw [run_bind, run_fail] at ran
    cases ran
  rename_i noProblem
  have writable : w.now.writable = true := by
    cases problem : w.now.encodingProblem? with
    | none => simp [Clock.Instant.writable, problem]
    | some p => exact absurd problem (noProblem p)
  obtain ⟨r, w₁, attempted, ran⟩ := run_bind_ok ran
  rw [run_attempt] at attempted
  rcases locked : (withLock (s.path agent) _).run.run w with ⟨_ | u, w₂⟩ <;> rw [locked] at attempted <;>
    cases attempted
  · rw [run_fail] at ran
    cases ran
  obtain ⟨t, lockTaken, body⟩ := run_withLock_ok locked
  rw [run_onFiles] at body
  split at body
  · rename_i t' appended
    cases body
    obtain ⟨log, logged⟩ := run_emit_quiet s.log .info "reasoning stored"
      [.text "agent" agent, .text "task_id" taskId, .int "chars" content.length]
      (w := { w with tree := t' }) quiet
    rw [run_bind, logged] at ran
    dsimp only at ran
    rw [run_pure] at ran
    cases ran
    exact ⟨valid, rfl, writable, t, t', log, lockTaken, appended, rfl⟩
  · cases body

/-- A line another writer may add to a log: one line, shorter than the reader's bound,
that holds no reasoning entry as the reader sees it. -/
structure Foreign (line : String) : Prop where
  single : '\n' ∉ line.toList
  short : line.utf8ByteSize < maxLineBytes
  other : reasoningOf? (Text.dropReturn line) = none

/-- The runs of an agent's log, from a world with no logger open where the log is missing:
successful appends at UTC times later than every entry before, each writing a line shorter
than the reader's bound; lines other writers add; and the clock moving on.  The index is
the list of entries the appends returned. -/
inductive Run (s : Store) (agent : String) : World → List Entry → Prop
  | start {w : World} (quiet : w.sink = none) (missing : w.tree.get? (s.path agent) = none)
      (noFile : ∀ a ∈ ancestors (s.path agent), ∀ d, w.tree.get? a ≠ some (.file d)) : Run s agent w []
  | append {w w' : World} {entries : List Entry} {taskId project content : String} {e : Entry}
      (run : Run s agent w entries) (utc : w.now.offset = 0)
      (later : ∀ e' ∈ entries, w.now.after e'.timestamp = true)
      (ran : (s.append agent taskId project content).run.run w = (.ok e, w'))
      (short : (compact e.toJson).utf8ByteSize < maxLineBytes) : Run s agent w' (entries ++ [e])
  | foreign {w : World} {entries : List Entry} {line : String} {t : Tree} (run : Run s agent w entries)
      (other : Foreign line) (appended : w.tree.appendFile (s.path agent) (line ++ "\n") = .ok t) :
      Run s agent { w with tree := t } entries
  | tick {w : World} {entries : List Entry} (run : Run s agent w entries) (now : Clock.Instant) :
      Run s agent { w with now := now } entries

/-- What a run keeps: no logger is open, and the log holds lines that the reader takes
whole and that hold the entries appended, which were stored at strictly increasing times. -/
structure Logged (ns : List String) (w : World) (entries : List Entry) (lines : List String) : Prop where
  quiet : w.sink = none
  holds : Holds w.tree ns lines
  single : ∀ l ∈ lines, '\n' ∉ l.toList
  short : ∀ l ∈ lines, l.utf8ByteSize < maxLineBytes
  reads : (lines.map Text.dropReturn).filterMap reasoningOf? = entries
  ascending : Ascending entries

section

variable {s : Store} {agent : String} {ns : List String} (placed : Placed s agent ns)
include placed

theorem Logged.start {w : World} (quiet : w.sink = none) (missing : w.tree.get? (s.path agent) = none)
    (noFile : ∀ a ∈ ancestors (s.path agent), ∀ d, w.tree.get? a ≠ some (.file d)) : Logged ns w [] [] := by
  rw [placed.path] at missing noFile
  exact ⟨quiet, Or.inl ⟨rfl, missing, noFile⟩, by simp, by simp, rfl, List.Pairwise.nil⟩

theorem Logged.append {w w' : World} {entries : List Entry} {lines : List String} (logged : Logged ns w entries lines)
    {taskId project content : String} {e : Entry} (utc : w.now.offset = 0)
    (later : ∀ e' ∈ entries, w.now.after e'.timestamp = true)
    (ran : (s.append agent taskId project content).run.run w = (.ok e, w'))
    (short : (compact e.toJson).utf8ByteSize < maxLineBytes) :
    Logged ns w' (entries ++ [e]) (lines ++ [compact e.toJson]) := by
  obtain ⟨-, built, writable, t, t', log, locked, appended, rfl⟩ := Store.run_append_ok ran logged.quiet
  rw [placed.path] at locked appended
  have holds := (logged.holds.locked placed.plain locked).appendFile placed.plain appended
  -- the count of characters is below the line's bytes, far within 64 bits
  have fits : Fits64 e.charCount := by
    have chars := content_length_le_line e
    have bytes := Text.length_le_utf8ByteSize (compact e.toJson)
    have counted : e.charCount = e.content.length := by rw [built]
    unfold maxLineBytes at short
    rw [counted]
    constructor <;> omega
  have reasoning : e.kind = entryType := by rw [built]
  have stamped : e.timestamp = w.now := by rw [built]
  have read : reasoningOf? (Text.dropReturn (compact e.toJson)) = some e := by
    rw [dropReturn_line]
    exact reasoningOf?_line reasoning fits (stamped ▸ writable) (stamped ▸ utc)
  refine ⟨logged.quiet, holds, ?_, ?_, ?_, ?_⟩
  · intro l mem
    rcases List.mem_append.mp mem with old | new
    · exact logged.single l old
    · rw [List.mem_singleton.mp new]
      exact newline_not_mem_line e
  · intro l mem
    rcases List.mem_append.mp mem with old | new
    · exact logged.short l old
    · rw [List.mem_singleton.mp new]
      exact short
  · simp [logged.reads, read]
  · refine List.pairwise_append.mpr ⟨logged.ascending, List.pairwise_singleton _ _, ?_⟩
    intro a inA b inB
    rw [List.mem_singleton.mp inB, stamped]
    exact later a inA

theorem Logged.foreign {w : World} {entries : List Entry} {lines : List String} (logged : Logged ns w entries lines)
    {line : String} (other : Foreign line) {t : Tree}
    (appended : w.tree.appendFile (s.path agent) (line ++ "\n") = .ok t) :
    Logged ns { w with tree := t } entries (lines ++ [line]) := by
  rw [placed.path] at appended
  refine ⟨logged.quiet, logged.holds.appendFile placed.plain appended, ?_, ?_, ?_, logged.ascending⟩
  · intro l mem
    rcases List.mem_append.mp mem with old | new
    · exact logged.single l old
    · rw [List.mem_singleton.mp new]
      exact other.single
  · intro l mem
    rcases List.mem_append.mp mem with old | new
    · exact logged.short l old
    · rw [List.mem_singleton.mp new]
      exact other.short
  · simp [logged.reads, other.other]

theorem Run.logged {w : World} {entries : List Entry} (run : Run s agent w entries) :
    ∃ lines, Logged ns w entries lines := by
  induction run with
  | start quiet missing noFile => exact ⟨[], Logged.start placed quiet missing noFile⟩
  | append _ utc later ran short ih =>
    obtain ⟨lines, logged⟩ := ih
    exact ⟨_, logged.append placed utc later ran short⟩
  | foreign _ other appended ih =>
    obtain ⟨lines, logged⟩ := ih
    exact ⟨_, logged.foreign placed other appended⟩
  | tick _ now ih =>
    -- the relation does not read the clock
    obtain ⟨lines, ⟨quiet, holds, single, short, reads, ascending⟩⟩ := ih
    exact ⟨lines, ⟨quiet, holds, single, short, reads, ascending⟩⟩

end

/-- The round trip of an agent's reasoning log: after any run of successful appends at
strictly increasing UTC times, each writing a line shorter than the reader's bound, with
foreign lines between them, `recent` succeeds and returns the last entries appended, as
the appends returned them, newest first, up to the limit (ten when it is not positive). -/
theorem Run.recent_returns_appended {s : Store} {root : List String} (dir : s.dir = pathOf root)
    (plain : ∀ n ∈ root, Plain n) {agent : String} (valid : validAgent agent = true) {w : World}
    {entries : List Entry} (run : Run s agent w entries) (limit : Int) :
    ((s.recent agent limit).run.run w).1 = .ok (entries.reverse.take (if limit ≤ 0 then 10 else limit.toNat)) := by
  have placed := Placed.of_dir dir plain valid
  obtain ⟨lines, logged⟩ := run.logged placed
  rw [logged.holds.run_recent valid placed logged.single logged.short, logged.reads,
    newestFirst_of_ascending logged.ascending]
  rfl

theorem Run.quiet {s : Store} {agent : String} {w : World} {entries : List Entry} (run : Run s agent w entries) :
    w.sink = none := by
  induction run with
  | start quiet => exact quiet
  | append _ _ _ ran _ ih =>
    obtain ⟨-, -, -, -, -, -, -, -, rfl⟩ := Store.run_append_ok ran ih
    exact ih
  | foreign _ _ _ ih => exact ih
  | tick _ _ ih => exact ih

/-- A run goes on by an append that succeeds where it stands, at a UTC time later than
every entry, whose line fits the reader. -/
theorem Run.append_next {s : Store} {agent : String} {w : World} {entries : List Entry} (run : Run s agent w entries)
    (taskId project content : String) (ok : ((s.append agent taskId project content).run.run w).1.isOk = true)
    (utc : w.now.offset = 0) (later : ∀ e' ∈ entries, w.now.after e'.timestamp = true)
    (short : (compact
      ({ kind := entryType, taskId := taskId, project := project, content := content,
         charCount := content.length, timestamp := w.now } : Entry).toJson).utf8ByteSize < maxLineBytes) :
    Run s agent ((s.append agent taskId project content).run.run w).2
      (entries ++
        [{ kind := entryType, taskId := taskId, project := project, content := content,
           charCount := content.length, timestamp := w.now }]) := by
  obtain ⟨e, w', ran⟩ := run_ok_of_isOk ok
  obtain ⟨-, rfl, -⟩ := Store.run_append_ok ran run.quiet
  rw [ran]
  exact Run.append run utc later ran short

/-- A store below `/m`. -/
def reasoningStore : Store := { dir := "/m" }

def noon : Clock.Instant := Clock.Instant.ofCivil 2025 1 15 12 0 0

theorem plain_m : ∀ n ∈ ["m"], Plain n := by
  intro n mem
  rw [List.mem_singleton.mp mem]
  exact ⟨by decide, by decide, by decide, by decide⟩

/-- A world where only the root directory exists. -/
def bareWorld : World := { tree := ⟨[("/", .dir)]⟩, now := noon }

theorem Tree.appendFile_eq_getD {t : Tree} {p text : String} (ok : (t.appendFile p text).isOk = true) :
    t.appendFile p text = .ok ((t.appendFile p text).toOption.getD t) := by
  cases appended : t.appendFile p text with
  | error e => rw [appended] at ok; cases ok
  | ok t' => rfl

/-- A note another tool keeps in the same log. -/
def noteEntry : Entry := { kind := "note", taskId := "t-1", content := "rotated the log", timestamp := noon }

theorem foreign_noteLine : Foreign (compact noteEntry.toJson) := by
  refine ⟨newline_not_mem_line _, by decide +kernel, ?_⟩
  rw [dropReturn_line]
  exact reasoningOf?_other (by decide) (by decide) (by decide +kernel) rfl

/-- Three appends with the clock moving on between them, and a note of another tool after
the first; reading the last two gives the third and the second appended. -/
theorem recent_returns_appended_session :
    reasoningStore.dir = pathOf ["m"] ∧ validAgent "a" = true ∧
      ∃ w e₁ e₂ e₃, Run reasoningStore "a" w [e₁, e₂, e₃] ∧
        [e₁.content, e₂.content, e₃.content] = ["lint the sources", "run the tests", "update the docs"] ∧
        ((reasoningStore.recent "a" 2).run.run w).1 = .ok [e₃, e₂] := by
  have noFile : ∀ a d, bareWorld.tree.get? a ≠ some (.file d) := by
    intro a d
    simp only [bareWorld, Tree.get?, List.find?]
    split <;> simp
  have start : Run reasoningStore "a" bareWorld [] := .start rfl (by cbv) fun a _ d => noFile a d
  have run₁ := start.append_next "t-1" "core" "lint the sources" (by decide +kernel) rfl (by simp) (by decide +kernel)
  have run₂ := (run₁.tick (Clock.Instant.ofCivil 2025 1 15 12 5 0)).foreign foreign_noteLine
    (Tree.appendFile_eq_getD (by decide +kernel))
  have run₃ := run₂.append_next "t-2" "core" "run the tests" (by decide +kernel) rfl (by decide +kernel)
    (by decide +kernel)
  have run₄ := (run₃.tick (Clock.Instant.ofCivil 2025 1 15 12 10 0)).append_next "t-3" "docs" "update the docs"
    (by decide +kernel) rfl (by decide +kernel) (by decide +kernel)
  exact ⟨rfl, rfl, _, _, _, _, run₄, rfl, Run.recent_returns_appended rfl plain_m rfl run₄ 2⟩

/-- Four mebibytes of the letter `x`: one byte more than the longest line the reader
takes. -/
def fourMebibyteLine : String := String.ofList (List.replicate maxLineBytes 'x')

/-- A world where the log of the agent `a` holds the line of four mebibytes. -/
def longLineWorld : World :=
  { tree := ⟨[("/", .dir), ("/m", .dir), ("/m/a", .dir), ("/m/a/episodic", .dir),
      ("/m/a/episodic/episodes.jsonl", .file ⟨fourMebibyteLine ++ "\n", 0⟩)]⟩, now := noon }

/-- A log whose first line is four mebibytes long cannot be read: an append to it succeeds,
and `recent` then fails with the scanner's error instead of returning the entry. -/
theorem long_line_stops_recent :
    fourMebibyteLine.utf8ByteSize = 4 * 1024 * 1024 ∧
      ∃ e w', (reasoningStore.append "a" "t" "p" "hello").run.run longLineWorld = (.ok e, w') ∧
        ((reasoningStore.recent "a" 0).run.run w').1 =
          .error (Failure.plain "reading reasoning for a: bufio.Scanner: token too long") := by
  have size : fourMebibyteLine.utf8ByteSize = maxLineBytes := by
    rw [fourMebibyteLine, String.utf8ByteSize_ofList, Text.utf8Len_replicate, show 'x'.utf8Size = 1 from rfl,
      Nat.mul_one]
  have placed : Placed reasoningStore "a" ["m", "a", "episodic"] := Placed.of_dir rfl plain_m rfl
  have dirs : longLineWorld.tree.DirsTo ["m", "a", "episodic"] := by
    intro i le
    simp only [List.length_cons, List.length_nil] at le
    interval_cases i <;> rfl
  have joined : Text.joinLines [fourMebibyteLine] = fourMebibyteLine ++ "\n" := by simp [Text.joinLines]
  have holds : Holds longLineWorld.tree ["m", "a", "episodic"] [fourMebibyteLine] := by
    refine Or.inr ⟨dirs, ?_⟩
    rw [joined]
    rfl
  obtain ⟨e, w', ran⟩ := run_ok_of_isOk (x := reasoningStore.append "a" "t" "p" "hello") (w := longLineWorld)
    (by decide +kernel)
  obtain ⟨-, -, -, t, t', log, locked, appended, rfl⟩ := Store.run_append_ok ran rfl
  rw [placed.path] at locked appended
  have after := (holds.locked placed.plain locked).appendFile placed.plain appended
  have single : ∀ l ∈ [fourMebibyteLine, compact e.toJson], '\n' ∉ l.toList := by
    intro l mem
    rcases List.mem_pair.mp mem with rfl | rfl
    · simp [fourMebibyteLine]
    · exact newline_not_mem_line e
  have message : "reading reasoning for " ++ "a" ++ ": " ++ Text.tooLong =
      "reading reasoning for a: bufio.Scanner: token too long" := by decide
  refine ⟨size, e, _, ran, ?_⟩
  rw [after.recent_fails_long rfl placed single List.mem_cons_self size.ge 0, message]

end Reasoning
end AgentMemory
