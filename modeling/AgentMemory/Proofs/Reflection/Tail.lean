import Mathlib
import AgentMemory.Reflection.Executor
import AgentMemory.Proofs.Storage.Run
import AgentMemory.Proofs.Text.Lines
import AgentMemory.Proofs.Disk.Tree

namespace AgentMemory
namespace Reflection

open Storage

/-!
# The tail of the reflection log

The status of the cold path shows the last lines of the reflection log.  They are read
in one pass into a ring of at most `n` lines: empty lines are skipped, and once the ring
is full its oldest line makes room for each new one.  The ring then holds the last
`min n k` of the `k` non-empty lines read so far (`foldl_ringPush`), so the pass ends
with the last `n` non-empty lines of the log, oldest first (`tailLines_reads_last`).

The ring needs room for one line: with `n = 0` a full ring would still take the new line.
The reading stops at a line of a mebibyte or more, which the scanner's buffer cannot hold
(`long_line_stops_tailLines`).
-/

/-- A line pushed into a ring holding the last `n` lines of a list gives the last `n`
lines of the list with that line added, when it is not empty. -/
theorem ringPush_rtake {n : Nat} (pos : 0 < n) (kept : List String) (line : String) :
    ringPush n (kept.rtake n) line = (kept ++ [line].filter (fun l => !l.isEmpty)).rtake n := by
  obtain ⟨m, rfl⟩ := Nat.exists_eq_add_of_lt pos
  unfold ringPush
  by_cases empty : line.isEmpty = true
  · simp [empty]
  · have pushed : [line].filter (fun l => !l.isEmpty) = [line] := by simp [empty]
    rw [if_neg empty, pushed, Nat.zero_add, List.rtake_concat_succ]
    congr 1
    unfold List.rtake
    split
    · -- a full ring drops its oldest line
      rename_i full
      simp only [List.length_drop] at full
      rw [List.tail_drop]
      congr 1
      omega
    · -- a ring that is not full holds the whole list
      rename_i room
      simp only [List.length_drop] at room
      congr 1
      omega

/-- Reading lines into a ring that holds the last `n` non-empty lines read so far leaves
the last `n` non-empty lines of all of them. -/
theorem foldl_ringPush {n : Nat} (pos : 0 < n) (kept lines : List String) :
    lines.foldl (ringPush n) (kept.rtake n) = (kept ++ lines.filter (fun l => !l.isEmpty)).rtake n := by
  -- induction on the lines read, the lines kept before them generalized
  induction lines generalizing kept with
  | nil => simp
  | cons line rest ih =>
    rw [List.foldl_cons, ringPush_rtake pos, ih, List.append_assoc, ← List.filter_append, List.singleton_append]

theorem foldl_ringPush_nil {n : Nat} (pos : 0 < n) (lines : List String) :
    lines.foldl (ringPush n) [] = (lines.filter (fun l => !l.isEmpty)).rtake n := by
  simpa using foldl_ringPush pos [] lines

/-- The tail of a log file that scans gives what the ring keeps of its lines, and changes
nothing. -/
theorem run_tailLines_scanned {w : World} {path : String} {d : Disk.FileData} {lines : List String} (n : Nat)
    (found : w.tree.look "open" path = .ok (.file d))
    (scanned : Text.scanLines maxLogLineBytes d.contents = .ok lines) :
    (tailLines path n).run.run w = (.ok (lines.foldl (ringPush n) []), w) := by
  unfold tailLines
  rw [run_bind, run_files]
  simp only [found, pure_bind, scanned]
  rfl

theorem run_tailLines_unscanned {w : World} {path : String} {d : Disk.FileData} {m : String} (n : Nat)
    (found : w.tree.look "open" path = .ok (.file d))
    (stopped : Text.scanLines maxLogLineBytes d.contents = .error m) :
    (tailLines path n).run.run w = (.error (Failure.plain m), w) := by
  unfold tailLines
  rw [run_bind, run_files]
  simp only [found, pure_bind, stopped]
  rfl

theorem run_tailLines_missing {w : World} {path : String} {e : Disk.IoError} (n : Nat)
    (missing : w.tree.look "open" path = .error e) (notFound : e.reason = .notFound) :
    (tailLines path n).run.run w = (.ok [], w) := by
  unfold tailLines
  rw [run_bind, run_files]
  simp only [missing, notFound]
  rfl

/-- Reading the last `n` lines of a log, for a positive `n`: a log whose lines are all
shorter than a mebibyte gives its last `n` non-empty lines as the scanner reads them,
oldest first, and a missing log gives none; the world is left as it was. -/
theorem tailLines_reads_last {w : World} {path : String} {n : Nat} (pos : 0 < n) :
    (∀ d, w.tree.look "open" path = .ok (.file d) →
      (∀ p ∈ Text.linePieces d.contents, p.utf8ByteSize < maxLogLineBytes) →
      (tailLines path n).run.run w =
        (.ok ((((Text.linePieces d.contents).map Text.dropReturn).filter (fun l => !l.isEmpty)).rtake n), w)) ∧
    (∀ e, w.tree.look "open" path = .error e → e.reason = .notFound →
      (tailLines path n).run.run w = (.ok [], w)) := by
  refine ⟨fun d found short => ?_, fun e missing notFound => run_tailLines_missing n missing notFound⟩
  rw [run_tailLines_scanned n found (Text.scanLines_of_short short), foldl_ringPush_nil pos]

/-- A world whose one file is a log at `/r.log` holding `text`. -/
def logWorld (text : String) : World :=
  { tree := ⟨[("/", .dir), ("/r.log", .file ⟨text, 0⟩)]⟩, now := default }

theorem look_logWorld (text : String) :
    (logWorld text).tree.look "open" (Disk.pathOf ["r.log"]) = .ok (.file ⟨text, 0⟩) := by
  have dirs : (logWorld text).tree.DirsTo [] := by
    intro i le
    rw [Nat.le_zero.mp le]
    rfl
  exact @Disk.Tree.look_child_of_get? _ [] (by simp) "r.log" (by decide) dirs "open" _ rfl

/-- A log of four lines, one of them empty and one ending with a carriage return. -/
def shortLog : String := Text.joinLines ["one", "", "two\r", "three"]

/-- The last two lines of the short log are its last two non-empty lines, the carriage
return dropped. -/
theorem tailLines_reads_last_two :
    0 < 2 ∧ (tailLines (Disk.pathOf ["r.log"]) 2).run.run (logWorld shortLog) =
      (.ok ["two", "three"], logWorld shortLog) := by
  have pieces : Text.linePieces shortLog = ["one", "", "two\r", "three"] :=
    Text.linePieces_joinLines (by decide +kernel)
  have short : ∀ p ∈ Text.linePieces (Disk.FileData.contents ⟨shortLog, 0⟩), p.utf8ByteSize < maxLogLineBytes := by
    rw [show Disk.FileData.contents ⟨shortLog, 0⟩ = shortLog from rfl, pieces]
    decide +kernel
  have read := (tailLines_reads_last (by decide : 0 < 2)).1 _ (look_logWorld shortLog) short
  rw [show Disk.FileData.contents ⟨shortLog, 0⟩ = shortLog from rfl, pieces] at read
  refine ⟨by decide, read.trans ?_⟩
  congr 2
  decide +kernel

/-- A mebibyte of the letter `a`: one byte more than the longest line the scanner takes. -/
def mebibyteLine : String := String.ofList (List.replicate maxLogLineBytes 'a')

/-- A log whose first line is a mebibyte long cannot be read, although no line is longer
than a mebibyte: the tail fails with the scanner's error instead of giving the last line. -/
theorem long_line_stops_tailLines :
    mebibyteLine.utf8ByteSize = 1024 * 1024 ∧
      (tailLines (Disk.pathOf ["r.log"]) 1).run.run (logWorld (Text.joinLines [mebibyteLine, "last"])) =
        (.error (Failure.plain "bufio.Scanner: token too long"), logWorld (Text.joinLines [mebibyteLine, "last"])) := by
  have size : mebibyteLine.utf8ByteSize = maxLogLineBytes := by
    rw [mebibyteLine, String.utf8ByteSize_ofList, Text.utf8Len_replicate, show 'a'.utf8Size = 1 from rfl,
      Nat.mul_one]
  have single : ∀ l ∈ [mebibyteLine, "last"], '\n' ∉ l.toList := by
    intro l mem
    rcases List.mem_pair.mp mem with rfl | rfl
    · simp [mebibyteLine]
    · decide
  have stopped := Text.scanLines_joinLines_long single List.mem_cons_self size.ge
  exact ⟨size, run_tailLines_unscanned 1 (look_logWorld _) stopped⟩

end Reflection
end AgentMemory
