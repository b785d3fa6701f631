import AgentMemory.Reflection.Executor

namespace AgentMemory
namespace Reflection

open Storage

/-!
# Watching a directory of transcripts

A watcher runs the cold path on every transcript written to one directory: each
file whose extension is `.jsonl` or `.txt`, in any case, written directly in the
directory, is extracted into an episode once it stops changing, and patterns are
mined after each extraction.  The episode's project is the watcher's project, or the
name of the transcript's directory when the watcher has none.

The watcher's results are values: the transcript's path, the episode, the pattern run
and the failure of either step.
-/

def transcriptExtensions : List String := [".jsonl", ".txt"]

/-- How long a transcript must stay unchanged when the settings give no positive
time. -/
def defaultSettle : Int := 2 * Clock.second

/-- The outcome of processing one transcript. -/
structure WatchResult where
  path : String
  episode : Option Episodic.Episode := none
  patterns : Option PatternRun := none
  error : Option Failure := none
deriving Inhabited

/-- The document form of a result: its path, its episode and pattern run (`null`
when there is none) and its error when there is one. -/
def WatchResult.toJson (r : WatchResult) : Json :=
  .obj ([("path", .str r.path),
    ("episode", match r.episode with | some e => e.toJson | none => .null),
    ("patterns", match r.patterns with | some p => p.toJson | none => .null)] ++
    (match r.error with | some e => [("error", .str e.message)] | none => []))

/-- A watcher of one directory. -/
structure Watcher where
  executor : Executor
  dir : String
  project : String
  log : Logging.Channel
deriving Inhabited

namespace Watcher

/-- A watcher of a directory; it logs on the executor's channel named `watcher`. -/
def create (x : Executor) (dir project : String) : Watcher :=
  ⟨x, dir, project, x.log.named "watcher"⟩

/-- How long a transcript must stay unchanged before it is processed. -/
def settle (w : Watcher) : Int :=
  let d := w.executor.settings.coldPath.watchSettle.nanos
  if d ≤ 0 then defaultSettle else d

def watches (name : String) : Bool :=
  transcriptExtensions.contains (Text.lower (Disk.extension name))

/-- Start watching: the directory must exist. -/
def start (w : Watcher) : Act Unit := do
  match (← files).stat (← resolve w.dir) with
  | .error e => fail (Failure.plain ("watching " ++ w.dir ++ ": " ++ e.reason.text))
  | .ok _ =>
    emit w.log .info "watching transcripts" [.text "dir" w.dir, ⟨"settle", .duration w.settle⟩]

/-- Extract a transcript and mine patterns. -/
def process (w : Watcher) (path : String) : Act WatchResult := do
  let project := if w.project.isEmpty then Disk.base (Disk.parent path) else w.project
  let res : WatchResult := { path := path }
  let res ← match ← attempt (w.executor.extract path project "") with
    | .error e => pure { res with error := some e }
    | .ok ep =>
      match ← attempt w.executor.runPatterns with
      | .error e => pure { res with episode := some ep, error := some e }
      | .ok run => pure { res with episode := some ep, patterns := some run }
  if let some e := res.error then
    emit w.log .warn "transcript processing failed" [.text "path" path, Logging.Field.failure e.message]
  return res

end Watcher
end Reflection
end AgentMemory
