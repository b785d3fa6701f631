import AgentMemory.Logging.Encoder
import AgentMemory.Disk.Tree

namespace AgentMemory
namespace Logging

/-!
# Loggers

A logger is opened from its set-up: the set-up is checked, the log file's directory is
made and the file created, and at least one output must be there.  A telemetry output
is there only when an exporter is given; it records nothing that is read back, and
it enables no level.

Writing an entry goes through the level, then sampling, then the redactor, and the
entry is written to each output: the standard error stream in the set-up's format
and the file as JSON lines.  Every entry starts with the static fields, sorted by
name.  What has been written is kept in a `Written` value, with the sampling counts.

How a field's value reaches the encoder, the encoders themselves and the sampler's count
are the logging library's (`Library`); a logger is opened on one, and `Logger.open` uses
the package's.
-/

/-- Whether the `n`-th entry of a message in a tick is kept. -/
def Rate.keeps (r : Rate) (n : Nat) : Bool :=
  n ≤ r.initial || (r.thereafter > 0 && (n - r.initial) % r.thereafter == 0)

/-- The counts of entries per level and message in the current tick. -/
abbrev Counts := List ((Int × String) × Nat)

/-- Count an entry of a level and message: whether it is kept, and the counts after it. -/
def countEntry (r : Rate) (seen : Counts) (key : Int × String) : Bool × Counts :=
  let n := ((seen.find? (·.1 == key)).map Prod.snd).getD 0 + 1
  let seen := if seen.any (·.1 == key) then seen.map (fun s => if s.1 == key then (key, n) else s)
    else seen ++ [(key, n)]
  (r.keeps n, seen)

/-- What writing entries takes from the logging library: how a field's value reaches the
encoder, the encoders of JSON lines and of console lines, and the sampler's count. -/
structure Library where
  reach : Value → Reached
  json : Level → String → List Field → Layout → Stamp → String
  console : Level → String → List Field → Layout → Stamp → String
  count : Rate → Counts → Int × String → Bool × Counts

def Library.standard : Library := ⟨reachOf, jsonLine, consoleLine, countEntry⟩

instance : Inhabited Library := ⟨Library.standard⟩

/-- An opened logger. -/
structure Logger where
  options : Options
  redactor : Redactor
  /-- Whether a telemetry output is attached. -/
  telemetry : Bool := false
  library : Library := Library.standard
deriving Inhabited

/-- What loggers have written so far. -/
structure Written where
  stderr : List String := []
  file : List String := []
  /-- Entries seen per level and message in the current tick. -/
  seen : Counts := []
deriving Inhabited

/-- Open a logger on a library, making the log file's directory and the file in the tree. -/
def Logger.openWith (lib : Library) (o : Options) (exporter : Bool) (tree : Disk.Tree) :
    Except String (Logger × Disk.Tree) := do
  match o.validate with
  | .error m => throw ("invalid config: " ++ m)
  | .ok () => pure ()
  let tree ← if o.file.isEmpty then pure tree
    else
      match tree.mkdirAll (Disk.parent o.file) with
      | .error e => throw ("failed to create core: failed to create log directory: " ++ e.message)
      | .ok t =>
        match t.get? (Disk.clean o.file) with
        | some (.file _) => pure t
        | _ =>
          match t.writeFile o.file ⟨"", 0⟩ with
          | .ok t => pure t
          | .error e => throw ("failed to create core: failed to open log file: " ++ e.message)
  let attached := o.otel && exporter
  if !o.stderr && o.file.isEmpty && !attached then
    throw "failed to create core: at least one output must be enabled and available"
  return ({ options := o, redactor := Redactor.ofSettings o.redaction, telemetry := attached, library := lib }, tree)

/-- Open a logger on the package's logging library. -/
def Logger.open (o : Options) (exporter : Bool) (tree : Disk.Tree) : Except String (Logger × Disk.Tree) :=
  Logger.openWith Library.standard o exporter tree

namespace Logger

/-- Whether entries of a level are written anywhere. -/
def enabled (l : Logger) (level : Level) : Bool :=
  (l.options.stderr || !l.options.file.isEmpty) && level.atLeast l.options.level

/-- Whether sampling may drop entries of a level. -/
def sampledRate (l : Logger) (level : Level) : Option Rate :=
  if !l.options.sampling.enabled || level.atLeast Level.error then none
  else (l.options.sampling.rates.find? (·.1.rank == level.rank)).map Prod.snd

/-- Whether entries of a level carry a stack trace. -/
def carriesStack (l : Logger) (level : Level) : Bool :=
  l.options.stacktrace.rank != 0 && level.atLeast l.options.stacktrace

def staticFields (l : Logger) : List Field :=
  (l.options.fields.mergeSort (fun a b => decide (a.1 ≤ b.1))).map fun kv => Field.text kv.1 kv.2

/-- Count an entry for sampling: whether it is kept, and the counts after it. -/
def sample (l : Logger) (w : Written) (level : Level) (message : String) : Bool × Written :=
  match l.sampledRate level with
  | none => (true, w)
  | some r =>
    let (keep, seen) := l.library.count r w.seen (level.rank, message)
    (keep, { w with seen := seen })

/-- Write a kept entry to each output, its message and fields as the redactor shows them. -/
def record (l : Logger) (w : Written) (e : Entry) (stamp : Stamp) : Written :=
  let message := l.redactor.text e.message
  let fields := (l.staticFields ++ e.fields).map (l.redactor.field l.library.reach)
  let lay : Layout := { name := e.logger, caller := l.options.caller,
                        stack := if l.carriesStack e.level then some stamp.stack else none }
  let w := if l.options.stderr then
      let line := if l.options.format == "console" then l.library.console e.level message fields lay stamp
        else l.library.json e.level message fields lay stamp
      { w with stderr := w.stderr ++ [line] }
    else w
  if l.options.file.isEmpty then w
  else { w with file := w.file ++ [l.library.json e.level message fields lay stamp] }

/-- Write an entry. -/
def write (l : Logger) (w : Written) (e : Entry) (stamp : Stamp) : Written :=
  if !l.enabled e.level then w
  else
    let (keep, w) := l.sample w e.level e.message
    if !keep then w else l.record w e stamp

end Logger
end Logging
end AgentMemory
