import AgentMemory.Disk.Tree
import AgentMemory.Clock.Instant
import AgentMemory.Logging.Logger
import AgentMemory.Telemetry.Meter

namespace AgentMemory
namespace Storage

/-!
# The world the memory acts on

Every operation of the memory reads and changes one `World`: the tree of files
under the storage root, the working directory, the clock, the stream of random
identifiers, the locks that other processes hold, the log entries written so far,
the logger that renders them while a program runs, and the meter.

The clock does not move by itself: an operation that asks for the time twice gets
the same answer.  Random identifiers are drawn from a counter: the `n`-th
identifier drawn is sixteen bytes all equal to `n mod 256`, with the version and
variant bits of a random UUID set in bytes 6 and 8.

An `Act` is an operation on the world that may fail.  A failure does not undo
what the operation did before it: a file written before a later step failed stays
written, as it does on a real disk.
-/

/-- An opened logger while a program runs: what it has written so far, and the caller
and stack texts its entries carry. -/
structure Sink where
  logger : Logging.Logger
  written : Logging.Written := {}
  caller : String := ""
  stack : String := ""
deriving Inhabited

/-- The state every operation of the memory reads and changes. -/
structure World where
  tree : Disk.Tree
  /-- The directory relative paths start from. -/
  cwd : String := "/"
  now : Clock.Instant
  /-- How many random identifiers have been drawn. -/
  drawn : Nat := 0
  /-- Documents whose locks are held by someone else. -/
  held : List String := []
  /-- Log entries in the order they were written. -/
  log : List Logging.Entry := []
  /-- The logger of the running program, if one is open. -/
  sink : Option Sink := none
  meter : Telemetry.Meter := {}
deriving Inhabited

/-- An operation on the world that may fail. -/
abbrev Act := ExceptT Failure (StateM World)

def fail {α : Type} (f : Failure) : Act α := throw f

def clock : Act Clock.Instant := do
  return (← get).now

def files : Act Disk.Tree := do
  return (← get).tree

def setFiles (t : Disk.Tree) : Act Unit :=
  modify fun w => { w with tree := t }

/-- Run a file operation on the tree, keeping the changed tree. -/
def onFiles (op : Disk.Tree → Except Disk.IoError Disk.Tree) : Act Unit := do
  match op (← files) with
  | .ok t => setFiles t
  | .error e => throw e.toFailure

/-- The two lower-case hexadecimal digits of a byte. -/
def hexByte (b : Nat) : String :=
  let digit (d : Nat) : Char := if d < 10 then Char.ofNat (48 + d) else Char.ofNat (87 + d)
  String.ofList [digit (b / 16 % 16), digit (b % 16)]

/-- The bytes of the `n`-th random identifier. -/
def uuidBytes (n : Nat) : List Nat :=
  let b := n % 256
  (List.range 16).map fun i =>
    if i == 6 then b % 16 + 64 else if i == 8 then b % 64 + 128 else b

/-- The text of the `n`-th random identifier without its dashes. -/
def uuidHex (n : Nat) : String :=
  String.join ((uuidBytes n).map hexByte)

/-- Draw a random identifier; its first `digits` hexadecimal digits are returned. -/
def freshHex (digits : Nat) : Act String := do
  let w ← get
  let n := w.drawn + 1
  set { w with drawn := n }
  return String.ofList ((uuidHex n).toList.take digits)

/-- An absolute path: a relative one starts from the working directory. -/
def resolve (p : String) : Act String := do
  if Disk.isAbsolute p then return p
  return Disk.clean (Disk.join (← get).cwd p)

/-- Render an entry through the open logger: its standard error lines are kept with
the logger, its file lines are added to the log file at once. -/
def Sink.take (s : Sink) (w : World) (e : Logging.Entry) : World :=
  let stamp : Logging.Stamp := ⟨Logging.isoMillis w.now, s.caller, s.stack⟩
  let fresh := s.logger.write { seen := s.written.seen } e stamp
  let tree :=
    if fresh.file.isEmpty then w.tree
    else (w.tree.appendFile s.logger.options.file (String.join (fresh.file.map (· ++ "\n")))).toOption.getD w.tree
  { w with tree := tree,
           sink := some { s with written := { seen := fresh.seen, stderr := s.written.stderr ++ fresh.stderr,
                                              file := s.written.file ++ fresh.file } } }

/-- Write a log entry on a channel. -/
def emit (ch : Logging.Channel) (level : Logging.Level) (message : String)
    (fields : List Logging.Field := []) : Act Unit :=
  if ch.silent then pure ()
  else modify fun w =>
    let e : Logging.Entry := { level := level, logger := ch.name, message := message,
                               fields := ch.fields ++ fields }
    let w := { w with log := w.log ++ [e] }
    match w.sink with
    | some s => s.take w e
    | none => w

/-- Record a value on an instrument of the meter. -/
def measure (kind : Telemetry.Instrument) (name : String) (attrs : List (String × String))
    (x : Float) : Act Unit :=
  modify fun w => { w with meter := w.meter.record kind name attrs x }

/-- Run an operation, keeping its failure as a value. -/
def attempt {α : Type} (a : Act α) : Act (Except Failure α) := do
  tryCatch (do let v ← a; return .ok v) (fun e => return .error e)

end Storage
end AgentMemory
