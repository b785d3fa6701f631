import AgentMemory.Json.Value
import AgentMemory.Text.Case
import AgentMemory.Text.Quote
import AgentMemory.Clock.Instant

namespace AgentMemory
namespace Logging

/-!
# Log entries

The memory reports what it does as log entries: a level, the name of the logger
that wrote it, a message and typed fields.  Entries are collected as values; how
they are filtered, redacted and written out is decided by the logger a program
sets up, not by the code that writes them.

Levels are ranked integers.  The named ones run from `trace` (-2) through `debug`,
`info`, `warn` and `error` up to `fatal` (5); any other rank is written
`Level(n)`.
-/

/-- A log level, by rank: a higher rank is more severe. -/
structure Level where
  rank : Int
deriving Inhabited, BEq, Repr, DecidableEq

namespace Level

/-- Below debug; transcript line handling logs here. -/
def trace : Level := ⟨-2⟩
/-- Diagnostic detail. -/
def debug : Level := ⟨-1⟩
/-- Normal operation. -/
def info : Level := ⟨0⟩
/-- Something unexpected that the program recovered from. -/
def warn : Level := ⟨1⟩
/-- An operation failed. -/
def error : Level := ⟨2⟩
/-- A failure that is fatal in development builds. -/
def dpanic : Level := ⟨3⟩
def panic : Level := ⟨4⟩
/-- A failure that stops the program. -/
def fatal : Level := ⟨5⟩

/-- The lower-case name of a level. -/
def name (l : Level) : String :=
  match l.rank with
  | -1 => "debug"
  | 0 => "info"
  | 1 => "warn"
  | 2 => "error"
  | 3 => "dpanic"
  | 4 => "panic"
  | 5 => "fatal"
  | n => "Level(" ++ toString n ++ ")"

/-- Read a level name, in any case and with blanks around it: the named levels,
`trace`, and `warning` for `warn`; an empty name is `info`. -/
def parse (name : String) : Except String Level :=
  match Text.lower (Text.trimBlank name) with
  | "trace" => .ok trace
  | "warning" => .ok warn
  | "debug" => .ok debug
  | "info" | "" => .ok info
  | "warn" => .ok warn
  | "error" => .ok error
  | "dpanic" => .ok dpanic
  | "panic" => .ok panic
  | "fatal" => .ok fatal
  | _ => .error ("unknown log level " ++ Text.quote name)

def atLeast (a b : Level) : Bool := decide (a.rank ≥ b.rank)

end Level

/-- The value of a log field. -/
inductive Value where
  /-- Text. -/
  | text (s : String)
  /-- Text given as bytes. -/
  | bytes (s : String)
  /-- Raw bytes, written in base 64. -/
  | binary (data : List UInt8)
  /-- A whole number. -/
  | int (n : Int)
  /-- A double. -/
  | float (x : Float)
  /-- A truth value. -/
  | bool (b : Bool)
  /-- A list of texts. -/
  | texts (xs : List String)
  /-- A map of texts, written with its keys in order. -/
  | object (fields : List (String × String))
  /-- A document value written as it is. -/
  | reflected (j : Json)
  /-- The message of an error. -/
  | failure (message : String)
  /-- A length of time in nanoseconds. -/
  | duration (nanos : Int)
  /-- A moment in time. -/
  | instant (t : Clock.Instant)
deriving Inhabited

/-- A named field of an entry. -/
structure Field where
  key : String
  value : Value
deriving Inhabited

/-- A text field. -/
def Field.text (key value : String) : Field := ⟨key, .text value⟩

def Field.int (key : String) (n : Int) : Field := ⟨key, .int n⟩

/-- The field of an error: always under the key `error`. -/
def Field.failure (message : String) : Field := ⟨"error", .failure message⟩

/-- One entry written to a log. -/
structure Entry where
  level : Level
  /-- The dotted name of the logger, empty for the root logger. -/
  logger : String := ""
  message : String
  fields : List Field := []
deriving Inhabited

/-- Where a component writes its entries: a logger name and fields every entry
carries.  A silent channel drops everything. -/
structure Channel where
  name : String := ""
  fields : List Field := []
  silent : Bool := false
deriving Inhabited

def Channel.nop : Channel := { silent := true }

/-- The channel of a child logger: names are joined with a dot. -/
def Channel.named (c : Channel) (n : String) : Channel :=
  { c with name := if c.name.isEmpty then n else if n.isEmpty then c.name else c.name ++ "." ++ n }

end Logging
end AgentMemory
