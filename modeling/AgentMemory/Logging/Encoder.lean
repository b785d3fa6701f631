import AgentMemory.Logging.Options
import AgentMemory.Secrets.Scrub
import AgentMemory.Json.Decode
import AgentMemory.Text.Quote
import AgentMemory.Json.Write

namespace AgentMemory
namespace Logging

/-!
# Writing log entries

An entry is written in one of two layouts:

* a JSON line: `level`, `ts`, `logger` (for a named logger), `caller` (when known),
  `msg`, the fields in order, and `stacktrace` (when the entry has one);
* a console line: time, level, logger name, caller and message separated by tabs, then
  the fields as a JSON object with a blank after each colon and comma, and the stack
  trace on the lines after.

Strings are escaped as in log records: quotes, backslashes and control characters
only.  Doubles and lengths of time (in seconds) are written positionally with their
shortest digits; NaN and the infinities are written as strings.  Reflected document
values are written compactly with their keys sorted and their numbers as doubles.

Before an entry is written, its message and fields pass the redactor of the logger.
-/

/-- What the environment tells about an entry besides its content: the time, the
caller and the stack, as text. -/
structure Stamp where
  time : String
  caller : String
  stack : String
deriving Inhabited

/-- The encoder method a field's value reaches: a string method with the value's text, a
method for binary data, reflected values, lists or objects, or one of the others. -/
inductive Reached where
  | text (s : String)
  | composite
  | other

/-- How the logging library hands each kind of value to the encoder: texts, byte strings and
errors go to string methods; numbers, truth values, lengths of time and times to methods of
their own. -/
def reachOf : Value → Reached
  | .text s | .bytes s | .failure s => .text s
  | .binary _ | .reflected _ | .texts _ | .object _ => .composite
  | _ => .other

/-- Hides the values of sensitive fields and the secrets in texts. -/
structure Redactor where
  /-- Sensitive field names, in lower case. -/
  keys : List String := []
  scrubber : Option Secrets.Scrubber := none
deriving Inhabited

def redacted : String := "[REDACTED]"

/-- A field holding only the length in bytes of a hidden value. -/
def Field.masked (key value : String) : Field :=
  Field.text key (redacted ++ ":" ++ toString value.utf8ByteSize)

namespace Redactor

/-- The redactor of a logger's redaction settings. -/
def ofSettings (r : Redaction) : Redactor :=
  if !r.enabled then {}
  else { keys := r.fields.map Text.lower, scrubber := if r.scrub then some Secrets.Scrubber.standard else none }

/-- A text with its secrets removed. -/
def text (r : Redactor) (s : String) : String :=
  match r.scrubber with
  | some sc => (sc.scrub s).text
  | none => s

/-- A field as it is written, its value handed to the encoder by `reach`: texts are
scrubbed, and the values of sensitive fields that reach a method the redactor overrides
are hidden. -/
def field (reach : Value → Reached) (r : Redactor) (f : Field) : Field :=
  let hidden := r.keys.contains (Text.lower f.key)
  match reach f.value with
  | .text s => ⟨f.key, .text (if hidden then redacted else r.text s)⟩
  | .composite => if hidden then ⟨f.key, .text redacted⟩ else f
  | .other => f

end Redactor

def quoted (s : String) : String := Json.quote .log s

def floatText (x : Float) : String :=
  if x.isNaN || x.isInf then quoted (Decimal.plainText x) else Decimal.plainText x

/-- Two-digit and three-digit zero padding. -/
def padded (width n : Nat) : String :=
  let ds := Nat.toDigits 10 n
  String.ofList (List.replicate (width - ds.length) '0' ++ ds)

/-- A time with milliseconds and a compact zone: `2006-01-02T15:04:05.000Z`. -/
def isoMillis (t : Clock.Instant) : String :=
  let (y, mo, d, h, mi, s, ns) := t.fields
  let zone := if t.offset == 0 then "Z"
    else
      let a := t.offset.natAbs
      (if t.offset < 0 then "-" else "+") ++ padded 2 (a / 3600) ++ padded 2 (a % 3600 / 60)
  Clock.Instant.yearText y ++ "-" ++ padded 2 mo ++ "-" ++ padded 2 d ++ "T" ++ padded 2 h ++ ":" ++
    padded 2 mi ++ ":" ++ padded 2 s ++ "." ++ padded 3 (ns / 1000000) ++ zone

/-- The last value of each key, keys sorted. -/
def lastSorted (fs : List (String × Json)) : List (String × Json) :=
  let last := fs.foldl (fun acc kv => (acc.filter (·.1 != kv.1)) ++ [kv]) []
  last.mergeSort (fun a b => decide (a.1 ≤ b.1))

mutual
/-- A document value as a general decoder reads it back: numbers as doubles and the
last value of each key, keys sorted. -/
def reflect : Json → Json
  | .num lit => .num (Decimal.documentText (Json.literalFloat lit))
  | .arr xs => .arr (reflectItems xs)
  | .obj fs => .obj (lastSorted (reflectMembers fs))
  | j => j

/-- `reflect` on every item. -/
def reflectItems : List Json → List Json
  | [] => []
  | x :: xs => reflect x :: reflectItems xs

/-- `reflect` on every member value. -/
def reflectMembers : List (String × Json) → List (String × Json)
  | [] => []
  | (k, v) :: fs => (k, reflect v) :: reflectMembers fs
end

/-- The text of a field value; `spaced` puts a blank after each colon and comma. -/
def valueText (spaced : Bool) (v : Value) : String :=
  let comma := if spaced then ", " else ","
  let colon := if spaced then ": " else ":"
  match v with
  | .text s | .bytes s | .failure s => quoted s
  | .binary d => quoted (Text.base64 d)
  | .int n => toString n
  | .float x => floatText x
  | .bool b => if b then "true" else "false"
  | .texts xs => "[" ++ comma.intercalate (xs.map quoted) ++ "]"
  | .object kvs => "\x7b" ++ comma.intercalate (kvs.map fun kv => quoted kv.1 ++ colon ++ quoted kv.2) ++ "\x7d"
  | .reflected j => Json.compactWith .plain (reflect j)
  | .duration n => floatText (Float.ofInt n / 1e9)
  | .instant t => quoted (isoMillis t)

def memberText (spaced : Bool) (f : Field) : String :=
  quoted f.key ++ (if spaced then ": " else ":") ++ valueText spaced f.value

/-- Where an entry's optional parts are: the logger name, whether the caller is
written, and the stack trace if the entry carries one. -/
structure Layout where
  name : String
  caller : Bool
  stack : Option String
deriving Inhabited

/-- An entry as a JSON line, without the line feed. -/
def jsonLine (level : Level) (message : String) (fields : List Field) (lay : Layout) (stamp : Stamp) :
    String :=
  let parts := ["\"level\":" ++ quoted level.name, "\"ts\":" ++ quoted stamp.time] ++
    (if lay.name.isEmpty then [] else ["\"logger\":" ++ quoted lay.name]) ++
    (if lay.caller then ["\"caller\":" ++ quoted stamp.caller] else []) ++
    ["\"msg\":" ++ quoted message] ++ fields.map (memberText false) ++
    (match lay.stack with
     | some s => ["\"stacktrace\":" ++ quoted s]
     | none => [])
  "\x7b" ++ ",".intercalate parts ++ "\x7d"

/-- An entry as console text, without the last line feed. -/
def consoleLine (level : Level) (message : String) (fields : List Field) (lay : Layout) (stamp : Stamp) :
    String :=
  let cols := [stamp.time, level.name] ++ (if lay.name.isEmpty then [] else [lay.name]) ++
    (if lay.caller then [stamp.caller] else []) ++ [message]
  let context := if fields.isEmpty then ""
    else "\t\x7b" ++ ", ".intercalate (fields.map (memberText true)) ++ "\x7d"
  let stack := match lay.stack with
    | some s => "\n" ++ s
    | none => ""
  "\t".intercalate cols ++ context ++ stack

end Logging
end AgentMemory
