import AgentMemory.Logging.Options
import AgentMemory.Config.Settings
import AgentMemory.Json.Decode
import AgentMemory.Json.Lenient
import AgentMemory.Logging.Encoder

namespace AgentMemory
namespace Logging

/-!
# A logger's set-up as a document

A set-up can be written as one document; members left out (or `null`) keep their
defaults:

* `level` and `stacktrace`: level names;
* `format`, `file`: texts; `stderr`, `otel`: truth values;
* `sampling`: `enabled`, `tick` (a span such as `1s`) and `levels`, a map from level
  names to `initial` and `thereafter` counts;
* `caller`: `enabled` and `skip`;
* `fields`: a map of static fields;
* `redaction`: `enabled`, `fields` (names) and `scrub`.

A member of the wrong kind reads as `false`, zero or its text.  An unknown level name
or a malformed span is refused with its message.
-/

/-- A value as text: a string itself, anything else its compact form. -/
def asText (j : Json) : String :=
  match j with
  | .str s => s
  | .null => ""
  | other => Json.compact other

/-- A truth value; anything else is `false`. -/
def asFlag (j : Json) : Bool := j.bool?.getD false

/-- A whole number; anything else is zero. -/
def asWhole (j : Json) : Int := (Json.readInt j 0).toOption.getD 0

/-- Read the sampling part of a set-up over its current value. -/
def Sampling.read (j : Json) (sa : Sampling) : Except String Sampling := do
  let sa := match j.present? "enabled" with
    | some v => { sa with enabled := asFlag v }
    | none => sa
  let sa ← match j.present? "tick" with
    | some v => (Config.Span.parse (asText v)).map fun d => { sa with tick := d.nanos }
    | none => pure sa
  match j.present? "levels" with
  | some v =>
    let rates ← v.members.mapM fun kv => do
      let l ← Level.parse kv.1
      let count (k : String) : Nat := ((kv.2.present? k).map asWhole |>.getD 0).toNat
      pure (l, ({ initial := count "initial", thereafter := count "thereafter" } : Rate))
    pure { sa with rates := rates }
  | none => pure sa

/-- Read the redaction part of a set-up over its current value. -/
def Redaction.read (j : Json) (rd : Redaction) : Redaction :=
  let rd := match j.present? "enabled" with
    | some v => { rd with enabled := asFlag v }
    | none => rd
  let rd := match j.present? "fields" with
    | some v => { rd with fields := v.items.filterMap Json.str? }
    | none => rd
  match j.present? "scrub" with
  | some v => { rd with scrub := asFlag v }
  | none => rd

/-- Read a set-up document over the default set-up. -/
def Options.read (j : Json) : Except String Options := do
  let o : Options := {}
  let o ← match j.present? "level" with
    | some v => (Level.parse (asText v)).map fun l => { o with level := l }
    | none => pure o
  let o ← match j.present? "stacktrace" with
    | some v => (Level.parse (asText v)).map fun l => { o with stacktrace := l }
    | none => pure o
  let o := match j.present? "format" with
    | some v => { o with format := asText v }
    | none => o
  let o := match j.present? "stderr" with
    | some v => { o with stderr := asFlag v }
    | none => o
  let o := match j.present? "file" with
    | some v => { o with file := asText v }
    | none => o
  let o := match j.present? "otel" with
    | some v => { o with otel := asFlag v }
    | none => o
  let o ← match j.present? "sampling" with
    | some v => (Sampling.read v o.sampling).map fun sa => { o with sampling := sa }
    | none => pure o
  let o := match j.present? "caller" with
    | some c =>
      let o := match c.present? "enabled" with
        | some v => { o with caller := asFlag v }
        | none => o
      match c.present? "skip" with
      | some v => { o with callerSkip := asWhole v }
      | none => o
    | none => o
  let o := match j.present? "fields" with
    | some v => { o with fields := v.members.map fun kv => (kv.1, asText kv.2) }
    | none => o
  match j.present? "redaction" with
  | some v => return { o with redaction := Redaction.read v o.redaction }
  | none => return o

/-- A typed field as a document: its `key`, its `type` and its `value`.  The types
are `string` (the default), `bytes`, `binary`, `int`, `bool`, `strings`, `object`
(its text members, keys in order), `reflected`, `error`, `masked` and
`duration_ms` (milliseconds, possibly fractional).  An unknown type is refused. -/
def Field.ofDocument (f : Json) : Except String Field :=
  let key := f.textAt "key"
  let v := f.memberAt "value"
  match f.textAt "type" with
  | "" | "string" => .ok (Field.text key (asText v))
  | "bytes" => .ok ⟨key, .bytes (asText v)⟩
  | "binary" => .ok ⟨key, .binary (asText v).toUTF8.data.toList⟩
  | "int" => .ok ⟨key, .int (f.wholeAt "value")⟩
  | "bool" => .ok ⟨key, .bool (f.flagAt "value")⟩
  | "strings" => .ok ⟨key, .texts (f.textsAt "value")⟩
  | "object" => .ok ⟨key, .object ((f.textMembersAt "value").mergeSort (fun a b => decide (a.1 ≤ b.1)))⟩
  | "reflected" => .ok ⟨key, .reflected v⟩
  | "error" => .ok (Field.failure (asText v))
  | "masked" => .ok (Field.masked key (asText v))
  | "duration_ms" => .ok ⟨key, .duration (Clock.truncate64 (f.realAt "value" * 1e6))⟩
  | other => .error ("unknown field type " ++ Text.quote other)

end Logging
end AgentMemory
