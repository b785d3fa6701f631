import AgentMemory.Logging.Entry
import AgentMemory.Clock.Span

namespace AgentMemory
namespace Logging

/-!
# How a logger is set up

A logger writes entries at or above its level to the standard error stream, to a
file (always as JSON lines), or to a telemetry exporter.  The standard error stream
is written as JSON lines or as tab-separated console lines.

* Sampling keeps, per level below `error` that has a rate and per message, the first
  `initial` entries of each tick and then every `thereafter`-th one (none when it is
  zero).
* The caller is written when enabled; entries at or above the stack-trace level carry
  a stack trace, unless that level is `info`.
* Every entry carries the static fields.
* Redaction replaces the values of fields with sensitive names, in any case, by
  `[REDACTED]`, except numbers, truth values, lengths of time and times, and with
  scrubbing on removes secrets from messages and text values.
-/

/-- How many entries of one message a tick keeps. -/
structure Rate where
  initial : Nat
  thereafter : Nat
deriving Inhabited, Repr

/-- Sampling of frequent entries. -/
structure Sampling where
  enabled : Bool := false
  /-- The length of a tick in nanoseconds. -/
  tick : Int := Clock.second
  rates : List (Level × Rate) :=
    [(Level.trace, ⟨1, 0⟩), (Level.debug, ⟨10, 0⟩), (Level.info, ⟨100, 10⟩), (Level.warn, ⟨100, 100⟩)]
deriving Inhabited

/-- Which values are hidden. -/
structure Redaction where
  enabled : Bool := true
  fields : List String :=
    ["password", "secret", "token", "api_key", "authorization", "bearer", "credential", "private_key"]
  scrub : Bool := true
deriving Inhabited

/-- The set-up of a logger. -/
structure Options where
  level : Level := Level.info
  format : String := "json"
  stderr : Bool := true
  file : String := ""
  otel : Bool := false
  sampling : Sampling := {}
  caller : Bool := true
  callerSkip : Int := 1
  stacktrace : Level := Level.error
  /-- Fields every entry carries, by name. -/
  fields : List (String × String) := [("service", "ralph-memory")]
  redaction : Redaction := {}
deriving Inhabited

/-- Check a set-up, naming the first problem. -/
def Options.validate (o : Options) : Except String Unit :=
  if o.format != "json" && o.format != "console" then
    .error ("format must be 'json' or 'console', got " ++ Text.quote o.format)
  else if !o.stderr && o.file.isEmpty && !o.otel then
    .error "at least one output must be enabled (stderr, file or otel)"
  else if o.sampling.enabled && o.sampling.tick ≤ 0 then
    .error "sampling tick must be > 0 when sampling enabled"
  else if o.caller && o.callerSkip < 0 then
    .error ("caller skip must be >= 0, got " ++ toString o.callerSkip)
  else if o.redaction.enabled && o.redaction.fields.any Text.isBlankText then
    .error "redaction field cannot be empty"
  else
    match o.fields.find? (fun kv => kv.1.isEmpty || kv.2.isEmpty) with
    | some (k, _) =>
      if k.isEmpty then .error "field key cannot be empty"
      else .error ("field " ++ Text.quote k ++ " has empty value")
    | none => .ok ()

/-- The set-up for a program's settings: its level and format, if given, and a log
file. -/
def Options.ofSettings (level format file : String) : Except String Options := do
  let lvl ← if level.isEmpty then pure Level.info else Level.parse level
  let o : Options := { level := lvl, format := if format.isEmpty then "json" else format, file := file }
  o.validate
  return o

end Logging
end AgentMemory
