import AgentMemory.Logging.Entry
import AgentMemory.Secrets.Scrub
import AgentMemory.Text.Case

namespace AgentMemory
namespace Logging

/-!
# What a call carries into its log entries, and checking what was logged

A call may carry a trace and span, the project, the session and the hook it runs
for.  Entries written for the call carry them as fields, in that order: `trace_id`
and `span_id` when both identifiers are valid, then `project`, `session.id` and
`hook` when given.

A trace identifier is 32 and a span identifier 16 lower-case hexadecimal digits, not
all zero.  A session identifier is at most 128 bytes of ASCII letters, digits, dots,
underscores and hyphens; any other is refused with a message saying why, and the
scope keeps no session.
-/

def maxSessionIdBytes : Nat := 128

/-- A valid identifier of `digits` lower-case hexadecimal digits, not all zero. -/
def hexId? (s : String) (digits : Nat) : Option String :=
  let cs := s.toList
  if cs.length == digits && cs.all (fun c => ('0' ≤ c && c ≤ '9') || ('a' ≤ c && c ≤ 'f')) &&
      cs.any (· != '0') then some s
  else none

def sessionChar (c : Char) : Bool :=
  ('a' ≤ c && c ≤ 'z') || ('A' ≤ c && c ≤ 'Z') || ('0' ≤ c && c ≤ '9') || c == '.' || c == '_' || c == '-'

/-- Why a session identifier is refused, if it is. -/
def sessionIdProblem (id : String) : Option String :=
  if id.isEmpty then some "logging: session id cannot be empty"
  else if id.utf8ByteSize > maxSessionIdBytes then
    some ("logging: session id exceeds " ++ toString maxSessionIdBytes ++ " bytes")
  else if !id.toList.all sessionChar then
    some ("logging: session id " ++ Text.quote id ++ " contains invalid characters")
  else none

/-- What a call carries. -/
structure Scope where
  /-- The trace and span identifiers. -/
  trace : Option (String × String) := none
  project : String := ""
  sessionId : String := ""
  hook : String := ""
deriving Inhabited

namespace Scope

/-- A scope with a trace, when both identifiers are valid. -/
def withTrace (s : Scope) (traceId spanId : String) : Scope :=
  match hexId? traceId 32, hexId? spanId 16 with
  | some t, some p => { s with trace := some (t, p) }
  | _, _ => s

/-- A scope with a project; an empty project changes nothing. -/
def withProject (s : Scope) (p : String) : Scope :=
  if p.isEmpty then s else { s with project := p }

/-- A scope with a hook; an empty hook changes nothing. -/
def withHook (s : Scope) (h : String) : Scope :=
  if h.isEmpty then s else { s with hook := h }

/-- A scope with a session, or why the identifier is refused. -/
def withSession (s : Scope) (id : String) : Except String Scope :=
  match sessionIdProblem id with
  | some m => .error m
  | none => .ok { s with sessionId := id }

/-- The fields entries written in the scope carry. -/
def fields (s : Scope) : List Field :=
  (match s.trace with
   | some (t, p) => [Field.text "trace_id" t, Field.text "span_id" p]
   | none => []) ++
  (if s.project.isEmpty then [] else [Field.text "project" s.project]) ++
  (if s.sessionId.isEmpty then [] else [Field.text "session.id" s.sessionId]) ++
  (if s.hook.isEmpty then [] else [Field.text "hook" s.hook])

end Scope

/-! ## Checking what was logged

Tests of components keep every entry written, at every level, unredacted, and then
check them:

* `missingEntry` says that no entry of a level has a message containing a text;
* `leakedSecrets` lists, with the standard secret rules, each message holding a
  secret and each text field holding one, naming the rules that found it.
-/

/-- Entries kept for checking, in the order written. -/
abbrev Recorded := List Entry

namespace Recorded

/-- The complaint when no entry of `level` has a message containing `text`. -/
def missingEntry (r : Recorded) (level : Level) (text : String) : Option String :=
  if r.any (fun e => e.level.rank == level.rank && Text.containsText e.message text) then none
  else some ("no " ++ level.name ++ " entry containing " ++ Text.quote text ++ " in " ++
    toString r.length ++ " entries")

/-- The rules that found secrets, joined by commas. -/
def ruleList (s : Secrets.Scrubbed) : String := ",".intercalate s.ruleIds

/-- A complaint for every message and text field holding a secret. -/
def leakedSecrets (r : Recorded) : List String :=
  let sc := Secrets.Scrubber.standard
  r.flatMap fun e =>
    let m := sc.scrub e.message
    let inMessage := if m.hasFindings then
        ["secret (" ++ ruleList m ++ ") in message " ++ Text.quote m.text]
      else []
    let inFields := e.fields.filterMap fun f =>
      match f.value with
      | .text s =>
        let x := sc.scrub s
        if x.hasFindings then
          some ("secret (" ++ ruleList x ++ ") in field " ++ Text.quote f.key ++ " of " ++ Text.quote e.message)
        else none
      | _ => none
    inMessage ++ inFields

/-- The number of entries whose message is exactly `message`. -/
def countMessage (r : Recorded) (message : String) : Nat :=
  (r.filter (·.message == message)).length

end Recorded
end Logging
end AgentMemory
