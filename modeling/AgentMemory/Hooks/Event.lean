import AgentMemory.Json.Decode
import AgentMemory.Json.Write
import AgentMemory.Disk.Path
import AgentMemory.Text.Case
import AgentMemory.Text.Quote

namespace AgentMemory
namespace Hooks

/-!
# Lifecycle events

The assistant's hook runner calls the memory at points of a session's life: when it
starts, before a tool runs, when the user submits a prompt, before the context is
compacted, when the assistant stops and when the session ends.  Each call passes an
event document on standard input; the memory may answer with context to add to the
conversation.

Event names are accepted in any case, with or without `_` and `-` between words
(`session_end`, `session-end`, `SessionEnd`).  A payload that does not name its
event takes the name the caller falls back to.  The project of an event is the last
element of its working directory.
-/

/-- The lifecycle points the memory is called at. -/
inductive HookType where
  | sessionStart
  | sessionEnd
  | preCompact
  | preToolUse
  | userPromptSubmit
  | stop
deriving Inhabited, BEq, Repr, DecidableEq

namespace HookType

/-- All lifecycle points, in the order names are matched. -/
def all : List HookType :=
  [.sessionStart, .sessionEnd, .preCompact, .preToolUse, .userPromptSubmit, .stop]

/-- The canonical name of a lifecycle point. -/
def name : HookType → String
  | .sessionStart => "SessionStart"
  | .sessionEnd => "SessionEnd"
  | .preCompact => "PreCompact"
  | .preToolUse => "PreToolUse"
  | .userPromptSubmit => "UserPromptSubmit"
  | .stop => "Stop"

/-- Read a lifecycle point's name in any case, ignoring `_` and `-`. -/
def parse (s : String) : Except Failure HookType :=
  let norm := Text.lower (String.ofList (s.toList.filter (fun c => c != '_' && c != '-')))
  match all.find? (fun t => Text.lower t.name == norm) with
  | some t => .ok t
  | none => .error ⟨.unknownHook, "unknown hook type: " ++ Text.quote s⟩

end HookType

def maxEventBytes : Nat := 1024 * 1024

/-- An event as the hook runner sends it. -/
structure Event where
  kind : HookType
  sessionId : String := ""
  transcriptPath : String := ""
  cwd : String := ""
  toolName : String := ""
  /-- The tool's input, verbatim; absent when not given. -/
  toolInput : Option Json := none
  prompt : String := ""
  trigger : String := ""
  reason : String := ""
deriving Inhabited

/-- An event as written, its name still text. -/
structure EventText where
  name : String := ""
  sessionId : String := ""
  transcriptPath : String := ""
  cwd : String := ""
  toolName : String := ""
  toolInput : Option Json := none
  prompt : String := ""
  trigger : String := ""
  reason : String := ""

/-- Read the members of an event payload. -/
def EventText.read (j : Json) : Except Failure EventText :=
  Json.readRecord
    [ ⟨"hook_event_name", fun v e => (Json.readString v e.name).map fun s => { e with name := s }⟩,
      ⟨"session_id", fun v e => (Json.readString v e.sessionId).map fun s => { e with sessionId := s }⟩,
      ⟨"transcript_path", fun v e => (Json.readString v e.transcriptPath).map fun s => { e with transcriptPath := s }⟩,
      ⟨"cwd", fun v e => (Json.readString v e.cwd).map fun s => { e with cwd := s }⟩,
      ⟨"tool_name", fun v e => (Json.readString v e.toolName).map fun s => { e with toolName := s }⟩,
      ⟨"tool_input", fun v e => .ok { e with toolInput := some v }⟩,
      ⟨"prompt", fun v e => (Json.readString v e.prompt).map fun s => { e with prompt := s }⟩,
      ⟨"trigger", fun v e => (Json.readString v e.trigger).map fun s => { e with trigger := s }⟩,
      ⟨"reason", fun v e => (Json.readString v e.reason).map fun s => { e with reason := s }⟩ ]
    {} "hooks.Event" j

/-- Read an event payload; `fallback` names the event when the payload does not. -/
def parseEvent (payload : String) (fallback : String) : Except Failure Event := do
  if payload.utf8ByteSize > maxEventBytes then
    throw (Failure.plain ("hook event exceeds " ++ toString maxEventBytes ++ " bytes"))
  let raw ← if Text.isBlankText payload then pure {}
    else (Json.parseDocument payload >>= EventText.read).mapError (Failure.within "decoding hook event")
  let name := if raw.name.isEmpty then fallback else raw.name
  if name.isEmpty then throw ⟨.unknownHook, "unknown hook type: event name missing"⟩
  let kind ← HookType.parse name
  return { kind := kind, sessionId := raw.sessionId, transcriptPath := raw.transcriptPath,
           cwd := raw.cwd, toolName := raw.toolName, toolInput := raw.toolInput,
           prompt := raw.prompt, trigger := raw.trigger, reason := raw.reason }

/-- The project of an event: the last element of its working directory. -/
def Event.project (e : Event) : String :=
  if e.cwd.isEmpty then "" else Disk.base (Disk.clean e.cwd)

/-- The document form of an event: optional members only when given. -/
def Event.toJson (e : Event) : Json :=
  let opt (k v : String) : List (String × Json) := if v.isEmpty then [] else [(k, .str v)]
  .obj ([("hook_event_name", .str e.kind.name), ("session_id", .str e.sessionId),
    ("transcript_path", .str e.transcriptPath), ("cwd", .str e.cwd)] ++
    opt "tool_name" e.toolName ++
    (match e.toolInput with
     | some j => [("tool_input", j)]
     | none => []) ++
    opt "prompt" e.prompt ++ opt "trigger" e.trigger ++ opt "reason" e.reason)

/-- What the handlers of an event tell the assistant: texts of context. -/
structure Output where
  /-- The event's name, as it is answered. -/
  event : String
  context : List String := []
deriving Inhabited

/-- Add texts of context; blank ones are dropped. -/
def Output.addContext (o : Output) (texts : List String) : Output :=
  { o with context := o.context ++ texts.filter (fun t => !Text.isBlankText t) }

/-- The answer to the hook runner: one document line, or nothing when there is no
context to add. -/
def Output.encode (o : Output) : String :=
  if o.context.isEmpty then ""
  else
    Json.compact (.obj [("hookSpecificOutput", .obj [("hookEventName", .str o.event),
      ("additionalContext", .str ("\n".intercalate o.context))])]) ++ "\n"

end Hooks
end AgentMemory
