import AgentMemory.Json.Decode
import AgentMemory.Json.Write
import AgentMemory.Text.Case
import AgentMemory.Text.Quote

namespace AgentMemory
namespace Episodic

/-!
# Episodes

An episode is the complete record of one attempt at a task: what was asked, how it
was approached, what was done, and how it ended.  It is stored as one document, and
a summary of it (identifier, time, task cut to 100 characters, project, outcome,
importance and tags) is kept in the index.

An episode identifier is `ep-` followed by letters, digits, dots, underscores and
hyphens, without `..`, so that it is a safe file name.  A fresh identifier is
`ep-YYYYMMDD-HHMMSS-` and six hexadecimal digits, the time being the episode's in
UTC.

Actions are read in the current form `{action_type, target, description, success,
error}` and in the older `{type, file}` form; an action that does not say whether it
succeeded did.
-/

def invalidIdMessage : String := "invalid episode id"

def defaultImportance : Int := 5

/-- The number of results of a search that gives no limit. -/
def defaultSearchLimit : Nat := 10

/-- The longest task text kept in a summary, in characters. -/
def summaryTaskLength : Nat := 100

/-- One step taken during an episode. -/
structure Action where
  kind : String := ""
  target : String := ""
  description : String := ""
  success : Bool := true
  error : Option String := none
deriving Inhabited

/-- An option considered, and why it was or was not taken. -/
structure Alternative where
  option : String := ""
  rationale : String := ""
deriving Inhabited

/-- The record of one task attempt.  Lists and optional numbers distinguish absent
from empty, as their documents do. -/
structure Episode where
  id : String := ""
  timestamp : Clock.Instant := Clock.Instant.zero
  sessionId : String := ""
  project : String := ""
  task : String := ""
  context : String := ""
  constraints : Option (List String) := none
  approach : String := ""
  alternatives : Option (List Alternative) := none
  decisionFactors : Option (List String) := none
  actions : Option (List Action) := none
  success : Bool := false
  testsPassed : Option Int := none
  userSatisfaction : Option String := none
  artifactsCreated : Option (List String) := none
  learnings : Option (List String) := none
  tags : Option (List String) := none
  importance : Int := 0
  durationMinutes : Option Int := none
deriving Inhabited

/-- The index entry of an episode. -/
structure Summary where
  id : String := ""
  timestamp : Clock.Instant := Clock.Instant.zero
  task : String := ""
  project : String := ""
  success : Bool := false
  importance : Int := 0
  tags : Option (List String) := none
deriving Inhabited, DecidableEq

/-! ## Reading -/

/-- An action as written, both forms side by side. -/
structure ActionText where
  kind : String := ""
  target : String := ""
  description : String := ""
  success : Option Bool := none
  error : Option String := none
  legacyKind : String := ""
  legacyFile : String := ""

/-- Read an optional text: `null` makes it absent. -/
def readOptString (j : Json) : Except Failure (Option String) :=
  match j with
  | .null => .ok none
  | other => (Json.readString other "").map some

/-- Read an optional truth value: `null` makes it absent. -/
def readOptBool (j : Json) : Except Failure (Option Bool) :=
  match j with
  | .null => .ok none
  | other => (Json.readBool other false).map some

/-- Read an action in either form; the current form wins where both say something. -/
def Action.read (j : Json) : Except Failure Action := do
  let raw ← (Json.readRecord
    [ ⟨"action_type", fun v a => (Json.readString v a.kind).map fun s => { a with kind := s }⟩,
      ⟨"target", fun v a => (Json.readString v a.target).map fun s => { a with target := s }⟩,
      ⟨"description", fun v a => (Json.readString v a.description).map fun s => { a with description := s }⟩,
      ⟨"success", fun v a => (readOptBool v).map fun b => { a with success := b }⟩,
      ⟨"error", fun v a => (readOptString v).map fun s => { a with error := s }⟩,
      ⟨"type", fun v a => (Json.readString v a.legacyKind).map fun s => { a with legacyKind := s }⟩,
      ⟨"file", fun v a => (Json.readString v a.legacyFile).map fun s => { a with legacyFile := s }⟩ ]
    ({} : ActionText) "episodic.Action" j)
  return { kind := if raw.kind.isEmpty then raw.legacyKind else raw.kind,
           target := if raw.target.isEmpty then raw.legacyFile else raw.target,
           description := raw.description,
           success := raw.success.getD true,
           error := raw.error }

/-- Read an alternative. -/
def Alternative.read (j : Json) : Except Failure Alternative :=
  Json.readRecord
    [ ⟨"option", fun v a => (Json.readString v a.option).map fun s => { a with option := s }⟩,
      ⟨"rationale", fun v a => (Json.readString v a.rationale).map fun s => { a with rationale := s }⟩ ]
    {} "episodic.Alternative" j

/-- Read a list of actions: each action is read by its own reader, whose failure
stops the reading. -/
def readActions (j : Json) : Except Failure (Option (List Action)) :=
  Json.readList (fun x => (Action.read x).mapError Failure.stopping) "[]episodic.Action" j

/-- Read an episode. -/
def Episode.read (j : Json) : Except Failure Episode :=
  Json.readRecord
    [ ⟨"episode_id", fun v e => (Json.readString v e.id).map fun s => { e with id := s }⟩,
      ⟨"timestamp", fun v e => (Json.readInstant v e.timestamp).map fun t => { e with timestamp := t }⟩,
      ⟨"session_id", fun v e => (Json.readString v e.sessionId).map fun s => { e with sessionId := s }⟩,
      ⟨"project", fun v e => (Json.readString v e.project).map fun s => { e with project := s }⟩,
      ⟨"task", fun v e => (Json.readString v e.task).map fun s => { e with task := s }⟩,
      ⟨"context", fun v e => (Json.readString v e.context).map fun s => { e with context := s }⟩,
      ⟨"constraints", fun v e => (Json.readStrings v).map fun xs => { e with constraints := xs }⟩,
      ⟨"approach", fun v e => (Json.readString v e.approach).map fun s => { e with approach := s }⟩,
      ⟨"alternatives_considered", fun v e =>
        (Json.readList Alternative.read "[]episodic.Alternative" v).map fun xs => { e with alternatives := xs }⟩,
      ⟨"decision_factors", fun v e => (Json.readStrings v).map fun xs => { e with decisionFactors := xs }⟩,
      ⟨"actions", fun v e => (readActions v).map fun xs => { e with actions := xs }⟩,
      ⟨"success", fun v e => (Json.readBool v e.success).map fun b => { e with success := b }⟩,
      ⟨"tests_passed", fun v e => (Json.readOptInt v).map fun n => { e with testsPassed := n }⟩,
      ⟨"user_satisfaction", fun v e => (readOptString v).map fun s => { e with userSatisfaction := s }⟩,
      ⟨"artifacts_created", fun v e => (Json.readStrings v).map fun xs => { e with artifactsCreated := xs }⟩,
      ⟨"learnings", fun v e => (Json.readStrings v).map fun xs => { e with learnings := xs }⟩,
      ⟨"tags", fun v e => (Json.readStrings v).map fun xs => { e with tags := xs }⟩,
      ⟨"importance", fun v e => (Json.readInt v e.importance).map fun n => { e with importance := n }⟩,
      ⟨"duration_minutes", fun v e => (Json.readOptInt v).map fun n => { e with durationMinutes := n }⟩ ]
    {} "episodic.Episode" j

/-- Read a summary. -/
def Summary.read (j : Json) : Except Failure Summary :=
  Json.readRecord
    [ ⟨"episode_id", fun v s => (Json.readString v s.id).map fun x => { s with id := x }⟩,
      ⟨"timestamp", fun v s => (Json.readInstant v s.timestamp).map fun t => { s with timestamp := t }⟩,
      ⟨"task", fun v s => (Json.readString v s.task).map fun x => { s with task := x }⟩,
      ⟨"project", fun v s => (Json.readString v s.project).map fun x => { s with project := x }⟩,
      ⟨"success", fun v s => (Json.readBool v s.success).map fun b => { s with success := b }⟩,
      ⟨"importance", fun v s => (Json.readInt v s.importance).map fun n => { s with importance := n }⟩,
      ⟨"tags", fun v s => (Json.readStrings v).map fun xs => { s with tags := xs }⟩ ]
    {} "episodic.Summary" j

/-! ## Writing -/

def instantJson (t : Clock.Instant) : Json := .str t.rfc3339

/-- An optional value as a document value. -/
def optJson {α : Type} (f : α → Json) : Option α → Json
  | some v => f v
  | none => .null

/-- The document form of an action. -/
def Action.toJson (a : Action) : Json :=
  .obj [("action_type", .str a.kind), ("target", .str a.target), ("description", .str a.description),
    ("success", .bool a.success), ("error", optJson Json.str a.error)]

/-- The document form of an alternative. -/
def Alternative.toJson (a : Alternative) : Json :=
  .obj [("option", .str a.option), ("rationale", .str a.rationale)]

/-- The document form of an episode. -/
def Episode.toJson (e : Episode) : Json :=
  .obj [("episode_id", .str e.id), ("timestamp", instantJson e.timestamp),
    ("session_id", .str e.sessionId), ("project", .str e.project), ("task", .str e.task),
    ("context", .str e.context), ("constraints", Json.ofStrings? e.constraints),
    ("approach", .str e.approach),
    ("alternatives_considered", optJson (fun xs => .arr (xs.map Alternative.toJson)) e.alternatives),
    ("decision_factors", Json.ofStrings? e.decisionFactors),
    ("actions", optJson (fun xs => .arr (xs.map Action.toJson)) e.actions),
    ("success", .bool e.success), ("tests_passed", optJson Json.ofInt e.testsPassed),
    ("user_satisfaction", optJson Json.str e.userSatisfaction),
    ("artifacts_created", Json.ofStrings? e.artifactsCreated),
    ("learnings", Json.ofStrings? e.learnings), ("tags", Json.ofStrings? e.tags),
    ("importance", Json.ofInt e.importance), ("duration_minutes", optJson Json.ofInt e.durationMinutes)]

/-- The document form of a summary. -/
def Summary.toJson (s : Summary) : Json :=
  .obj [("episode_id", .str s.id), ("timestamp", instantJson s.timestamp), ("task", .str s.task),
    ("project", .str s.project), ("success", .bool s.success), ("importance", Json.ofInt s.importance),
    ("tags", Json.ofStrings? s.tags)]

/-- The flat entry of a summary, the form older tools kept in a flat index. -/
def Summary.flatJson (sum : Summary) : Json :=
  .obj [("task", .str sum.task), ("tags", Json.ofStrings? sum.tags), ("success", .bool sum.success),
    ("importance", Json.ofInt sum.importance), ("timestamp", .str sum.timestamp.rfc3339),
    ("project", .str sum.project)]

/-! ## Identifiers and summaries -/

/-- A character allowed in an episode identifier after `ep-`. -/
def idChar (c : Char) : Bool :=
  (c ≥ 'a' && c ≤ 'z') || (c ≥ 'A' && c ≤ 'Z') || (c ≥ '0' && c ≤ '9') || c == '.' || c == '_' || c == '-'

/-- An identifier is safe to use as a file name. -/
def validId (id : String) : Bool :=
  match id.toList with
  | 'e' :: 'p' :: '-' :: rest => !rest.isEmpty && rest.all idChar && !Text.containsText id ".."
  | _ => false

/-- The identifier of an episode at a time, with its random digits. -/
def freshId (ts : Clock.Instant) (digits : String) : String :=
  "ep-" ++ ts.compactStamp ++ "-" ++ digits

def truncate (s : String) (n : Nat) : String :=
  if s.length ≤ n then s else String.ofList (s.toList.take n)

/-- The month partition of an episode, `YYYY-MM` in UTC. -/
def Episode.month (e : Episode) : String := e.timestamp.monthText

def Episode.summary (e : Episode) : Summary :=
  { id := e.id, timestamp := e.timestamp, task := truncate e.task summaryTaskLength,
    project := e.project, success := e.success, importance := e.importance,
    tags := some (e.tags.getD []) }

end Episodic
end AgentMemory
