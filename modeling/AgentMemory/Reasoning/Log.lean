import AgentMemory.Storage.Document
import AgentMemory.Text.Case
import AgentMemory.Text.Quote
import AgentMemory.Text.Csv

namespace AgentMemory
namespace Reasoning

open Storage

/-!
# Reasoning logs

Each agent keeps an append-only log of its reasoning, one JSON object per line, in
`agent-memory/<agent>/episodic/episodes.jsonl`.  The file may hold other kinds of
records; only those of type `reasoning` are read back, newest first.

An agent identifier must start with a letter or digit, continue with letters,
digits, dots, underscores and hyphens, and not contain `..`, so that it is a safe
directory name.  Timestamps are written in RFC 3339, so an entry can only be stored at
a time that form can hold, and are read in RFC 3339 and in the naive forms older
writers used; an unreadable timestamp reads as the zero time.  Lines that do not
decode are skipped; a line of 4 MiB or more stops the reading.
-/

def entryType : String := "reasoning"

/-- The number of entries read when no limit is given. -/
def defaultLimit : Nat := 10

/-- The longest line read, in bytes, is one less than this. -/
def maxLineBytes : Nat := 4 * 1024 * 1024

/-- One stored piece of reasoning. -/
structure Entry where
  kind : String := ""
  taskId : String := ""
  project : String := ""
  content : String := ""
  charCount : Int := 0
  timestamp : Clock.Instant := Clock.Instant.zero
deriving Inhabited

def timestampLayouts : List (List Clock.Instant.Piece) :=
  [Clock.Instant.rfc3339Layout, Clock.Instant.naiveLayout, Clock.Instant.spacedLayout]

/-- Read an entry; the timestamp is text in any of the known layouts. -/
def Entry.read (j : Json) : Except Failure Entry := do
  let (e, stamp) ← Json.readRecord
    [ ⟨"type", fun v (p : Entry × String) => (Json.readString v p.1.kind).map fun s => ({ p.1 with kind := s }, p.2)⟩,
      ⟨"task_id", fun v p => (Json.readString v p.1.taskId).map fun s => ({ p.1 with taskId := s }, p.2)⟩,
      ⟨"project", fun v p => (Json.readString v p.1.project).map fun s => ({ p.1 with project := s }, p.2)⟩,
      ⟨"content", fun v p => (Json.readString v p.1.content).map fun s => ({ p.1 with content := s }, p.2)⟩,
      ⟨"char_count", fun v p => (Json.readInt v p.1.charCount).map fun n => ({ p.1 with charCount := n }, p.2)⟩,
      ⟨"timestamp", fun v p => (Json.readString v p.2).map fun s => (p.1, s)⟩ ]
    (({} : Entry), "") "reasoning.Entry" j
  return { e with timestamp := ((Clock.Instant.parseFirst timestampLayouts stamp).getD Clock.Instant.zero) }

/-- The document form of an entry. -/
def Entry.toJson (e : Entry) : Json :=
  .obj [("type", .str e.kind), ("task_id", .str e.taskId), ("project", .str e.project),
    ("content", .str e.content), ("char_count", Json.ofInt e.charCount),
    ("timestamp", .str e.timestamp.rfc3339)]

/-- A character allowed in an agent identifier after the first. -/
def agentChar (c : Char) : Bool :=
  (c ≥ 'a' && c ≤ 'z') || (c ≥ 'A' && c ≤ 'Z') || (c ≥ '0' && c ≤ '9') || c == '.' || c == '_' || c == '-'

/-- An agent identifier is a safe directory name. -/
def validAgent (agent : String) : Bool :=
  match agent.toList with
  | c :: rest =>
    ((c ≥ 'a' && c ≤ 'z') || (c ≥ 'A' && c ≤ 'Z') || (c ≥ '0' && c ≤ '9')) && rest.all agentChar &&
      !Text.containsText agent ".."
  | [] => false

def invalidAgent (agent : String) : Failure := ⟨.invalidAgent, "invalid agent id: " ++ Text.quote agent⟩

/-- The reasoning store: the root of the agents' logs and where it logs. -/
structure Store where
  dir : String
  log : Logging.Channel := Logging.Channel.nop
deriving Inhabited

/-- Read one line of a log into the entries read so far and the count of lines that did
not decode; blank lines and records of other types are passed over. -/
def readLine (acc : List Entry × Nat) (line : String) : List Entry × Nat :=
  let line := Text.trimBlank line
  if line.isEmpty then acc
  else
    match Json.parseDocument line >>= Entry.read with
    | .error _ => (acc.1, acc.2 + 1)
    | .ok e => if e.kind == entryType then (acc.1 ++ [e], acc.2) else acc

/-- Entries newest first; entries of the same time keep their order. -/
def newestFirst (entries : List Entry) : List Entry :=
  entries.mergeSort (fun a b => !(b.timestamp.after a.timestamp))

namespace Store

def path (s : Store) (agent : String) : String := Disk.joinAll s.dir [agent, "episodic", "episodes.jsonl"]

/-- Store reasoning for an agent; the written entry is returned. -/
def append (s : Store) (agent taskId project content : String) : Act Entry := do
  if !validAgent agent then fail (invalidAgent agent)
  if Text.isBlankText content then fail ⟨.emptyReasoning, "reasoning cannot be empty"⟩
  let entry : Entry :=
    { kind := entryType, taskId := taskId, project := project, content := content,
      charCount := content.length, timestamp := ← clock }
  -- an entry whose time has no written form cannot be encoded
  if let some problem := entry.timestamp.encodingProblem? then
    fail (Failure.plain ("encoding reasoning: " ++ instantEncodingText problem))
  let p := s.path agent
  let r ← attempt (withLock p (onFiles fun t => t.appendFile p (Json.compact entry.toJson ++ "\n")))
  match r with
  | .error e => fail (e.within ("appending reasoning for " ++ agent))
  | .ok () =>
    emit s.log .info "reasoning stored"
      [.text "agent" agent, .text "task_id" taskId, .int "chars" entry.charCount]
    return entry

/-- Up to `limit` (10 when not positive) reasoning entries of an agent, newest
first. -/
def recent (s : Store) (agent : String) (limit : Int) : Act (List Entry) := do
  if !validAgent agent then fail (invalidAgent agent)
  let limit := if limit ≤ 0 then defaultLimit else limit.toNat
  let p := s.path agent
  let text ← match (← files).look "open" p with
    | .error e => if e.reason == .notFound then return [] else fail e.toFailure
    | .ok .dir => fail (Failure.plain ("reading reasoning for " ++ agent ++ ": read " ++ Disk.clean p ++ ": is a directory"))
    | .ok (.file d) => pure d.contents
  match Text.scanLines maxLineBytes text with
  | .error m => fail (Failure.plain ("reading reasoning for " ++ agent ++ ": " ++ m))
  | .ok lines =>
    let (entries, skipped) := lines.foldl readLine ([], 0)
    if skipped > 0 then
      emit s.log .debug "skipped malformed reasoning lines" [.text "agent" agent, .int "count" skipped]
    return (newestFirst entries).take limit

end Store
end Reasoning
end AgentMemory
