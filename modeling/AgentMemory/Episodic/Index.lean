import AgentMemory.Episodic.Episode

namespace AgentMemory
namespace Episodic

/-!
# The episode index

The index holds the log of episode summaries and two inverted indices, from tags
and from projects to episode identifiers.  Its invariant:

* no identifier occurs twice in the log;
* every list of the inverted indices is non-empty and names only logged episodes;
* every logged episode is listed under its project and under each of its tags.

An index read from disk is checked; one that breaks the invariant is repaired by
dropping repeated summaries (the first wins) and rebuilding the inverted indices
from the log.

Older tools wrote a flat document mapping episode identifiers to summaries.  Such
entries, alone or beside a structured index, are folded into the log (sorted by
time, then identifier) the first time the index is read.
-/

/-- The episode index.  The inverted indices are kept sorted by key. -/
structure Index where
  episodes : List Summary := []
  tags : List (String × List String) := []
  projects : List (String × List String) := []
deriving Inhabited, DecidableEq

/-- The list under a key of an inverted index, empty when the key is absent. -/
def refs (m : List (String × List String)) (key : String) : List String :=
  ((m.find? (·.1 == key)).map Prod.snd).getD []

/-- Add an identifier to the list under a key, once; new keys keep the map sorted. -/
def addRef (m : List (String × List String)) (key id : String) : List (String × List String) :=
  if m.any (·.1 == key) then
    m.map fun kv => if kv.1 == key then (if kv.2.contains id then kv else (kv.1, kv.2 ++ [id])) else kv
  else (m ++ [(key, [id])]).mergeSort (fun a b => decide (a.1 ≤ b.1))

/-- Drop an identifier from every list, and keys left with an empty list. -/
def dropRef (m : List (String × List String)) (id : String) : List (String × List String) :=
  (m.map fun kv => (kv.1, kv.2.filter (· != id))).filter (fun kv => !kv.2.isEmpty)

/-- The timestamp layouts of episodes written by older tools. -/
def timestampLayouts : List (List Clock.Instant.Piece) :=
  [Clock.Instant.rfc3339Layout, Clock.Instant.naiveLayout, Clock.Instant.dateLayout]

/-- Read a timestamp of an older tool, in UTC; the zero instant when unreadable. -/
def parseTimestamp (s : String) : Clock.Instant :=
  (Clock.Instant.parseFirst timestampLayouts s).getD Clock.Instant.zero

/-- Time first, then identifier: the order of the log. -/
def Summary.precedes (a b : Summary) : Bool :=
  if a.timestamp.same b.timestamp then decide (a.id ≤ b.id) else a.timestamp.before b.timestamp

/-- Order summaries by time, then identifier; equal ones keep their order. -/
def sortSummaries (xs : List Summary) : List Summary := xs.mergeSort Summary.precedes

/-- One entry for each key: the last one given for it, in the place where the key first
appears. -/
def lastPerKey {β : Type} (xs : List (String × β)) : List (String × β) :=
  xs.foldl (fun acc kv =>
    if acc.any (·.1 == kv.1) then acc.map (fun x => if x.1 == kv.1 then kv else x) else acc ++ [kv]) []

/-- The summaries with repeated identifiers dropped, the first of each kept. -/
def firstById (xs : List Summary) : List Summary :=
  xs.foldl (fun acc s => if acc.any (·.id == s.id) then acc else acc ++ [s]) []

namespace Index

def ids (idx : Index) : List String := idx.episodes.map (·.id)

def find? (idx : Index) (id : String) : Option Summary := idx.episodes.find? (·.id == id)

/-- Log a summary and list it under its project and tags. -/
def add (idx : Index) (s : Summary) : Index :=
  { episodes := idx.episodes ++ [s],
    tags := (s.tags.getD []).foldl (fun m t => addRef m t s.id) idx.tags,
    projects := addRef idx.projects s.project s.id }

/-- Drop every reference to an episode; whether it was logged. -/
def remove (idx : Index) (id : String) : Index × Bool :=
  ({ episodes := idx.episodes.filter (·.id != id), tags := dropRef idx.tags id,
     projects := dropRef idx.projects id }, idx.episodes.any (·.id == id))

/-- The index invariant holds. -/
def consistent (idx : Index) : Bool :=
  let ids := idx.ids
  ids.eraseDups.length == ids.length &&
    (idx.tags ++ idx.projects).all (fun kv => !kv.2.isEmpty && kv.2.all ids.contains) &&
    idx.episodes.all (fun s =>
      (refs idx.projects s.project).contains s.id &&
        (s.tags.getD []).all (fun t => (refs idx.tags t).contains s.id))

/-- Drop repeated summaries (the first wins) and rebuild the inverted indices. -/
def reindex (idx : Index) : Index :=
  (firstById idx.episodes).foldl add {}

/-- The index a read document stands for, and whether it must be written back: an index
that breaks the invariant is regenerated, and then always written back. -/
def settle (idx : Index) (migrated : Bool) : Index × Bool :=
  if idx.consistent then (idx, migrated) else (idx.reindex, true)

def tagNames (idx : Index) : List String := idx.tags.map Prod.fst

def projectNames (idx : Index) : List String := (idx.projects.map Prod.fst).filter (!·.isEmpty)

/-- Read an inverted index: an object of lists of texts. -/
def readRefs (j : Json) : Except Failure (Option (List (String × List String))) :=
  match j with
  | .null => .ok none
  | .obj fields =>
    let entries := fields.map fun kv => (kv.1, Json.readStrings kv.2)
    match entries.find? (fun e => match e.2 with | .error _ => true | .ok _ => false) with
    | some (_, .error e) => .error e
    | _ =>
      let kept := entries.filterMap fun e => match e.2 with
        | .ok v => some (e.1, v.getD [])
        | .error _ => none
      -- a key written twice keeps its last list
      .ok (some ((lastPerKey kept).mergeSort (fun a b => decide (a.1 ≤ b.1))))
  | other => .error (Json.mismatch (Json.kindName other) "map[string][]string")

def refsJson (m : List (String × List String)) : Json :=
  .obj (m.map fun kv => (kv.1, Json.ofStrings kv.2))

/-- The document form of the index. -/
def toJson (idx : Index) : Json :=
  .obj [("episodes", .arr (idx.episodes.map Summary.toJson)), ("tags", refsJson idx.tags),
    ("projects", refsJson idx.projects)]

/-- A flat entry of an older tool. -/
structure FlatEntry where
  task : String := ""
  tags : Option (List String) := none
  success : Bool := false
  importance : Option Int := none
  timestamp : String := ""
  project : String := ""

/-- Read a flat entry. -/
def FlatEntry.read (j : Json) : Except Failure FlatEntry :=
  Json.readRecord
    [ ⟨"task", fun v e => (Json.readString v e.task).map fun s => { e with task := s }⟩,
      ⟨"tags", fun v e => (Json.readStrings v).map fun xs => { e with tags := xs }⟩,
      ⟨"success", fun v e => (Json.readBool v e.success).map fun b => { e with success := b }⟩,
      ⟨"importance", fun v e => (Json.readOptInt v).map fun n => { e with importance := n }⟩,
      ⟨"timestamp", fun v e => (Json.readString v e.timestamp).map fun s => { e with timestamp := s }⟩,
      ⟨"project", fun v e => (Json.readString v e.project).map fun s => { e with project := s }⟩ ]
    {} "episodic.legacyEntry" j

/-- The summary of a flat entry of an older tool, logged under its identifier: the task
cut to 100 characters, the time read by the older layouts, importance 5 when absent. -/
def FlatEntry.summary (e : FlatEntry) (id : String) : Summary :=
  { id := id, timestamp := parseTimestamp e.timestamp, task := truncate e.task summaryTaskLength,
    project := e.project, success := e.success, importance := e.importance.getD defaultImportance,
    tags := e.tags }

def member? (top : List (String × Json)) (k : String) : Option Json :=
  (top.find? (·.1 == k)).map Prod.snd

/-- The flat entries among the members of a document, in member order: members named
`ep-…` that the log does not hold already and that read as flat entries. -/
def flatSummaries (top : List (String × Json)) (known : List String) : List Summary :=
  top.filterMap fun kv =>
    if !"ep-".isPrefixOf kv.1 || known.contains kv.1 then none
    else
      match FlatEntry.read kv.2 with
      | .error _ => none
      | .ok e => some (e.summary kv.1)

/-- The structured part of a document: its log and inverted indices, empty when it has
no log. -/
def structured (top : List (String × Json)) : Except Failure Index :=
  match member? top "episodes" with
  | none => pure {}
  | some raw => do
    let eps ← (Json.readList Summary.read "[]episodic.Summary" raw).mapError (Failure.within "decoding episode index")
    let tags ← match member? top "tags" with
      | some t => (readRefs t).mapError (Failure.within "decoding tag index")
      | none => pure none
    let projects ← match member? top "projects" with
      | some p => (readRefs p).mapError (Failure.within "decoding project index")
      | none => pure none
    pure { episodes := eps.getD [], tags := tags.getD [], projects := projects.getD [] }

/-- The members of an index document, one for each name (the last one written); `null`
has none. -/
def documentMembers (text : String) : Except Failure (List (String × Json)) := do
  let j ← (Json.parseDocument text).mapError (Failure.within "decoding episode index")
  let members ← match j with
    | .null => pure []
    | .obj fields => pure fields
    | other => throw ((Json.mismatch (Json.kindName other) "map[string]json.RawMessage").within "decoding episode index")
  return lastPerKey members

/-- Read an index document of either form; the flag says the document must be
rewritten (it was flat, or had flat entries beside the log). -/
def decode (text : String) : Except Failure (Index × Bool) := do
  let top ← documentMembers text
  let idx ← structured top
  let folded := flatSummaries top idx.ids
  if folded.isEmpty then return (idx, !(member? top "episodes").isSome)
  else
    let idx := { idx with episodes := idx.episodes ++ sortSummaries folded }
    return (idx.reindex, true)

end Index
end Episodic
end AgentMemory
