import AgentMemory.Episodic.Index
import AgentMemory.Storage.Document

namespace AgentMemory
namespace Episodic

open Storage

/-!
# The episode store

Each episode is one document, `episodes/<YYYY-MM>/<id>.json`, the month being the
episode's in UTC, so that an episode can be found from its summary alone.  The
index, `episodes/index.json`, is owned by the store: every change holds the
index's lock for the whole operation, so bodies and index change together for
other processes.

Reading the index repairs and migrates it as described with `Index`; a repair or
migration is written back before the index is used.  Bodies left without a summary
(for instance after a crash between writing the body and the index) are recovered
by a rebuild, which rescans the month directories.  Pruning also works from the
bodies: it removes old, unimportant episodes whatever the index says.
-/

/-- A filter of episodes: all given filters must match. -/
structure SearchQuery where
  /-- A substring of the summary task, in any case. -/
  query : String := ""
  /-- Episodes carrying any of these tags. -/
  tags : List String := []
  project : String := ""
  limit : Int := 0
deriving Inhabited

/-- The episode store: its directory and where it logs. -/
structure Store where
  dir : String
  log : Logging.Channel := Logging.Channel.nop
deriving Inhabited

namespace Store

def indexPath (s : Store) : String := Disk.join s.dir "index.json"

def legacyIndexPath (s : Store) : String := Disk.join s.dir "legacy-index.json"

def bodyPath (s : Store) (id : String) (ts : Clock.Instant) : String :=
  Disk.joinAll s.dir [ts.monthText, id ++ ".json"]

/-- The body files: `ep-*.json` in the month directories `20*-*`, sorted. -/
def bodyFiles (s : Store) : Act (List String) := do
  let t ← files
  let months := (t.glob s.dir "20*-*").filter fun m =>
    match t.stat m with
    | .ok .dir => true
    | _ => false
  let found := months.flatMap fun m => t.glob m "ep-*.json"
  return found.mergeSort (fun a b => decide (a ≤ b))

/-- Read the index without its lock; the flag says it was migrated or repaired and
must be written back. -/
def readIndex (s : Store) : Act (Index × Bool) := do
  let text ← match fetch (← files) s.indexPath with
    | .ok t => pure t
    | .error e => fail (e.within "reading episode index")
  match text with
  | none => return ({}, false)
  | some text =>
    if Text.isBlankText text then return ({}, false)
    match Index.decode text with
    | .error e => fail e
    | .ok (idx, migrated) =>
      if migrated then
        emit s.log .info "migrated legacy episode index" [.int "episodes" idx.episodes.length]
      if !idx.consistent then
        emit s.log .warn "episode index inconsistent, regenerating inverted indices"
      return idx.settle migrated

/-- Write the index document; a summary whose time has no written form refuses it. -/
def writeIndex (s : Store) (idx : Index) : Act Unit :=
  writeJsonTimed s.indexPath (idx.episodes.map (·.timestamp)) idx.toJson

/-- Change the index under its lock.  The index is written when the change says so
or when reading it migrated or repaired it; a failing change still writes a
migration or repair. -/
def update {α : Type} (s : Store) (change : Index → Act (Bool × Index × α)) : Act α :=
  withLock s.indexPath do
    let (idx, needsWrite) ← s.readIndex
    match ← attempt (change idx) with
    | .ok (changed, idx', out) =>
      if changed || needsWrite then s.writeIndex (if changed then idx' else idx)
      return out
    | .error e =>
      if needsWrite then s.writeIndex idx
      fail e

/-- The index for reading, a migration or repair written back first. -/
def loadIndex (s : Store) : Act Index := do
  let (idx, needsWrite) ← s.readIndex
  if !needsWrite then return idx
  s.update fun i => pure (false, i, ())
  return (← s.readIndex).1

/-- An episode's time: the clock's when it has none, in UTC. -/
def stamp (ep : Episode) (now : Clock.Instant) : Episode :=
  { ep with timestamp := (if ep.timestamp.isZero then now else ep.timestamp).utc }

/-- An episode with an identifier: one is drawn, and made from its time, when it has none. -/
def identify (ep : Episode) : Act Episode :=
  if ep.id.isEmpty then do
    let digits ← freshHex 6
    pure { ep with id := freshId ep.timestamp digits }
  else pure ep

/-- An episode's importance: 5 when it gives none. -/
def withImportance (ep : Episode) : Episode :=
  if ep.importance == 0 then { ep with importance := defaultImportance } else ep

/-- Check an episode and fill in its time, identifier and importance.  An identifier is
drawn for an episode that has none once its task is known not to be blank, before the
identifier and the importance are checked. -/
def prepare (ep : Episode) : Act Episode :=
  if Text.isBlankText ep.task then fail ⟨.emptyTask, "episode task cannot be empty"⟩
  else do
    let ep ← identify (stamp ep (← clock))
    if !validId ep.id then fail ⟨.invalidEpisodeId, invalidIdMessage ++ ": " ++ Text.quote ep.id⟩
    else
      let ep := withImportance ep
      if ep.importance < 1 || ep.importance > 10 then
        fail ⟨.invalidImportance, "importance must be between 1 and 10: got " ++ toString ep.importance⟩
      else return ep

/-- File a prepared episode under the lock of the index: an identifier the index holds is
refused, the body is written into the month of its time, and the summary is added. -/
def fileEpisode (s : Store) (ep : Episode) (idx : Index) : Act (Bool × Index × Unit) := do
  if (idx.find? ep.id).isSome then fail (Failure.plain ("episode " ++ ep.id ++ " already exists"))
  writeJsonTimed (s.bodyPath ep.id ep.timestamp) [ep.timestamp] ep.toJson
  return (true, idx.add ep.summary, ())

/-- Check an episode, fill in its time, identifier and importance, and store it.  The
stored episode and its identifier are returned. -/
def write (s : Store) (ep : Episode) : Act (String × Episode) := do
  let ep ← prepare ep
  let r ← attempt (s.update (s.fileEpisode ep))
  match r with
  | .error e => fail (e.within "writing episode")
  | .ok () =>
    emit s.log .debug "episode written"
      [.text "episode_id" ep.id, .text "project" ep.project, ⟨"tags", .texts (ep.tags.getD [])⟩]
    return (ep.id, ep)

/-- The body of an indexed episode; none when it is not indexed or its body is gone.
A body not in its month is looked for in every month. -/
def get (s : Store) (id : String) : Act (Option Episode) := do
  if !validId id then return none
  let idx ← s.loadIndex
  match idx.find? id with
  | none => return none
  | some summary =>
    let t ← files
    let path := s.bodyPath id summary.timestamp
    let path? : Option String :=
      match t.stat path with
      | .error e =>
        match e.reason with
        | .notFound =>
          let months := t.glob s.dir "*"
          months.findSome? fun m =>
            let candidate := Disk.join m (id ++ ".json")
            match t.stat candidate with
            | .ok _ => some candidate
            | .error _ => none
        | _ => some path
      | .ok _ => some path
    match path? with
    | none => return none
    | some p =>
      match ← attempt (readJson p Episode.read) with
      | .ok e => return e
      | .error e => fail (e.within ("loading episode " ++ id))

/-- Rank summaries by descending importance, keeping order among equals. -/
def byImportance (xs : List Summary) : List Summary :=
  xs.mergeSort (fun a b => decide (a.importance ≥ b.importance))

def limitOf (n : Int) : Nat := if n ≤ 0 then defaultSearchLimit else n.toNat

/-- Summaries matching a query, most important first. -/
def search (s : Store) (q : SearchQuery) : Act (List Summary) := do
  let idx ← s.loadIndex
  let inProject : Option (List String) := if q.project.isEmpty then none else some (refs idx.projects q.project)
  let tagged : Option (List String) :=
    if q.tags.isEmpty then none else some (q.tags.flatMap (refs idx.tags))
  let needle := Text.lower q.query
  let hits := idx.episodes.filter fun sum =>
    (inProject.map (·.contains sum.id)).getD true &&
      (tagged.map (·.contains sum.id)).getD true &&
      (needle.isEmpty || Text.containsText (Text.lower sum.task) needle)
  return (byImportance hits).take (limitOf q.limit)

/-- Order summaries newest first, keeping order among equal times. -/
def newestFirst (xs : List Summary) : List Summary :=
  xs.mergeSort (fun a b => !(b.timestamp.after a.timestamp))

def recent (s : Store) (limit : Int) : Act (List Summary) := do
  let idx ← s.loadIndex
  return (newestFirst idx.episodes).take (limitOf limit)

/-- Remove an episode's body and every index reference; false when it is not
indexed. -/
def delete (s : Store) (id : String) : Act Bool := do
  if !validId id then return false
  let r ← attempt (s.update fun idx => do
    match idx.find? id with
    | none => return (false, idx, false)
    | some summary =>
      let t ← files
      match t.remove (s.bodyPath id summary.timestamp) with
      | .ok t' => setFiles t'
      | .error e => if e.reason == .notFound then pure () else fail e.toFailure
      let (idx', found) := idx.remove id
      return (true, idx', found))
  match r with
  | .ok found => return found
  | .error e => fail (e.within ("deleting episode " ++ id))

/-- What a prune reads of a body. -/
structure Probe where
  timestamp : String := ""
  importance : Option Int := none

/-- Read a prune probe. -/
def Probe.read (j : Json) : Except Failure Probe :=
  Json.readRecord
    [ ⟨"timestamp", fun v p => (Json.readString v p.timestamp).map fun x => { p with timestamp := x }⟩,
      ⟨"importance", fun v p => (Json.readOptInt v).map fun n => { p with importance := n }⟩ ]
    {} "probe" j

/-- Remove the episodes older than `cutoff` whose importance is below `minImportance`,
scanning the bodies; unreadable bodies are skipped.  The number removed is returned
with the failure, if any: bodies removed before a failure stay removed. -/
def prune (s : Store) (cutoff : Clock.Instant) (minImportance : Int) : Act (Nat × Option Failure) := do
  let removedBox ← attempt (s.update fun idx => do
    let paths ← s.bodyFiles
    let step (acc : Index × Nat) (path : String) : Act (Index × Nat) := do
      let (idx, removed) := acc
      let t ← files
      let probe := match fetch t path with
        | .ok (some text) => (Json.parseDocument text >>= Probe.read).toOption
        | _ => none
      match probe with
      | none =>
        emit s.log .debug "skipping unreadable episode" [.text "path" path]
        return (idx, removed)
      | some p =>
        let ts := if p.timestamp.isEmpty then Clock.Instant.ofCivil 2020 1 1 0 0 0 else parseTimestamp p.timestamp
        if !p.timestamp.isEmpty && ts.isZero then
          emit s.log .debug "skipping episode with bad timestamp" [.text "path" path]
          return (idx, removed)
        let importance := p.importance.getD defaultImportance
        if !(ts.before cutoff) || importance ≥ minImportance then return (idx, removed)
        match t.remove path with
        | .error e =>
          emit s.log .debug "failed to remove episode" [.text "path" path, Logging.Field.failure e.message]
          return (idx, removed)
        | .ok t' =>
          setFiles t'
          let stem := Disk.base path
          let stem := if stem.endsWith ".json" then String.ofList (stem.toList.take (stem.length - 5)) else stem
          return ((idx.remove stem).1, removed + 1)
    let (idx', removed) ← paths.foldlM step (idx, 0)
    return (removed > 0, idx', removed))
  match removedBox with
  | .ok n => return (n, none)
  | .error e => return (0, some (e.within "pruning episodes"))

/-- Regenerate the index from the bodies on disk; the number of indexed episodes. -/
def rebuild (s : Store) : Act Nat := do
  let r ← attempt (withLock s.indexPath do
    let paths ← s.bodyFiles
    let summaries ← paths.foldlM (fun acc path => do
      match ← attempt (readJson path Episode.read) with
      | .error e =>
        emit s.log .debug "skipping unreadable episode" [.text "path" path, Logging.Field.failure e.message]
        return acc
      | .ok ep =>
        let ep := ep.getD {}
        let stem := Disk.base path
        let stem := if stem.endsWith ".json" then String.ofList (stem.toList.take (stem.length - 5)) else stem
        let ep := if ep.id.isEmpty then { ep with id := stem } else ep
        let ep := if ep.importance == 0 then { ep with importance := defaultImportance } else ep
        return acc ++ [ep.summary]) []
    let idx := ({ episodes := sortSummaries summaries } : Index).reindex
    s.writeIndex idx
    return idx.episodes.length)
  match r with
  | .error e => fail (e.within "rebuilding episode index")
  | .ok n =>
    emit s.log .info "episode index rebuilt" [.int "episodes" n]
    return n

def count (s : Store) : Act Nat := do
  return (← s.loadIndex).episodes.length

def tags (s : Store) : Act (List String) := do
  return (← s.loadIndex).tagNames

def projects (s : Store) : Act (List String) := do
  return (← s.loadIndex).projectNames

def summaries (s : Store) : Act (List Summary) := do
  return (← s.loadIndex).episodes

/-- Write the flat projection of the `limit` newest episodes to the legacy index; the
number of entries written. -/
def exportLegacy (s : Store) (limit : Int) : Act Nat := do
  if limit ≤ 0 then fail (Failure.plain ("legacy index limit must be positive, got " ++ toString limit))
  let r ← attempt (withLock s.indexPath do
    let (idx, _) ← s.readIndex
    let recent := (newestFirst idx.episodes).take limit.toNat
    -- an identifier logged twice is exported once, as its last summary
    let entries := lastPerKey (recent.map fun sum => (sum.id, sum.flatJson, sum.timestamp))
    let entries := entries.mergeSort (fun a b => decide (a.1 ≤ b.1))
    writeJsonTimed s.legacyIndexPath (entries.map (·.2.2)) (.obj (entries.map fun x => (x.1, x.2.1)))
    return entries.length)
  match r with
  | .error e => fail (e.within "exporting legacy index")
  | .ok n =>
    emit s.log .debug "legacy index exported" [.int "entries" n]
    return n

end Store
end Episodic
end AgentMemory
