import AgentMemory.Semantic.Fact
import AgentMemory.Storage.Document

namespace AgentMemory
namespace Semantic

open Storage

/-!
# The fact store

All facts live in one document, `{"facts": [...]}`.  Every change is a locked cycle
on the whole document (reload, change, write), so concurrent processes never lose
an update; a change that changes nothing writes nothing.

Searching matches the query as a lower-cased substring of a fact's content or of
one of its tags, and ranks the matches by descending importance, keeping document
order among equals.
-/

/-- The fact store: the document's path and where it logs. -/
structure Store where
  path : String
  log : Logging.Channel := Logging.Channel.nop
deriving Inhabited

namespace Store

/-- Read the document's facts; a missing document has none. -/
def readFacts (j : Json) : Except Failure (List Fact) :=
  (Json.readRecord
    [ ⟨"facts", fun v (_ : Option (List Fact)) => Json.readList Fact.read "[]semantic.Fact" v⟩ ]
    none "semantic.document" j).map (·.getD [])

/-- Load the facts. -/
def load (s : Store) : Act (List Fact) := do
  let r ← attempt (readJson s.path readFacts)
  match r with
  | .ok v => return v.getD []
  | .error e => fail (e.within "loading facts")

/-- The document of a list of facts. -/
def document (facts : List Fact) : Json := .obj [("facts", .arr (facts.map Fact.toJson))]

/-- The instants of a list of facts in the order its document holds them. -/
def times (facts : List Fact) : List Clock.Instant := facts.flatMap fun f => [f.createdAt, f.updatedAt]

/-- A locked change of the facts; the change says whether to write.  A document holding
an instant with no written form is refused. -/
def update {α : Type} (s : Store) (change : List Fact → Act (Bool × List Fact × α)) : Act α :=
  withLock s.path do
    let facts ← s.load
    let (changed, facts, out) ← change facts
    if changed then writeJsonTimed s.path (times facts) (document facts)
    return out

/-- Check a request and store a new fact; its identifier is returned. -/
def write (s : Store) (req : WriteRequest) : Act String := do
  let req ← match req.validate with
    | .ok r => pure r
    | .error e => fail e
  let id := "sem-" ++ (← freshHex 12)
  let now ← clock
  let fact : Fact :=
    { id := id, content := req.content, category := req.category,
      source := req.source, confidence := defaultConfidence, importance := req.importance,
      createdAt := now, updatedAt := now, ttlDays := req.ttlDays, tags := some req.tags }
  let r ← attempt (s.update fun facts => pure (true, facts ++ [fact], ()))
  match r with
  | .error e => fail (e.within "writing fact")
  | .ok () =>
    emit s.log .debug "fact written" [.text "fact_id" id, .text "category" fact.category]
    return id

/-- Facts whose content or tags contain the query in any case, most important first,
at most `limit` (10 when not positive). -/
def search (s : Store) (query : String) (limit : Int) : Act (List Fact) := do
  let limit := if limit ≤ 0 then defaultSearchLimit else limit.toNat
  let facts ← s.load
  let q := Text.lower query
  let hits := (facts.filter (·.mentions q)).mergeSort (fun a b => decide (a.importance ≥ b.importance))
  return hits.take limit

/-- Change the given fields of a fact and refresh its update time; false when the
fact is unknown. -/
def change (s : Store) (id : String) (req : UpdateRequest) : Act Bool := do
  match req.validate with
  | .error e => fail e
  | .ok () => pure ()
  let now ← clock
  let r ← attempt (s.update fun facts =>
    if facts.any (·.id == id) then
      let (before, rest) := facts.span (·.id != id)
      match rest with
      | f :: after =>
        let f :=
          { f with content := req.content.getD f.content,
                   importance := req.importance.getD f.importance, updatedAt := now }
        pure (true, before ++ f :: after, true)
      | [] => pure (false, facts, false)
    else pure (false, facts, false))
  match r with
  | .ok found => return found
  | .error e => fail (e.within ("updating fact " ++ id))

/-- Remove a fact; false when it is unknown. -/
def delete (s : Store) (id : String) : Act Bool := do
  let r ← attempt (s.update fun facts =>
    let (before, rest) := facts.span (·.id != id)
    match rest with
    | _ :: after => pure (true, before ++ after, true)
    | [] => pure (false, facts, false))
  match r with
  | .ok found => return found
  | .error e => fail (e.within ("deleting fact " ++ id))

def get (s : Store) (id : String) : Act (Option Fact) := do
  return (← s.load).find? (·.id == id)

def list (s : Store) : Act (List Fact) := s.load

def count (s : Store) : Act Nat := do
  return (← s.load).length

/-- Remove the facts whose time to live has passed at `now`; the number removed. -/
def expire (s : Store) (now : Clock.Instant) : Act Nat := do
  let r ← attempt (s.update fun facts =>
    let kept := facts.filter (fun f => !f.expired now)
    let removed := facts.length - kept.length
    pure (removed > 0, kept, removed))
  match r with
  | .error e => fail (e.within "expiring facts")
  | .ok removed =>
    if removed > 0 then emit s.log .info "expired facts removed" [.int "removed" removed]
    return removed

end Store
end Semantic
end AgentMemory
