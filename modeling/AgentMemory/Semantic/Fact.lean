import AgentMemory.Json.Decode
import AgentMemory.Json.Write
import AgentMemory.Text.Case
import AgentMemory.Text.Quote

namespace AgentMemory
namespace Semantic

/-!
# Facts

A fact is a stable, atomic piece of knowledge: a text with a category, a source,
an importance from 1 to 10 and tags.  A fact may have a time to live in days; it has
expired once that many days have passed since it was created.

A written fact is checked first: its content must not be blank, its category must
be one of `user_pref`, `project_fact`, `tech_decision`, `team_knowledge` and
`general` (the default), its importance must lie in 1..10 (0 means 5), and a time
to live must be positive.
-/

def defaultImportance : Int := 5

def defaultConfidence : Float := 1.0

/-- The number of results of a search that gives no limit. -/
def defaultSearchLimit : Nat := 10

def categories : List String :=
  ["user_pref", "project_fact", "tech_decision", "team_knowledge", "general"]

/-- A stored fact.  The tags distinguish absent from empty, as their documents do. -/
structure Fact where
  id : String := ""
  content : String := ""
  category : String := ""
  source : String := ""
  confidence : Float := 0
  importance : Int := 0
  createdAt : Clock.Instant := Clock.Instant.zero
  updatedAt : Clock.Instant := Clock.Instant.zero
  ttlDays : Option Int := none
  tags : Option (List String) := none
deriving Inhabited

namespace Fact

/-- The fact's time to live has passed at `now`. -/
def expired (f : Fact) (now : Clock.Instant) : Bool :=
  match f.ttlDays with
  | none => false
  | some days => (f.createdAt.add (Clock.daysSpan days)).before now

/-- The lower-cased query occurs in the content or a tag, in any case. -/
def mentions (f : Fact) (query : String) : Bool :=
  Text.containsText (Text.lower f.content) query ||
    (f.tags.getD []).any (fun t => Text.containsText (Text.lower t) query)

/-- Read a fact. -/
def read (j : Json) : Except Failure Fact :=
  Json.readRecord
    [ ⟨"fact_id", fun v f => (Json.readString v f.id).map fun s => { f with id := s }⟩,
      ⟨"content", fun v f => (Json.readString v f.content).map fun s => { f with content := s }⟩,
      ⟨"category", fun v f => (Json.readString v f.category).map fun s => { f with category := s }⟩,
      ⟨"source", fun v f => (Json.readString v f.source).map fun s => { f with source := s }⟩,
      ⟨"confidence", fun v f => (Json.readFloat v f.confidence).map fun x => { f with confidence := x }⟩,
      ⟨"importance", fun v f => (Json.readInt v f.importance).map fun n => { f with importance := n }⟩,
      ⟨"created_at", fun v f => (Json.readInstant v f.createdAt).map fun t => { f with createdAt := t }⟩,
      ⟨"updated_at", fun v f => (Json.readInstant v f.updatedAt).map fun t => { f with updatedAt := t }⟩,
      ⟨"ttl_days", fun v f => (Json.readOptInt v).map fun n => { f with ttlDays := n }⟩,
      ⟨"tags", fun v f => (Json.readStrings v).map fun xs => { f with tags := xs }⟩ ]
    {} "semantic.Fact" j

/-- The document form of a fact. -/
def toJson (f : Fact) : Json :=
  .obj [("fact_id", .str f.id), ("content", .str f.content), ("category", .str f.category),
    ("source", .str f.source), ("confidence", Json.ofFloat f.confidence),
    ("importance", Json.ofInt f.importance), ("created_at", .str f.createdAt.rfc3339),
    ("updated_at", .str f.updatedAt.rfc3339),
    ("ttl_days", match f.ttlDays with | some n => Json.ofInt n | none => .null),
    ("tags", Json.ofStrings? f.tags)]

end Fact

/-- A new fact as asked for.  Zero values select defaults. -/
structure WriteRequest where
  content : String := ""
  category : String := ""
  source : String := ""
  importance : Int := 0
  tags : List String := []
  ttlDays : Option Int := none
deriving Inhabited

/-- Check a write request and fill its defaults. -/
def WriteRequest.validate (r : WriteRequest) : Except Failure WriteRequest := do
  if Text.isBlankText r.content then throw ⟨.emptyContent, "fact content cannot be empty"⟩
  let category := if r.category.isEmpty then "general" else r.category
  if !categories.contains category then
    throw ⟨.invalidCategory, "invalid fact category: " ++ Text.quote category⟩
  let importance := if r.importance == 0 then defaultImportance else r.importance
  if importance < 1 || importance > 10 then
    throw ⟨.invalidImportance, "importance must be between 1 and 10: got " ++ toString importance⟩
  match r.ttlDays with
  | some d => if d ≤ 0 then throw ⟨.invalidTtl, "ttl_days must be positive: got " ++ toString d⟩
  | none => pure ()
  return { r with category := category, importance := importance }

/-- A change of a fact: only the given fields change. -/
structure UpdateRequest where
  content : Option String := none
  importance : Option Int := none
deriving Inhabited

/-- Check the given fields of an update. -/
def UpdateRequest.validate (r : UpdateRequest) : Except Failure Unit := do
  match r.content with
  | some c => if Text.isBlankText c then throw ⟨.emptyContent, "fact content cannot be empty"⟩
  | none => pure ()
  match r.importance with
  | some n =>
    if n < 1 || n > 10 then
      throw ⟨.invalidImportance, "importance must be between 1 and 10: got " ++ toString n⟩
  | none => pure ()

end Semantic
end AgentMemory
