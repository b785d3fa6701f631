import AgentMemory.Config.Settings
import AgentMemory.Semantic.Store
import AgentMemory.Episodic.Store
import AgentMemory.Procedural.Store
import AgentMemory.Reasoning.Log

namespace AgentMemory
namespace Memory

open Storage

/-!
# The memory manager

The manager is the single entry point of the hot path: it writes to and searches
the three stores (semantic facts, episodes and procedural rules), assembles the
context of a task, and reports sizes.

Every write, update, deletion, application, search and reindex is counted on the
meter as `ralph.memory.operations_total` with its operation and store type, and
failures also as `ralph.memory.errors_total`.
-/

/-- The store types of the memory.  Searches may be asked for other names, which
fail. -/
inductive Kind where
  | semantic
  | episodic
  | procedural
  | other (name : String)
deriving Inhabited, BEq, Repr

namespace Kind

/-- The name of a store type. -/
def name : Kind → String
  | .semantic => "semantic"
  | .episodic => "episodic"
  | .procedural => "procedural"
  | .other n => n

/-- The type of a name, as given. -/
def ofName (n : String) : Kind :=
  match n with
  | "semantic" => .semantic
  | "episodic" => .episodic
  | "procedural" => .procedural
  | n => .other n

/-- All store types, the default scope of a search. -/
def all : List Kind := [.semantic, .episodic, .procedural]

/-- The refusal of an unknown type name. -/
def unknown (name : String) : Failure := ⟨.unknownMemoryType, "unknown memory type: " ++ Text.quote name⟩

/-- Read type names in any case and with blanks around them, dropping repeats; no
names means all types. -/
def parseAll (names : List String) : Except Failure (List Kind) :=
  if names.isEmpty then .ok all
  else
    names.foldlM (fun acc n =>
      let k := ofName (Text.lower (Text.trimBlank n))
      match k with
      | .other _ => .error (unknown n)
      | _ => .ok (if acc.contains k then acc else acc ++ [k])) []

end Kind

/-- A successful write: the identifier under the store's own key. -/
structure WriteResult where
  id : String
  kind : Kind
deriving Inhabited

/-- The document form of a write result. -/
def WriteResult.toJson (r : WriteResult) : Json :=
  let key := match r.kind with
    | .semantic => "fact_id"
    | .episodic => "episode_id"
    | .procedural => "rule_id"
    | .other _ => "id"
  .obj ([(key, .str r.id), ("success", .bool true), ("type", .str r.kind.name)].mergeSort
    (fun a b => decide (a.1 ≤ b.1)))

/-- One result list per searched store type. -/
structure SearchResults where
  searched : List Kind
  facts : List Semantic.Fact := []
  episodes : List Episodic.Summary := []
  rules : List Procedural.Rule := []
deriving Inhabited

/-- The document form of search results: one member per searched type. -/
def SearchResults.toJson (r : SearchResults) : Json :=
  let members := r.searched.foldl (fun acc k =>
    let v : Option Json := match k with
      | .semantic => some (.arr (r.facts.map Semantic.Fact.toJson))
      | .episodic => some (.arr (r.episodes.map Episodic.Summary.toJson))
      | .procedural => some (.arr (r.rules.map Procedural.Rule.toJson))
      | .other _ => none
    match v with
    | some v => if acc.any (·.1 == k.name) then acc else acc ++ [(k.name, v)]
    | none => acc) []
  .obj (members.mergeSort (fun a b => decide (a.1 ≤ b.1)))

/-- Everything the stores know that bears on a task. -/
structure TaskContext where
  facts : List Semantic.Fact
  episodes : List Episodic.Summary
  rules : List Procedural.Rule
  prompts : List String
deriving Inhabited

/-- The document form of a task context. -/
def TaskContext.toJson (c : TaskContext) : Json :=
  .obj [("semantic_facts", .arr (c.facts.map Semantic.Fact.toJson)),
    ("similar_episodes", .arr (c.episodes.map Episodic.Summary.toJson)),
    ("applicable_rules", .arr (c.rules.map Procedural.Rule.toJson)),
    ("prompt_injections", Json.ofStrings c.prompts)]

/-- The sizes of the stores, and the known tags and projects. -/
structure Stats where
  facts : Nat
  episodes : Nat
  rules : Nat
  activeRules : Nat
  tags : List String
  projects : List String
deriving Inhabited

/-- The document form of the sizes. -/
def Stats.toJson (s : Stats) : Json :=
  .obj [("semantic_count", Json.ofNat s.facts), ("episodic_count", Json.ofNat s.episodes),
    ("procedural_count", Json.ofNat s.rules), ("active_rules", Json.ofNat s.activeRules),
    ("tags", Json.ofStrings s.tags), ("projects", Json.ofStrings s.projects)]

/-- The number of facts and of episodes in a task context. -/
def contextLimit : Int := 5

/-- The memory manager: the settings and the four stores. -/
structure Manager where
  settings : Config.Settings
  facts : Semantic.Store
  episodes : Episodic.Store
  rules : Procedural.Store
  reasoning : Reasoning.Store
  log : Logging.Channel
deriving Inhabited

namespace Manager

/-- The manager of the stores under the settings' root; each store logs on a child
channel named after it. -/
def create (settings : Config.Settings) (log : Logging.Channel) : Manager :=
  { settings := settings,
    facts := { path := settings.semanticPath, log := log.named "semantic" },
    episodes := { dir := settings.episodesDir, log := log.named "episodic" },
    rules := { path := settings.proceduralPath, log := log.named "procedural" },
    reasoning := { dir := settings.agentMemoryDir, log := log.named "reasoning" },
    log := log }

/-- Count one operation on a store type, and its failure. -/
def record (operation : String) (kind : Kind) (failed : Bool) : Act Unit := do
  let attrs := [("operation", operation), ("type", kind.name)]
  measure .counter "ralph.memory.operations_total" attrs 1
  if failed then measure .counter "ralph.memory.errors_total" attrs 1

/-- Run an operation and count it. -/
def counted {α : Type} (operation : String) (kind : Kind) (a : Act α) : Act α := do
  let r ← attempt a
  record operation kind (match r with | .ok _ => false | .error _ => true)
  match r with
  | .ok v => return v
  | .error e => fail e

def writeFact (m : Manager) (req : Semantic.WriteRequest) : Act WriteResult :=
  counted "write" .semantic do
    return ⟨← m.facts.write req, .semantic⟩

/-- Store an episode; the stored episode is returned too. -/
def writeEpisode (m : Manager) (ep : Episodic.Episode) : Act (WriteResult × Episodic.Episode) :=
  counted "write" .episodic do
    let (id, ep) ← m.episodes.write ep
    return (⟨id, .episodic⟩, ep)

def writeRule (m : Manager) (req : Procedural.WriteRequest) : Act WriteResult :=
  counted "write" .procedural do
    return ⟨← m.rules.write req, .procedural⟩

/-- Search each requested store type (all when none), at most `limit` results each
(10 when not positive).  Rules are the served rules whose trigger contains the
query. -/
def search (m : Manager) (query : String) (kinds : List Kind) (limit : Int) : Act SearchResults := do
  let kinds := if kinds.isEmpty then Kind.all else kinds
  let limit := if limit ≤ 0 then (Semantic.defaultSearchLimit : Int) else limit
  kinds.foldlM (fun (res : SearchResults) k => do
    let r ← attempt (match k with
      | .semantic => do return { res with facts := ← m.facts.search query limit }
      | .episodic => do return { res with episodes := ← m.episodes.search { query := query, limit := limit } }
      | .procedural => do return { res with rules := (← m.rules.activeRules query).take limit.toNat }
      | .other n => fail (Kind.unknown n))
    record "search" k (match r with | .ok _ => false | .error _ => true)
    match r with
    | .ok res => return res
    | .error e => fail (e.within ("searching " ++ k.name ++ " memory"))) { searched := kinds }

/-- The top facts and similar episodes of a task, the served rules whose trigger
mentions it, and the prompts injected before tool use. -/
def context (m : Manager) (task project : String) : Act TaskContext := do
  let facts ← (attempt (m.facts.search task contextLimit)) >>= fun r => match r with
    | .ok v => pure v
    | .error e => fail (e.within "searching facts")
  let episodes ← (attempt (m.episodes.search { query := task, project := project, limit := contextLimit })) >>= fun r =>
    match r with
    | .ok v => pure v
    | .error e => fail (e.within "searching episodes")
  let rules ← (attempt (m.rules.activeRules task)) >>= fun r => match r with
    | .ok v => pure v
    | .error e => fail (e.within "loading rules")
  let prompts ← (attempt (m.rules.promptInjections Procedural.defaultInjectionPoint)) >>= fun r =>
    match r with
    | .ok v => pure v
    | .error e => fail (e.within "loading prompt injections")
  emit m.log .debug "task context assembled"
    [.text "project" project, .int "facts" facts.length, .int "episodes" episodes.length,
     .int "rules" rules.length]
  return ⟨facts, episodes, rules, prompts⟩

/-- The sizes of the stores. -/
def stats (m : Manager) : Act Stats := do
  let facts ← m.facts.count
  let episodes ← m.episodes.count
  let (total, active) ← m.rules.count
  let tags ← m.episodes.tags
  let projects ← m.episodes.projects
  return ⟨facts, episodes, total, active, tags, projects⟩

/-- Change a fact; false when it is unknown. -/
def updateFact (m : Manager) (id : String) (req : Semantic.UpdateRequest) : Act Bool :=
  counted "update" .semantic (m.facts.change id req)

/-- Remove a fact; false when it is unknown. -/
def deleteFact (m : Manager) (id : String) : Act Bool :=
  counted "delete" .semantic (m.facts.delete id)

/-- Remove an episode; false when it is unknown. -/
def deleteEpisode (m : Manager) (id : String) : Act Bool :=
  counted "delete" .episodic (m.episodes.delete id)

/-- Record that a rule was applied; false when it is unknown. -/
def applyRule (m : Manager) (id : String) : Act Bool :=
  counted "apply" .procedural (m.rules.apply id)

def getEpisode (m : Manager) (id : String) : Act (Option Episodic.Episode) := m.episodes.get id

def recentEpisodes (m : Manager) (limit : Int) : Act (List Episodic.Summary) := m.episodes.recent limit

/-- Rebuild the episode index and export the legacy index; the number of indexed
episodes is returned with the failure, if any. -/
def reindex (m : Manager) : Act (Nat × Option Failure) := do
  let r ← attempt (m.episodes.rebuild)
  match r with
  | .error e =>
    record "reindex" .episodic true
    return (0, some e)
  | .ok n =>
    let x ← attempt (m.episodes.exportLegacy m.settings.episodic.legacyIndexCap)
    match x with
    | .error e =>
      record "reindex" .episodic true
      return (n, some e)
    | .ok _ =>
      record "reindex" .episodic false
      return (n, none)

def storeReasoning (m : Manager) (agent taskId project content : String) : Act Reasoning.Entry :=
  m.reasoning.append agent taskId project content

def recentReasoning (m : Manager) (agent : String) (limit : Int) : Act (List Reasoning.Entry) :=
  m.reasoning.recent agent limit

/-- Add the prompts of the rules injected at an event's point to its output, at most
`limit`; counted as prompt injections. -/
def injectPrompts (m : Manager) (point : String) (sessionId : String) (limit : Nat) : Act (List String) := do
  let prompts := (← m.rules.promptInjections point).take limit
  if prompts.length > 0 then
    measure .counter "ralph.memory.prompt_injections_total" [("hook", point)] (Float.ofNat prompts.length)
    emit m.log .debug "rule prompts injected"
      [.text "hook" point, .text "session_id" sessionId, .int "count" prompts.length]
  return prompts

end Manager
end Memory
end AgentMemory
