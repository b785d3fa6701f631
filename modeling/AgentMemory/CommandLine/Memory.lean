import AgentMemory.CommandLine.Run
import AgentMemory.Memory.Manager

namespace AgentMemory
namespace CommandLine

open Storage

/-!
# The memory program

`ralph-memory` reads and writes the three stores and assembles the memory relevant
to a task.  Each command prints one indented document:

* `write semantic|episodic|procedural -c TEXT`: the id of the new record; the text
  is a fact's content, an episode's task or a rule's behavior (and, by default, its
  trigger); an episode belongs to the working directory's project by default;
* `search QUERY`: the matches of each requested store (facts and episodes by
  default), at most ten each;
* `context TASK`: facts, similar episodes, rules and prompts for a task;
* `stats`: the sizes of the stores;
* `update ID`, `delete ID`, `apply ID`: whether the record was found; a record that
  was not found also fails the command with `ID: not found`;
* `episodes [ID]`: one episode, or the newest summaries;
* `reasoning store AGENT TASK TEXT`, `reasoning recent AGENT`: an agent's reasoning;
* `reindex`: the number of episodes indexed.
-/

/-- The memory program's commands. -/
def memoryProgram : Program :=
  { name := "ralph-memory", version := "dev", persistent := globalFlags,
    commands := [
      { path := [], use := "ralph-memory", short := "Read and write the layered memory stores",
        long := "ralph-memory reads and writes semantic facts, episodes and procedural\n" ++
          "rules, and assembles the memory relevant to a task.\n\n" ++
          "The storage root is --root, $RALPH_DIR or ~/.ralph.",
        runnable := false },
      { path := ["write"], use := "write <semantic|episodic|procedural>",
        short := "Write a fact, episode or rule",
        long := "Write a memory record and print its id.\n\nExamples:\n" ++
          "  # Record a fact\n" ++
          "  ralph-memory write semantic -c \"use TypeScript for type safety\" --category tech_decision\n\n" ++
          "  # Record an episode for the current project\n" ++
          "  ralph-memory write episodic -c \"Migrated auth to JWT\" -t auth -t jwt -i 7\n\n" ++
          "  # Record a rule; the content is the behavior\n" ++
          "  ralph-memory write procedural -c \"Run migrations on a scratch database first\" --trigger \"database migration\"",
        arity := .exactly 1,
        flags := [
          { name := "content", short := some 'c', kind := .text, required := true,
            usage := "fact content, episode task or rule behavior (required)" },
          { name := "category", kind := .text, usage := "fact category", shown := "general" },
          { name := "source", kind := .text, usage := "fact source", shown := "cli" },
          { name := "importance", short := some 'i', kind := .whole, usage := "importance 1-10", shown := "5" },
          { name := "tags", short := some 't', kind := .texts, usage := "tags (repeatable or comma separated)" },
          { name := "ttl-days", kind := .whole, usage := "expire the fact after this many days" },
          { name := "project", short := some 'p', kind := .text,
            usage := "episode project (default current directory name)" },
          { name := "session-id", kind := .text, usage := "episode session id", shown := "cli" },
          { name := "failed", kind := .toggle, usage := "mark the episode unsuccessful" },
          { name := "trigger", kind := .text, usage := "rule trigger (default the content)" },
          { name := "rationale", kind := .text, usage := "rule rationale", shown := "CLI created" },
          { name := "confidence", kind := .real, usage := "rule confidence 0-1", shown := "0.8" },
          { name := "injection-point", kind := .text, usage := "hook stage the rule prompt is injected at",
            shown := "PreToolUse" }] },
      { path := ["search"], use := "search <query>", short := "Search across memory types",
        arity := .exactly 1,
        flags := [
          { name := "types", kind := .texts, usage := "memory types to search", shown := "[semantic,episodic]" },
          { name := "limit", kind := .whole, usage := "maximum results per type", shown := "10" }] },
      { path := ["context"], use := "context <task>", short := "Gather the memory relevant to a task",
        arity := .exactly 1,
        flags := [{ name := "project", short := some 'p', kind := .text,
                    usage := "limit similar episodes to a project" }] },
      { path := ["stats"], use := "stats", short := "Show memory statistics", arity := .none },
      { path := ["update"], use := "update <fact-id>", short := "Change a fact's content or importance",
        arity := .exactly 1,
        flags := [{ name := "content", short := some 'c', kind := .text, usage := "new content" },
                  { name := "importance", short := some 'i', kind := .whole, usage := "new importance 1-10" }] },
      { path := ["delete"], use := "delete <id>", short := "Delete a fact or an episode", arity := .exactly 1,
        flags := [{ name := "type", kind := .text, usage := "semantic or episodic", shown := "semantic" }] },
      { path := ["apply"], use := "apply <rule-id>", short := "Record that a rule was applied",
        arity := .exactly 1 },
      { path := ["episodes"], use := "episodes [episode-id]",
        short := "Show one episode, or the most recent summaries", arity := .atMost 1,
        flags := [{ name := "limit", kind := .whole, usage := "number of recent episodes", shown := "10" }] },
      { path := ["reasoning"], use := "reasoning", short := "Store or read an agent's reasoning log",
        runnable := false },
      { path := ["reasoning", "store"], use := "store <agent> <task-id> <reasoning>",
        short := "Append reasoning for an agent", arity := .exactly 3,
        flags := [{ name := "project", short := some 'p', kind := .text,
                    usage := "project (default current directory name)" }] },
      { path := ["reasoning", "recent"], use := "recent <agent>", short := "Show an agent's newest reasoning first",
        arity := .exactly 1,
        flags := [{ name := "limit", kind := .whole, usage := "maximum entries", shown := "10" }] },
      { path := ["reindex"], use := "reindex", short := "Rebuild the episode index from the files on disk",
        arity := .none }] }

/-- Write the record a `write` command asks for. -/
def writeRecord (m : Memory.Manager) (given : Given) (kindName : String) : Act Reply := do
  let kinds ← match Memory.Kind.parseAll [kindName] with
    | .ok ks => pure ks
    | .error e => fail e
  let content := given.text "content"
  let tags : Option (List String) := if given.changed "tags" then some (given.texts "tags") else none
  match kinds.headD .semantic with
  | .episodic =>
    let project ← if given.text "project" == "" then currentProject else pure (given.text "project")
    let (res, _) ← m.writeEpisode
      { task := content, context := "CLI input", project := project,
        sessionId := given.text "session-id" "cli", success := !given.toggle "failed",
        tags := tags, importance := given.whole "importance" 5 }
    return .result res.toJson
  | .procedural =>
    let trigger := if given.text "trigger" == "" then content else given.text "trigger"
    let res ← m.writeRule
      { trigger := trigger, behavior := content, rationale := given.text "rationale" "CLI created",
        confidence := given.real "confidence" Procedural.defaultConfidence,
        injectionPoint := given.text "injection-point" Procedural.defaultInjectionPoint }
    return .result res.toJson
  | _ =>
    let ttl := given.whole "ttl-days"
    let res ← m.writeFact
      { content := content, category := given.text "category" "general", source := given.text "source" "cli",
        importance := given.whole "importance" 5, tags := (tags.getD []),
        ttlDays := if ttl > 0 then some ttl else none }
    return .result res.toJson

/-- Run a command of the memory program. -/
def runMemory (_ : Invocation) (env : Env) (c : Command) (given : Given) (args : List String) : Act Reply := do
  let m := Memory.Manager.create env.settings (env.log.named "memory")
  let arg := args.headD ""
  match c.path with
  | ["write"] => writeRecord m given arg
  | ["search"] =>
    match Memory.Kind.parseAll (given.texts "types" ["semantic", "episodic"]) with
    | .error e => fail e
    | .ok kinds => return .result (← m.search arg kinds (given.whole "limit" 10)).toJson
  | ["context"] => return .result (← m.context arg (given.text "project")).toJson
  | ["stats"] => return .result (← m.stats).toJson
  | ["update"] =>
    let req : Semantic.UpdateRequest :=
      { content := if given.changed "content" then some (given.text "content") else none,
        importance := if given.changed "importance" then some (given.whole "importance") else none }
    if req.content.isNone && req.importance.isNone then
      fail (Failure.plain "nothing to update: set --content or --importance")
    return Reply.found arg (← m.updateFact arg req)
  | ["delete"] =>
    let kind := given.text "type" "semantic"
    match Text.lower kind with
    | "semantic" => return Reply.found arg (← m.deleteFact arg)
    | "episodic" => return Reply.found arg (← m.deleteEpisode arg)
    | _ => fail (Failure.plain ("unknown memory type: " ++ Text.quote kind ++ " (semantic or episodic)"))
  | ["apply"] => return Reply.found arg (← m.applyRule arg)
  | ["episodes"] =>
    match args with
    | [] => return .result (.arr ((← m.recentEpisodes (given.whole "limit" 10)).map Episodic.Summary.toJson))
    | id :: _ =>
      match ← m.getEpisode id with
      | some ep => return .result ep.toJson
      | none => return Reply.found id false
  | ["reasoning", "store"] =>
    let project ← if given.text "project" == "" then currentProject else pure (given.text "project")
    let e ← m.storeReasoning arg (args.getD 1 "") project (args.getD 2 "")
    return .result e.toJson
  | ["reasoning", "recent"] =>
    return .result (.arr ((← m.recentReasoning arg (given.whole "limit" 10)).map Reasoning.Entry.toJson))
  | ["reindex"] =>
    let (n, problem) ← m.reindex
    match problem with
    | some e => fail e
    | none => return .result (.obj [("episodes", Json.ofNat n)])
  | _ => return {}

def memoryTool : Tool :=
  { program := memoryProgram, options := fun _ given => globalOptions given, run := runMemory }

end CommandLine
end AgentMemory
