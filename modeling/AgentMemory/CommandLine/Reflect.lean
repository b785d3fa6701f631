import AgentMemory.CommandLine.Run
import AgentMemory.Reflection.Watcher
import AgentMemory.Memory.Assembly
import AgentMemory.Logging.Recorder

namespace AgentMemory
namespace CommandLine

open Storage

/-!
# The reflection program

`ralph-reflect` turns finished sessions into episodes, mines them for rules and
keeps the stores within their retention.  It keeps a log file, `logs/reflection.log`
under the root, besides the standard error stream; the `hook` command writes only to
the file, since hook runners show the standard error stream to the user.

* `extract PATH`: the new episode's id, task, success and tags; an unreadable
  transcript gives an episode built from empty text;
* `patterns`: the rules detected, how many were saved and how many there are;
* `cleanup`: what was removed and exported;
* `status`: the settings, counts and the last lines of the log file;
* `decay`: how many rules lost confidence;
* `watch DIR`: one line per transcript written into the directory;
* `hook [EVENT]`: the context to add for the event read from standard input;
  handler failures are logged, never fatal.
-/

/-- The reflection program's commands. -/
def reflectProgram : Program :=
  { name := "ralph-reflect", version := "dev", persistent := globalFlags,
    commands := [
      { path := [], use := "ralph-reflect", short := "Reflect on finished sessions",
        long := "ralph-reflect extracts episodes from session transcripts, mines them\n" ++
          "for procedural rules and enforces retention.\n\n" ++
          "The storage root is --root, $RALPH_DIR or ~/.ralph. Activity is logged to\n" ++
          "<root>/logs/reflection.log.",
        runnable := false },
      { path := ["extract"], use := "extract <transcript>", short := "Extract an episode from a transcript",
        long := "Extract an episode from a plain text or JSONL transcript and save it.\n\n" ++
          "An unreadable transcript yields an episode built from empty text.",
        arity := .exactly 1,
        flags := [
          { name := "project", short := some 'p', kind := .text, usage := "project the session belongs to" },
          { name := "session-id", kind := .text, usage := "session id (default from the transcript)" }] },
      { path := ["patterns"], use := "patterns", short := "Mine episodes for procedural rules and save them",
        arity := .none },
      { path := ["cleanup"], use := "cleanup", short := "Remove expired episodes and facts", arity := .none },
      { path := ["status"], use := "status", short := "Show cold path configuration, counts and recent activity",
        arity := .none,
        flags := [{ name := "lines", short := some 'n', kind := .whole, usage := "reflection log lines to show",
                    shown := "10" }] },
      { path := ["decay"], use := "decay", short := "Lower the confidence of rules that were never applied",
        arity := .none },
      { path := ["watch"], use := "watch <dir>",
        short := "Extract transcripts written to a directory until interrupted",
        long := "Watch a directory and run extraction and pattern mining for each\n" ++
          "transcript (.jsonl or .txt) once it stops changing.\n\n" ++
          "One JSON line is printed per processed transcript.",
        arity := .exactly 1,
        flags := [{ name := "project", short := some 'p', kind := .text,
                    usage := "project for every transcript (default the transcript's directory name)" }] },
      { path := ["hook"], use := "hook [event]", short := "Handle a session lifecycle hook event read from stdin",
        long := "Handle a hook event. The event payload is read from stdin; the event\n" ++
          "name argument is used when the payload does not carry one.\n\n" ++
          "SessionEnd and PreCompact run extraction and pattern mining. SessionStart,\n" ++
          "PreToolUse and UserPromptSubmit print the matching rule prompts as\n" ++
          "additional context.\n\n" ++
          "Handler failures are logged and never fail the hook.",
        arity := .atMost 1 }] }

/-- The executor of a started program. -/
def executorOf (env : Env) : Act Reflection.Executor := do
  match (Secrets.Policy.ofSwitch env.settings.secretsEnabled).activate with
  | .ok s =>
    return Reflection.Executor.create env.settings (env.log.named "reflection") Transcript.Extractor.standard s
  | .error e => fail (Failure.plain ("creating reflection executor: creating scrubber: " ++ e.message))

/-- One line of `watch` output. -/
def watchLine (r : Reflection.WatchResult) : Json :=
  .obj ([("path", .str r.path)] ++
    (match r.episode with
     | some ep => if ep.id.isEmpty then [] else [("episode_id", .str ep.id)]
     | none => []) ++
    [("rules_saved", Json.ofNat (match r.patterns with
      | some p => p.saved.added + p.saved.replaced
      | none => 0))] ++
    (match r.error with
     | some e => if e.message.isEmpty then [] else [("error", .str e.message)]
     | none => []))

/-- Watch a directory while the given files arrive in it. -/
def watchDir (x : Reflection.Executor) (dir project : String) (arrivals : List (String × String)) :
    Act Reply := do
  let w := Reflection.Watcher.create x dir project
  w.start
  let place ← resolve dir
  arrivals.foldlM (fun (acc : Reply) (name, content) => do
    let target := Disk.clean (Disk.join place name)
    let t ← files
    setFiles (((t.mkdirAll (Disk.parent target)).bind fun t => t.writeFile target ⟨content, 0⟩).toOption.getD t)
    if Reflection.Watcher.watches name && !name.contains '/' then
      let r ← w.process (Disk.join dir name)
      return { acc with out := acc.out ++ printed (watchLine r) }
    else return acc) {}

/-- Handle a hook event read from standard input. -/
def handleHook (env : Env) (x : Reflection.Executor) (args : List String) (stdin : String) : Act Reply := do
  let fallback ← match args with
    | [] => pure ""
    | name :: _ =>
      match Hooks.HookType.parse name with
      | .ok t => pure t.name
      | .error e => fail e
  let ev ← match Hooks.parseEvent stdin fallback with
    | .ok ev => pure ev
    | .error e => fail e
  let scope := ({} : Logging.Scope).withProject ev.project |>.withHook ev.kind.name
  let scope := match scope.withSession ev.sessionId with
    | .ok s => s
    | .error _ => scope
  let registry : Hooks.Registry := { settings := env.settings.hooks, log := env.log.named "hooks" }
  let registry ← registry.withExecutor x
  let manager := Memory.Manager.create env.settings (env.log.named "memory")
  let registry ← registry.withManager manager
  let (out, problem) ← registry.execute ev
  match problem with
  | some e => emit env.log .warn "hook completed with errors" (scope.fields ++ [Logging.Field.failure e.message])
  | none => emit env.log .info "hook handled" (scope.fields ++ [.int "context_lines" out.context.length])
  return { out := out.encode }

/-- Run a command of the reflection program. -/
def runReflect (inv : Invocation) (env : Env) (c : Command) (given : Given) (args : List String) :
    Act Reply := do
  let x ← executorOf env
  let arg := args.headD ""
  match c.path with
  | ["extract"] =>
    let ep ← x.extract arg (given.text "project") (given.text "session-id")
    return .result (.obj [("episode_id", .str ep.id), ("task", .str ep.task), ("success", .bool ep.success),
      ("tags", match ep.tags with
        | some ts => Json.ofStrings ts
        | none => .null)])
  | ["patterns"] =>
    let run ← x.runPatterns
    return .result (.obj [("rules_detected", Json.ofNat run.detected.length),
      ("rules_saved", Json.ofNat (run.saved.added + run.saved.replaced)),
      ("rules_total", Json.ofNat run.saved.total),
      ("rules", .arr (run.detected.map Procedural.Rule.toJson))])
  | ["cleanup"] =>
    let (res, problem) ← x.cleanup
    match problem with
    | some e => fail e
    | none => return .result res.toJson
  | ["status"] => return .result (← x.status (given.whole "lines" 10)).toJson
  | ["decay"] => return .result (.obj [("rules_decayed", Json.ofNat (← x.decayUnused))])
  | ["watch"] => watchDir x arg (given.text "project") inv.arrivals
  | ["hook"] => handleHook env x args inv.stdin
  | _ => return {}

/-- The start options of a reflection command: the log file, and quiet for hooks. -/
def reflectOptions (c : Command) (given : Given) : Options :=
  { globalOptions given with logPlace := .reflection, quiet := c.path == ["hook"] }

def reflectTool : Tool :=
  { program := reflectProgram, options := reflectOptions, run := runReflect }

end CommandLine
end AgentMemory
