import AgentMemory.Hooks.Event
import AgentMemory.Memory.Manager
import AgentMemory.Reflection.Executor

namespace AgentMemory

open Storage

/-!
# The whole memory

The memory as a program holds it: the manager over the four stores, the reflection
executor, and the hook registry with both subscribed, the manager's prompt injection
first and the executor's transcript extraction after it.  The components log on
child channels named `memory`, `reflection` and `hooks`.
-/

namespace Hooks

/-! ## Dispatching hook events

Components subscribe handlers to hook types; an event runs the handlers of its type
in the order they were subscribed, each adding to the one output.  A failing handler
does not stop the others: its failure is logged, and the failures are reported
together, one message a line, after the output the handlers produced.

Two components subscribe:

* the memory manager adds the prompts of the rules injected at the event's point, at
  most the configured number, at session start, before tool use and when a prompt is
  submitted, unless injection is switched off or limited to nothing;
* the reflection executor turns the event's transcript into an episode and mines
  patterns, at session end and before compaction as configured, when the cold path
  is enabled.
-/

/-- What a subscribed handler does. -/
inductive Handler where
  /-- Add the prompts of the rules injected at the event's point. -/
  | injectPrompts (m : Memory.Manager) (limit : Nat)
  /-- Extract an episode from the event's transcript and mine patterns. -/
  | reflect (x : Reflection.Executor)
deriving Inhabited

/-- The hook types at which rule prompts are injected. -/
def injectionHooks : List HookType := [.sessionStart, .preToolUse, .userPromptSubmit]

/-- Handlers by hook type, in subscription order. -/
structure Registry where
  settings : Config.HookSettings
  log : Logging.Channel
  handlers : List (HookType × Handler) := []
deriving Inhabited

namespace Registry

def subscribe (r : Registry) (t : HookType) (h : Handler) : Registry :=
  { r with handlers := r.handlers ++ [(t, h)] }

/-- Subscribe the manager's prompt injection. -/
def withManager (r : Registry) (m : Memory.Manager) : Act Registry := do
  if !r.settings.injectRules || r.settings.maxInjections == 0 then
    emit m.log .debug "rule injection disabled"
    return r
  let limit := r.settings.maxInjections.toNat
  return injectionHooks.foldl (fun r t => r.subscribe t (.injectPrompts m limit)) r

/-- Subscribe the executor's transcript extraction. -/
def withExecutor (r : Registry) (x : Reflection.Executor) : Act Registry := do
  if !x.settings.coldPath.enabled then
    emit x.log .debug "cold path disabled, reflection hooks not registered"
    return r
  let r := if r.settings.extractOnSessionEnd then r.subscribe .sessionEnd (.reflect x) else r
  let r := if r.settings.extractOnPreCompact then r.subscribe .preCompact (.reflect x) else r
  return r

end Registry

/-- Run one handler on an event. -/
def Handler.run (h : Handler) (ev : Event) (out : Output) : Act Output :=
  match h with
  | .injectPrompts m limit => do
    let prompts ← m.injectPrompts ev.kind.name ev.sessionId limit
    return out.addContext prompts
  | .reflect x => do
    if ev.transcriptPath.isEmpty then
      emit x.log .debug "hook event without transcript, skipping extraction"
        [.text "hook" ev.kind.name, .text "session_id" ev.sessionId]
      return out
    let _ ← x.extract ev.transcriptPath ev.project ev.sessionId
    let _ ← x.runPatterns
    return out

/-- Run the handlers of an event's type.  The output holds what the handlers added;
the failures, if any, are reported together. -/
def Registry.execute (r : Registry) (ev : Event) : Act (Output × Option Failure) := do
  let handlers := (r.handlers.filter (·.1 == ev.kind)).map (·.2)
  let (out, errs) ← handlers.foldlM (fun (acc : Output × List Failure) h => do
    match ← attempt (h.run ev acc.1) with
    | .ok out => return (out, acc.2)
    | .error e =>
      emit r.log .warn "hook handler failed"
        [.text "hook" ev.kind.name, .text "session_id" ev.sessionId, Logging.Field.failure e.message]
      return (acc.1, acc.2 ++ [e])) ({ event := ev.kind.name }, [])
  if errs.isEmpty then return (out, none)
  return (out, some (Failure.joined ("hook " ++ ev.kind.name ++ " failed: ") errs))

end Hooks

namespace Memory

/-- The manager, the executor and the hooks wired to them. -/
structure Assembly where
  manager : Manager
  executor : Reflection.Executor
  hooks : Hooks.Registry
deriving Inhabited

/-- Assemble the memory for some settings. -/
def Assembly.assemble (settings : Config.Settings) (log : Logging.Channel)
    (extractor : Transcript.Extractor) (scrubber : Secrets.Scrubber) : Act Assembly := do
  let manager := Manager.create settings (log.named "memory")
  let executor := Reflection.Executor.create settings (log.named "reflection") extractor scrubber
  let hooks : Hooks.Registry := { settings := settings.hooks, log := log.named "hooks" }
  let hooks ← hooks.withManager manager
  let hooks ← hooks.withExecutor executor
  return ⟨manager, executor, hooks⟩

def Assembly.settings (s : Assembly) : Config.Settings := s.manager.settings

end Memory
end AgentMemory
