import AgentMemory.Storage.World
import AgentMemory.Config.Load
import AgentMemory.Json.Write

namespace AgentMemory
namespace CommandLine

open Storage

/-!
# Starting and stopping a program

Both programs start the same way.  The settings are loaded for the storage root and
the configuration document; when they cannot be loaded the defaults are used for
the root given (or the environment's default root) and a warning is logged once the
logger is open.  The log file, if the program keeps one, is decided from the
settings.  The logger is set up from the settings' level and format; when those do
not make a valid set-up, the default one is used with the same file.  A quiet
program writes nothing to the standard error stream, provided it has a file to
write to.  Opening the logger is the only way starting can fail.

When a program stops, the meter's measurements are printed, one document line
each, if measurements were asked for.

Results are printed as indented documents, two blanks per level, with markup
characters kept, and a line feed after each.
-/

/-- Where a program's log file goes. -/
inductive LogPlace where
  /-- No file. -/
  | none
  /-- `logs/reflection.log` under the root, once the storage directories are made;
  no file when they cannot be. -/
  | reflection
  /-- A path under the root. -/
  | under (path : String)
deriving Inhabited

/-- How a program is started: its global flags and its logging wishes. -/
structure Options where
  root : String := ""
  configPath : String := ""
  metrics : Bool := false
  logPlace : LogPlace := .none
  quiet : Bool := false
deriving Inhabited

/-- What a started program runs with. -/
structure Env where
  settings : Config.Settings
  /-- The program's root log channel. -/
  log : Logging.Channel := {}
  metrics : Bool := false
deriving Inhabited

/-- Make the directories the stores keep their files in, in order, stopping at the
first that cannot be made; whether all were made. -/
def ensureDirs (c : Config.Settings) : Act Bool := do
  let dirs := [Disk.parent c.configPath, Disk.parent c.semanticPath, c.episodesDir,
    Disk.parent c.proceduralPath, c.logsDir]
  let rec go (t : Disk.Tree) : List String → Disk.Tree × Bool
    | [] => (t, true)
    | d :: ds =>
      match t.mkdirAll d with
      | .ok t => go t ds
      | .error _ => (t, false)
  let (t, ok) := go (← files) dirs
  setFiles t
  return ok

/-- The log file of a place, for some settings. -/
def LogPlace.file (place : LogPlace) (c : Config.Settings) : Act String := do
  match place with
  | .none => return ""
  | .reflection => if ← ensureDirs c then return c.reflectionLogPath else return ""
  | .under p => return Disk.clean (Disk.join c.rootDir p)

/-- The settings for a start, and why the configured ones could not be loaded. -/
def loadSettings (o : Options) (env : Config.Environment) : Act (Config.Settings × Option String) := do
  let root ← resolve (if o.root.isEmpty then Config.defaultRootDir env else o.root)
  let path ← if o.configPath.isEmpty then pure "" else resolve o.configPath
  match Config.load (← files) env root path with
  | .ok s => return (s, none)
  | .error e => return (Config.Settings.defaults root, some e.message)

/-- Start a program: load the settings, open the logger with the given caller and
stack texts, and warn about settings that could not be loaded. -/
def start (o : Options) (env : Config.Environment) (caller stack : String) : Act Env := do
  let (settings, problem) ← loadSettings o env
  let file ← o.logPlace.file settings
  let logging : Logging.Options :=
    match Logging.Options.ofSettings settings.logging.level settings.logging.format file with
    | .ok l => l
    | .error _ => { file := file }
  let logging := if o.quiet && !file.isEmpty then { logging with stderr := false } else logging
  match Logging.Logger.open logging false (← files) with
  | .error m => fail (Failure.plain ("creating logger: " ++ m))
  | .ok (logger, t) =>
    setFiles t
    modify fun w => { w with sink := some { logger := logger, caller := caller, stack := stack } }
  let env : Env := { settings := settings, metrics := o.metrics }
  if let some m := problem then
    emit env.log .warn "config unavailable, using defaults" [Logging.Field.failure m]
  return env

/-- Stop a program: the measurement lines it prints, if measurements were asked for. -/
def Env.stop (e : Env) : Act String := do
  if !e.metrics then return ""
  let ms := (← get).meter.snapshot
  return String.join (ms.map fun mm => mm.line ++ "\n")

def printed (j : Json) : String := Json.indentedAt .plain 0 j ++ "\n"

end CommandLine
end AgentMemory
