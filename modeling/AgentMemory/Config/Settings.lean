import AgentMemory.Clock.Span
import AgentMemory.Decimal.Text
import AgentMemory.Disk.Path
import AgentMemory.Json.Write
import AgentMemory.Text.Quote

namespace AgentMemory
namespace Config

/-!
# Settings

One `Settings` value configures every part of the memory: where it lives (the root
directory), the background reflection pipeline (the cold path), how procedural rules
age, how long episodes are kept, how long a store waits for a lock, logging,
secret scrubbing, and what lifecycle hooks do.

Settings are built from defaults, then a configuration document, then environment
variables, and checked before use.  The check refuses values no component can work
with; its messages name the setting and the value.

Every store derives its files from the root: `memory/semantic.json`,
`episodes/`, `procedural/rules.json`, `logs/reflection.log` and `agent-memory/`.
-/

/-- A length of time that cannot be negative, written like `2s` or `250ms`. -/
structure Span where
  nanos : Int
deriving Inhabited, BEq, Repr

/-- The written form of a span. -/
def Span.text (d : Span) : String := Clock.spanText d.nanos

/-- Read a span from text: a malformed or negative span is refused. -/
def Span.parse (text : String) : Except String Span :=
  match Clock.parseSpan text with
  | .error e => .error ("invalid duration " ++ Text.quote text ++ ": " ++ e.message)
  | .ok n => if n < 0 then .error ("duration cannot be negative: " ++ text) else .ok ⟨n⟩

/-- Settings of the background reflection pipeline. -/
structure ColdPath where
  enabled : Bool := true
  patternThreshold : Int := 3
  watchSettle : Span := ⟨2 * Clock.second⟩
deriving Inhabited

/-- Settings of procedural rule retention and decay. -/
structure Retention where
  decayPerWeek : Float := 0.05
  minConfidence : Float := 0.7
  maxRules : Int := 50
  ageDecayFloor : Float := 0.3
  unusedDecayRate : Float := 0.05
deriving Inhabited

/-- Settings of episode retention. -/
structure Keeping where
  ttlDays : Int := 90
  minImportanceToKeep : Int := 3
  legacyIndexCap : Int := 1000
deriving Inhabited

/-- The logging settings a configuration document can give. -/
structure LogSettings where
  level : String := "info"
  format : String := "json"
deriving Inhabited

/-- Settings of lifecycle hooks. -/
structure HookSettings where
  extractOnSessionEnd : Bool := true
  extractOnPreCompact : Bool := true
  injectRules : Bool := true
  maxInjections : Int := 5
deriving Inhabited

/-- The complete configuration of the memory. -/
structure Settings where
  rootDir : String
  coldPath : ColdPath := {}
  procedural : Retention := {}
  episodic : Keeping := {}
  lockTimeout : Span := ⟨5 * Clock.second⟩
  logging : LogSettings := {}
  secretsEnabled : Bool := true
  hooks : HookSettings := {}
deriving Inhabited

/-- Environment variables, in the order they were set. -/
abbrev Environment := List (String × String)

def lookup (env : Environment) (name : String) : String :=
  ((env.filter (fun kv => kv.1 == name)).getLast?.map Prod.snd).getD ""

def rootVariable : String := "RALPH_DIR"

/-- The prefix of variables that override settings. -/
def variablePrefix : String := "RALPH_"

/-- The storage root of an environment: `RALPH_DIR`, else `.ralph` in the home
directory, else `.ralph`. -/
def defaultRootDir (env : Environment) : String :=
  let dir := lookup env rootVariable
  if !dir.isEmpty then dir
  else
    let home := lookup env "HOME"
    if home.isEmpty then ".ralph" else Disk.clean (Disk.join home ".ralph")

def Settings.defaults (root : String) : Settings := { rootDir := root }

/-- A double as the program prints one in messages. -/
def shown (x : Float) : String := Decimal.generalText x

/-- Check the settings, naming the first value no component can work with. -/
def Settings.validate (c : Settings) : Except String Unit :=
  if c.rootDir.isEmpty then .error "root directory cannot be empty"
  else if c.coldPath.patternThreshold < 1 then
    .error ("cold_path.pattern_detection_threshold must be >= 1, got " ++ toString c.coldPath.patternThreshold)
  else if c.procedural.decayPerWeek < 0 then
    .error ("procedural.confidence_decay_per_week cannot be negative, got " ++ shown c.procedural.decayPerWeek)
  else if c.procedural.minConfidence < 0 || c.procedural.minConfidence > 1 then
    .error ("procedural.min_confidence must be between 0.0 and 1.0, got " ++ shown c.procedural.minConfidence)
  else if c.procedural.ageDecayFloor < 0 || c.procedural.ageDecayFloor > 1 then
    .error ("procedural.age_decay_floor must be between 0.0 and 1.0, got " ++ shown c.procedural.ageDecayFloor)
  else if c.procedural.maxRules < 1 then
    .error ("procedural.max_rules must be >= 1, got " ++ toString c.procedural.maxRules)
  else if c.episodic.ttlDays < 0 then
    .error ("episodic.ttl_days cannot be negative, got " ++ toString c.episodic.ttlDays)
  else if c.episodic.legacyIndexCap < 1 then
    .error ("episodic.legacy_index_cap must be >= 1, got " ++ toString c.episodic.legacyIndexCap)
  else if c.lockTimeout.nanos ≤ 0 then .error "storage.lock_timeout must be positive"
  else if c.hooks.maxInjections < 0 then
    .error ("hooks.max_injections cannot be negative, got " ++ toString c.hooks.maxInjections)
  else .ok ()

namespace Settings

def under (c : Settings) (parts : List String) : String := Disk.clean (Disk.joinAll c.rootDir parts)

def configPath (c : Settings) : String := c.under ["config", "memory-config.json"]

def semanticPath (c : Settings) : String := c.under ["memory", "semantic.json"]

def episodesDir (c : Settings) : String := c.under ["episodes"]

def proceduralPath (c : Settings) : String := c.under ["procedural", "rules.json"]

def logsDir (c : Settings) : String := c.under ["logs"]

def reflectionLogPath (c : Settings) : String := c.under ["logs", "reflection.log"]

def agentMemoryDir (c : Settings) : String := c.under ["agent-memory"]

/-- The settings as a document, durations written as text. -/
def toJson (c : Settings) : Json :=
  .obj [("root_dir", .str c.rootDir),
    ("cold_path", .obj [("enabled", .bool c.coldPath.enabled),
      ("pattern_detection_threshold", Json.ofInt c.coldPath.patternThreshold),
      ("watch_settle", .str c.coldPath.watchSettle.text)]),
    ("procedural", .obj [("confidence_decay_per_week", Json.ofFloat c.procedural.decayPerWeek),
      ("min_confidence", Json.ofFloat c.procedural.minConfidence),
      ("max_rules", Json.ofInt c.procedural.maxRules),
      ("age_decay_floor", Json.ofFloat c.procedural.ageDecayFloor),
      ("unused_decay_rate", Json.ofFloat c.procedural.unusedDecayRate)]),
    ("episodic", .obj [("ttl_days", Json.ofInt c.episodic.ttlDays),
      ("min_importance_to_keep", Json.ofInt c.episodic.minImportanceToKeep),
      ("legacy_index_cap", Json.ofInt c.episodic.legacyIndexCap)]),
    ("storage", .obj [("lock_timeout", .str c.lockTimeout.text)]),
    ("logging", .obj [("level", .str c.logging.level), ("format", .str c.logging.format)]),
    ("secrets", .obj [("enabled", .bool c.secretsEnabled)]),
    ("hooks", .obj [("extract_on_session_end", .bool c.hooks.extractOnSessionEnd),
      ("extract_on_pre_compact", .bool c.hooks.extractOnPreCompact),
      ("inject_rules", .bool c.hooks.injectRules),
      ("max_injections", Json.ofInt c.hooks.maxInjections)])]

end Settings
end Config
end AgentMemory
