import AgentMemory.Config.Settings
import AgentMemory.Config.Loose
import AgentMemory.Disk.Tree

namespace AgentMemory
namespace Config

/-!
# Loading settings

Settings are loaded in three layers, each over the one before:

1. the defaults, rooted at the given root, else `RALPH_DIR`, else `~/.ralph`;
2. the configuration document, `<root>/config/memory-config.json` unless another
   path is given; a missing document is no error, one of more than 1 MiB is
   refused, and a `.yaml` or `.yml` name (in any case) makes it YAML;
3. environment variables `RALPH_<SECTION>_<KEY>`, for instance
   `RALPH_COLD_PATH_ENABLED=false`; variables naming no section are ignored.

The layers are merged as trees and decoded into the settings.  Decoding is weakly
typed: text is read as a number or truth value where one is expected, numbers as
truth values (non-zero is true) and doubles as whole numbers (truncated); a member
name matches a setting exactly or else in any case.  Every setting that fails to
decode is reported, in the order of the settings, and the result is then checked.

Merging, the weakly typed decoding of each value and the reading of YAML are the work of
libraries, which `loadWith` takes as a parameter (`Libraries`); `load` uses the ones the
package is built with.
-/

/-- The largest configuration document read, in bytes. -/
def maxDocumentBytes : Nat := 1024 * 1024

/-- The sections of the settings, as written in documents. -/
def sections : List String :=
  ["cold_path", "procedural", "episodic", "storage", "logging", "secrets", "hooks"]

/-- The setting a variable overrides, as a dotted path; empty when none. -/
def variableKey (name : String) : String :=
  let rest := if variablePrefix.isPrefixOf name then String.ofList (name.toList.drop variablePrefix.length) else name
  let lower := Text.lower rest
  match sections.find? (fun s => (s ++ "_").isPrefixOf lower) with
  | some s => s ++ "." ++ String.ofList (lower.toList.drop (s.length + 1))
  | none => ""

/-- Put a value at a dotted path of a map. -/
def placeAt (path : List String) (v : Loose) (m : Loose) : Loose :=
  match path with
  | [] => v
  | [k] =>
    match m with
    | .map fs => .map (if fs.any (·.1 == k) then fs.map (fun x => if x.1 == k then (k, v) else x) else fs ++ [(k, v)])
    | _ => .map [(k, v)]
  | k :: more =>
    match m with
    | .map fs =>
      let inner := (fs.find? (·.1 == k)).map Prod.snd |>.getD (.map [])
      let inner := match inner with
        | .map _ => inner
        | _ => .map []
      let placed := placeAt more v inner
      .map (if fs.any (·.1 == k) then fs.map (fun x => if x.1 == k then (k, placed) else x) else fs ++ [(k, placed)])
    | _ => .map [(k, placeAt more v (.map []))]

/-- The tree of the overriding variables of an environment. -/
def variableTree (env : Environment) : Loose :=
  env.foldl (fun acc kv =>
    if !variablePrefix.isPrefixOf kv.1 then acc
    else
      let key := variableKey kv.1
      if key.isEmpty then acc else placeAt (Disk.piecesOf '.' key) (.text kv.2) acc) (.map [])

/-! ## Weakly typed decoding -/

def decodeError (name : String) (msg : String) : String := "'" ++ name ++ "' " ++ msg

/-- The failure of a value of a kind that cannot become the setting's type. -/
def unconvertible (name into : String) (v : Loose) : String :=
  decodeError name ("expected type '" ++ into ++ "', got unconvertible type '" ++ v.typeName ++ "'")

/-- The failure of text that does not read as the setting's type. -/
def unparsable (name into fn : String) (e : Text.NumberError) : String :=
  decodeError name ("cannot parse value as '" ++ into ++ "': strconv." ++ fn ++ ": " ++ e.text)

/-- Decode a truth value. -/
def decodeBool (name : String) (v : Loose) : Except String Bool :=
  match v with
  | .bool b => .ok b
  | .int n => .ok (n != 0)
  | .float x => .ok (x != 0)
  | .text s =>
    match Text.parseBool s with
    | .ok b => .ok b
    | .error e => if s.isEmpty then .ok false else .error (unparsable name "bool" "ParseBool" e)
  | other => .error (unconvertible name "bool" other)

/-- Decode a whole number. -/
def decodeInt (name : String) (into : String) (v : Loose) : Except String Int :=
  match v with
  | .int n => .ok n
  | .float x => .ok (Clock.truncate64 x)
  | .bool b => .ok (if b then 1 else 0)
  | .text s =>
    match Text.parseInt (if s.isEmpty then "0" else s) with
    | .ok n => .ok n
    | .error e => .error (unparsable name into "ParseInt" e)
  | other => .error (unconvertible name into other)

/-- Decode a double. -/
def decodeFloat (name : String) (v : Loose) : Except String Float :=
  match v with
  | .int n => .ok (Float.ofInt n)
  | .float x => .ok x
  | .bool b => .ok (if b then 1 else 0)
  | .text s =>
    match Text.parseFloat (if s.isEmpty then "0" else s) with
    | .ok x => .ok x
    | .error e => .error (unparsable name "float64" "ParseFloat" e)
  | other => .error (unconvertible name "float64" other)

/-- Decode text. -/
def decodeText (name : String) (v : Loose) : Except String String :=
  match v with
  | .text s => .ok s
  | .bool b => .ok (if b then "1" else "0")
  | .int n => .ok (toString n)
  | .float x => .ok (Decimal.plainText x)
  | other => .error (unconvertible name "string" other)

/-- Decode a span: text is read as a span, numbers are nanoseconds. -/
def decodeSpan (name : String) (v : Loose) : Except String Span :=
  match v with
  | .text s => (Span.parse s).mapError (decodeError name)
  | other => (decodeInt name "config.Duration" other).map Span.mk

/-- What loading takes from its libraries: the merging of one settings tree over another,
the weakly typed decoding of a named setting's value into each type a setting has, and the
reader of YAML documents. -/
structure Libraries where
  merge : Loose → Loose → Loose
  bool : String → Loose → Except String Bool
  int : String → String → Loose → Except String Int
  float : String → Loose → Except String Float
  text : String → Loose → Except String String
  span : String → Loose → Except String Span
  readYaml : String → Except YamlError Loose

def Libraries.standard : Libraries :=
  ⟨Loose.merge, decodeBool, decodeInt, decodeFloat, decodeText, decodeSpan, readYamlDocument⟩

/-- How one setting of a section is decoded into it. -/
structure Slot (σ : Type) where
  key : String
  decode : String → Loose → σ → Except String σ

/-- The member of a map for a setting: under its exact name, else under a name equal
to it in any case. -/
def memberFor (fields : List (String × Loose)) (key : String) : Option Loose :=
  match fields.find? (·.1 == key) with
  | some kv => some kv.2
  | none => (fields.find? (fun kv => Text.equalFold kv.1 key)).map Prod.snd

/-- Decode a section from a value, collecting the failures of its settings. -/
def decodeSection {σ : Type} (name : String) (slots : List (Slot σ)) (v : Loose) (init : σ) :
    σ × List String :=
  match v with
  | .null => (init, [])
  | .map fields =>
    slots.foldl (fun (acc : σ × List String) slot =>
      match memberFor fields slot.key with
      | none | some .null => acc
      | some x =>
        match slot.decode (name ++ "." ++ slot.key) x acc.1 with
        | .ok s => (s, acc.2)
        | .error e => (acc.1, acc.2 ++ [e])) (init, [])
  | other => (init, [decodeError name ("expected a map or struct, got \"" ++ other.kindName ++ "\"")])

def boolSlot {σ : Type} (lib : Libraries) (key : String) (set : σ → Bool → σ) : Slot σ :=
  ⟨key, fun n v s => (lib.bool n v).map (set s)⟩

def intSlot {σ : Type} (lib : Libraries) (key : String) (set : σ → Int → σ) : Slot σ :=
  ⟨key, fun n v s => (lib.int n "int" v).map (set s)⟩

def floatSlot {σ : Type} (lib : Libraries) (key : String) (set : σ → Float → σ) : Slot σ :=
  ⟨key, fun n v s => (lib.float n v).map (set s)⟩

def textSlot {σ : Type} (lib : Libraries) (key : String) (set : σ → String → σ) : Slot σ :=
  ⟨key, fun n v s => (lib.text n v).map (set s)⟩

def spanSlot {σ : Type} (lib : Libraries) (key : String) (set : σ → Span → σ) : Slot σ :=
  ⟨key, fun n v s => (lib.span n v).map (set s)⟩

/-- Decode a whole settings tree over base settings. -/
def decodeSettings (lib : Libraries) (tree : Loose) (base : Settings) : Settings × List String :=
  let fields := match tree with
    | .map fs => fs
    | _ => []
  let part (key : String) : Loose := (memberFor fields key).getD .null
  let (cold, e1) := decodeSection "cold_path"
    [boolSlot lib "enabled" fun c b => { c with enabled := b },
     intSlot lib "pattern_detection_threshold" fun c n => { c with patternThreshold := n },
     spanSlot lib "watch_settle" fun c d => { c with watchSettle := d }] (part "cold_path") base.coldPath
  let (proc, e2) := decodeSection "procedural"
    [floatSlot lib "confidence_decay_per_week" fun c x => { c with decayPerWeek := x },
     floatSlot lib "min_confidence" fun c x => { c with minConfidence := x },
     intSlot lib "max_rules" fun c n => { c with maxRules := n },
     floatSlot lib "age_decay_floor" fun c x => { c with ageDecayFloor := x },
     floatSlot lib "unused_decay_rate" fun c x => { c with unusedDecayRate := x }] (part "procedural") base.procedural
  let (epi, e3) := decodeSection "episodic"
    [intSlot lib "ttl_days" fun c n => { c with ttlDays := n },
     intSlot lib "min_importance_to_keep" fun c n => { c with minImportanceToKeep := n },
     intSlot lib "legacy_index_cap" fun c n => { c with legacyIndexCap := n }] (part "episodic") base.episodic
  let (lock, e4) := decodeSection "storage"
    [spanSlot lib "lock_timeout" fun (_ : Span) d => d] (part "storage") base.lockTimeout
  let (logs, e5) := decodeSection "logging"
    [textSlot lib "level" fun c s => { c with level := s },
     textSlot lib "format" fun c s => { c with format := s }] (part "logging") base.logging
  let (secrets, e6) := decodeSection "secrets"
    [boolSlot lib "enabled" fun (_ : Bool) b => b] (part "secrets") base.secretsEnabled
  let (hooks, e7) := decodeSection "hooks"
    [boolSlot lib "extract_on_session_end" fun c b => { c with extractOnSessionEnd := b },
     boolSlot lib "extract_on_pre_compact" fun c b => { c with extractOnPreCompact := b },
     boolSlot lib "inject_rules" fun c b => { c with injectRules := b },
     intSlot lib "max_injections" fun c n => { c with maxInjections := n }] (part "hooks") base.hooks
  ({ base with coldPath := cold, procedural := proc, episodic := epi, lockTimeout := lock,
               logging := logs, secretsEnabled := secrets, hooks := hooks },
   e1 ++ e2 ++ e3 ++ e4 ++ e5 ++ e6 ++ e7)

/-! ## Loading -/

/-- The document is YAML by its extension. -/
def isYaml (path : String) : Bool :=
  let ext := Text.lower (Disk.extension path)
  ext == ".yaml" || ext == ".yml"

/-- Read the configuration document at a path: `none` when missing. -/
def readDocument (tree : Disk.Tree) (path : String) : Except Failure (Option String) :=
  match tree.look "open" path with
  | .error e =>
    match e.reason with
    | .notFound => .ok none
    | _ => .error (Failure.plain ("failed to open config file: " ++ e.message))
  | .ok .dir => .error (Failure.plain ("failed to read config file: read " ++ Disk.clean path ++ ": is a directory"))
  | .ok (.file d) =>
    if d.size > maxDocumentBytes then
      .error (Failure.plain ("config file too large: " ++ toString d.size ++ " bytes (max " ++
        toString maxDocumentBytes ++ ")"))
    else .ok (some d.contents)

/-- The settings tree of the configuration document at a path, from its text (`none` when
the document is missing, an empty tree then): YAML by the path's extension, else JSON. -/
def documentTree (lib : Libraries) (path : String) (content : Option String) : Except Failure Loose :=
  match content with
  | none => pure (.map [])
  | some text =>
    if isYaml path then
      match lib.readYaml text with
      | .ok v => pure v
      | .error e => throw (Failure.plain ("failed to load config file " ++ path ++ ": " ++ e.message))
    else
      match readJsonDocument text with
      | .ok v => pure v
      | .error e => throw (e.within ("failed to load config file " ++ path))

/-- Decode a merged settings tree over base settings and check the result: every setting
that fails to decode is reported, and then the check's refusal. -/
def settle (lib : Libraries) (merged : Loose) (base : Settings) : Except Failure Settings := do
  let (settings, errors) := decodeSettings lib merged base
  if !errors.isEmpty then
    throw (Failure.plain ("failed to unmarshal config: decoding failed due to the following error(s):\n\n" ++
      "\n".intercalate errors))
  match settings.validate with
  | .error msg => throw (Failure.plain ("config validation failed: " ++ msg))
  | .ok () => return settings

/-- Load the settings for a root (empty for the environment's default) and a
document path (empty for the default one), with the given libraries. -/
def loadWith (lib : Libraries) (tree : Disk.Tree) (env : Environment) (root : String) (path : String) :
    Except Failure Settings := do
  let base := Settings.defaults (if root.isEmpty then defaultRootDir env else root)
  let path := if path.isEmpty then base.configPath else path
  let fromDocument ← documentTree lib path (← readDocument tree path)
  settle lib (lib.merge (variableTree env) (match fromDocument with
    | .null => .map []
    | v => v)) base

/-- Load the settings with the package's libraries. -/
def load (tree : Disk.Tree) (env : Environment) (root : String) (path : String) : Except Failure Settings :=
  loadWith Libraries.standard tree env root path

end Config
end AgentMemory
