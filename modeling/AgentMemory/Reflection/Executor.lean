import AgentMemory.Config.Settings
import AgentMemory.Semantic.Store
import AgentMemory.Episodic.Store
import AgentMemory.Procedural.Store
import AgentMemory.Transcript.Extract
import AgentMemory.Secrets.Scrub
import AgentMemory.Digest.Md5
import AgentMemory.Text.Csv

namespace AgentMemory
namespace Reflection

open Storage

/-!
# Reflection

Reflection is the cold path of the memory: after a session it turns the session's
transcript into an episode, mines the episode log for recurring tags and turns them
into procedural rules, and sweeps old episodes, expired facts and unused rules.

## Main definitions

* `Executor.extract`: an episode from a transcript file.  The transcript's task,
  decisions and lessons are scrubbed of secrets before they are stored; a transcript
  that cannot be read yields an episode of empty text.
* `Executor.detectPatterns`: for the three most frequent tags of successful episodes
  and the two of failed ones, a rule when the tag was seen at least the threshold
  number of times.
* `Executor.cleanup`: remove unimportant episodes older than their time to live,
  expire facts and export the legacy index; what was done before a failure is
  reported with it.
* `Executor.status`: the sizes of the stores and the last lines of the reflection log.

Every operation records its duration under its name, and its failure, on the meter.
-/

def successImportance : Int := 7

def failureImportance : Int := 5

def successRuleTags : Nat := 3

def failureRuleTags : Nat := 2

/-- The number of source episodes a mined rule names. -/
def maxSourceEpisodes : Nat := 10

/-- The number of log lines a status shows when no number is given. -/
def defaultRecentActivity : Nat := 10

/-- The longest line of the reflection log read, in bytes, is one less than this. -/
def maxLogLineBytes : Nat := 1024 * 1024

/-- The retention policy of merges, from the settings. -/
def mergeOptions (c : Config.Settings) : Procedural.MergeOptions :=
  { decayPerWeek := c.procedural.decayPerWeek, ageFloor := c.procedural.ageDecayFloor,
    minConfidence := c.procedural.minConfidence, maxRules := c.procedural.maxRules }

/-- How often a tag was seen, and the first episodes it was seen in. -/
structure TagCount where
  tag : String
  count : Nat
  episodes : List String
deriving Inhabited

/-- Count a tag of an episode: tags keep the order they were first seen in. -/
def tally (counts : List TagCount) (tag id : String) : List TagCount :=
  if counts.any (·.tag == tag) then
    counts.map fun c =>
      if c.tag == tag then
        { c with count := c.count + 1,
                 episodes := if c.episodes.length < maxSourceEpisodes then c.episodes ++ [id] else c.episodes }
      else c
  else counts ++ [⟨tag, 1, [id]⟩]

/-- The `n` most frequent tags; ties keep the order tags were first seen in. -/
def mostCommon (counts : List TagCount) (n : Nat) : List TagCount :=
  (counts.mergeSort (fun a b => decide (a.count ≥ b.count))).take n

/-- The identifier of a mined rule: its kind, its tag and four hexadecimal digits of
the tag's MD5 digest. -/
def patternRuleId (kind tag : String) : String :=
  "proc-" ++ kind ++ "-" ++ tag ++ "-" ++ String.ofList ((Digest.md5Hex tag).toList.take 4)

/-- Count a tag of a summary among the tags of its outcome: successful episodes first,
failed ones second. -/
def tallyTag (s : Episodic.Summary) (acc : List TagCount × List TagCount) (tag : String) :
    List TagCount × List TagCount :=
  if s.success then (tally acc.1 tag s.id, acc.2) else (acc.1, tally acc.2 tag s.id)

def tallyTags (summaries : List Episodic.Summary) : List TagCount × List TagCount :=
  summaries.foldl (fun acc s => (s.tags.getD []).foldl (tallyTag s) acc) ([], [])

/-- An outcome rules are mined for, and what a rule mined from it says. -/
structure PatternKind where
  name : String
  tags : Nat
  behavior : String → String
  sessions : String
  cap : Float
  base : Float

/-- Rules that apply the practices of successful sessions. -/
def successPatterns : PatternKind :=
  { name := "success", tags := successRuleTags,
    behavior := fun tag => "Apply " ++ tag ++ " best practices from past successful sessions",
    sessions := "successful", cap := 0.9, base := 0.5 }

/-- Rules that warn of what failed sessions had trouble with. -/
def failurePatterns : PatternKind :=
  { name := "avoid", tags := failureRuleTags,
    behavior := fun tag => "Be extra careful with " ++ tag ++ " - past sessions had issues",
    sessions := "problematic", cap := 0.85, base := 0.4 }

/-- The rule mined for a tag of an outcome. -/
def PatternKind.rule (k : PatternKind) (now : Clock.Instant) (c : TagCount) : Procedural.Rule :=
  { Procedural.Rule.fresh (patternRuleId k.name c.tag) ("Working on " ++ c.tag ++ " related task")
      (k.behavior c.tag) ("Pattern detected: " ++ toString c.count ++ " " ++ k.sessions ++ " sessions involving " ++ c.tag)
      (min k.cap (k.base + 0.1 * Float.ofNat c.count)) now with sourceEpisodes := c.episodes }

/-- The rules of an outcome: one for each of its most frequent tags that was seen at least
`threshold` times. -/
def PatternKind.rules (k : PatternKind) (threshold : Int) (now : Clock.Instant) (counts : List TagCount) :
    List Procedural.Rule :=
  ((mostCommon counts k.tags).filter (fun c => (c.count : Int) ≥ threshold)).map (k.rule now)

/-- What one pattern run found and saved. -/
structure PatternRun where
  detected : List Procedural.Rule
  saved : Procedural.MergeResult := {}
deriving Inhabited

/-- The document form of a pattern run. -/
def PatternRun.toJson (r : PatternRun) : Json :=
  .obj [("detected", .arr (r.detected.map Procedural.Rule.toJson)), ("saved", r.saved.toJson)]

/-- What a cleanup removed and wrote. -/
structure Cleanup where
  episodesRemoved : Nat := 0
  factsExpired : Nat := 0
  legacyIndexEntries : Nat := 0
deriving Inhabited

/-- The document form of a cleanup. -/
def Cleanup.toJson (c : Cleanup) : Json :=
  .obj [("episodes_removed", Json.ofNat c.episodesRemoved), ("facts_expired", Json.ofNat c.factsExpired),
    ("legacy_index_entries", Json.ofNat c.legacyIndexEntries)]

/-- The state of the cold path. -/
structure Status where
  coldPathEnabled : Bool
  patternThreshold : Int
  episodeCount : Nat
  proceduralRules : Nat
  activeRules : Nat
  semanticFacts : Nat
  recentActivity : List String
deriving Inhabited

/-- The document form of a status. -/
def Status.toJson (s : Status) : Json :=
  .obj [("cold_path_enabled", .bool s.coldPathEnabled), ("pattern_threshold", Json.ofInt s.patternThreshold),
    ("episode_count", Json.ofNat s.episodeCount), ("procedural_rules", Json.ofNat s.proceduralRules),
    ("active_rules", Json.ofNat s.activeRules), ("semantic_facts", Json.ofNat s.semanticFacts),
    ("recent_activity", Json.ofStrings s.recentActivity)]

/-- One line of a log read into a ring of at most `n` lines: an empty line is skipped, and
a full ring drops its oldest line to make room. -/
def ringPush (n : Nat) (ring : List String) (line : String) : List String :=
  if line.isEmpty then ring
  else (if ring.length = n then ring.tail else ring) ++ [line]

/-- The last `n` non-empty lines of a log file, oldest first; no file means no lines. -/
def tailLines (path : String) (n : Nat) : Act (List String) := do
  let text ← match (← files).look "open" path with
    | .error e => if e.reason == .notFound then return [] else fail e.toFailure
    | .ok .dir => fail (Failure.plain ("read " ++ Disk.clean path ++ ": is a directory"))
    | .ok (.file d) => pure d.contents
  match Text.scanLines maxLogLineBytes text with
  | .error m => fail (Failure.plain m)
  | .ok lines => return lines.foldl (ringPush n) []

def extractedCounter : String := "ralph.reflection.episodes_extracted_total"
def detectedCounter : String := "ralph.reflection.rules_detected_total"
def savedCounter : String := "ralph.reflection.rules_saved_total"
def removedCounter : String := "ralph.reflection.episodes_removed_total"
def expiredCounter : String := "ralph.reflection.facts_expired_total"
def decayedCounter : String := "ralph.reflection.rules_decayed_total"

def count (name : String) (n : Nat) : Act Unit :=
  if n > 0 then measure .counter name [] (Float.ofNat n) else pure ()

/-- Run an operation, recording its duration and its failure under its name. -/
def observed {α : Type} (operation : String) (a : Act α) : Act α := do
  let r ← attempt a
  let attrs := [("operation", operation)]
  measure .histogram "ralph.reflection.operation.duration_seconds" attrs 0
  match r with
  | .ok v => return v
  | .error e =>
    measure .counter "ralph.reflection.errors_total" attrs 1
    fail e

/-- The cold path: the settings, its own stores, the extractor and the scrubber. -/
structure Executor where
  settings : Config.Settings
  episodes : Episodic.Store
  facts : Semantic.Store
  rules : Procedural.Store
  extractor : Transcript.Extractor := Transcript.Extractor.standard
  scrubber : Secrets.Scrubber
  log : Logging.Channel
deriving Inhabited

namespace Executor

/-- An executor over the stores under the settings' root; each store logs on a child
channel named after it. -/
def create (settings : Config.Settings) (log : Logging.Channel) (extractor : Transcript.Extractor)
    (scrubber : Secrets.Scrubber) : Executor :=
  { settings := settings,
    episodes := { dir := settings.episodesDir, log := log.named "episodic" },
    facts := { path := settings.semanticPath, log := log.named "semantic" },
    rules := { path := settings.proceduralPath, log := log.named "procedural" },
    extractor := extractor, scrubber := scrubber, log := log }

/-- The episode of an extraction, with its texts scrubbed. -/
def buildEpisode (x : Executor) (ext : Transcript.Extraction) (project sessionId : String) :
    Act Episodic.Episode := do
  let now ← clock
  let texts := ext.task :: ext.decisions ++ ext.learnings
  let (scrubbed, n) := x.scrubber.scrubAll (texts.map some)
  let scrubbed := scrubbed.map (·.getD "")
  let task := scrubbed.headD ext.task
  let rest := scrubbed.drop 1
  let decisions := rest.take ext.decisions.length
  let learnings := rest.drop ext.decisions.length
  if n > 0 then emit x.log .info "secrets redacted from episode" [.int "fields" n]
  return { timestamp := now, sessionId := sessionId, project := project, task := task,
           context := if project.isEmpty then "Unknown project" else "Project: " ++ project,
           constraints := some [], alternatives := some [], decisionFactors := some decisions,
           actions := some (ext.files.map fun f => { kind := "modify", target := f, success := true }),
           success := ext.success, artifactsCreated := some [], learnings := some learnings,
           tags := some ext.tags,
           importance := if ext.success then successImportance else failureImportance }

/-- Log what loading a transcript could not read, and the lines it skipped. -/
def noteTranscript (x : Executor) (path : String) (t : Transcript.Transcript) : Act Unit := do
  if let some e := t.error then
    emit x.log .warn "transcript unreadable, extracting from empty text"
      [.text "path" path, Logging.Field.failure e]
  if t.skipped > 0 then
    emit x.log .debug "transcript lines skipped" [.text "path" path, .int "skipped" t.skipped]

/-- Turn a transcript file into a stored episode. -/
def extract (x : Executor) (path project sessionId : String) : Act Episodic.Episode :=
  observed "extract" do
    let t := Transcript.loadFrom (← files) path (← resolve path)
    x.noteTranscript path t
    let ext := x.extractor.runOn (some t)
    let sessionId := if sessionId.isEmpty then t.sessionId else sessionId
    let ep ← x.buildEpisode ext project sessionId
    let ep ← match ← attempt (x.episodes.write ep) with
      | .ok (_, ep) => pure ep
      | .error e => fail (e.within "saving episode")
    count extractedCounter 1
    emit x.log .info "episode extracted"
      [.text "episode_id" ep.id, .text "project" project, ⟨"success", .bool ep.success⟩,
       ⟨"tags", .texts (ep.tags.getD [])⟩]
    return ep

/-- Rules mined from the tags of the episode log. -/
def detectPatterns (x : Executor) : Act (List Procedural.Rule) :=
  observed "detect_patterns" do
    let threshold := x.settings.coldPath.patternThreshold
    let summaries ← match ← attempt x.episodes.summaries with
      | .ok s => pure s
      | .error e => fail (e.within "loading episode index")
    if (summaries.length : Int) < threshold then
      emit x.log .info "not enough episodes for pattern detection"
        [.int "episodes" summaries.length, .int "threshold" threshold]
      return []
    let (succeeded, failed) := tallyTags summaries
    let now ← clock
    let rules := successPatterns.rules threshold now succeeded ++ failurePatterns.rules threshold now failed
    count detectedCounter rules.length
    emit x.log .info "patterns detected" [.int "episodes" summaries.length, .int "rules" rules.length]
    return rules

/-- Merge rules into the store under the configured retention policy. -/
def saveRules (x : Executor) (rules : List Procedural.Rule) : Act Procedural.MergeResult :=
  observed "save_rules" do
    let res ← x.rules.merge rules (mergeOptions x.settings)
    count savedCounter res.total
    return res

/-- Mine rules and save them when there are any. -/
def runPatterns (x : Executor) : Act PatternRun := do
  let rules ← x.detectPatterns
  if rules.isEmpty then return { detected := [] }
  return { detected := rules, saved := ← x.saveRules rules }

/-- Sweep old episodes and expired facts and export the legacy index; what was done
is returned with the failure, if any. -/
def cleanup (x : Executor) : Act (Cleanup × Option Failure) := do
  let r ← attempt (observed "cleanup" do
    let now ← clock
    let cutoff := now.add (-(x.settings.episodic.ttlDays * 24 * Clock.hour))
    let (removed, err) ← x.episodes.prune cutoff x.settings.episodic.minImportanceToKeep
    let res : Cleanup := { episodesRemoved := removed }
    if let some e := err then
      return (res, some (e.within "pruning episodes"))
    count removedCounter removed
    let res ← match ← attempt (x.facts.expire now) with
      | .ok n => pure { res with factsExpired := n }
      | .error e => return (res, some (e.within "expiring facts"))
    count expiredCounter res.factsExpired
    let res ← match ← attempt (x.episodes.exportLegacy x.settings.episodic.legacyIndexCap) with
      | .ok n => pure { res with legacyIndexEntries := n }
      | .error e => return (res, some (e.within "exporting legacy index"))
    emit x.log .info "cleaned up old episodes"
      [.int "episodes_removed" res.episodesRemoved, .int "facts_expired" res.factsExpired,
       ⟨"cutoff", .instant cutoff⟩]
    return (res, none))
  match r with
  | .ok v => return v
  | .error e => return ({}, some e)

/-- Lower the confidence of rules never applied by the configured rate. -/
def decayUnused (x : Executor) : Act Nat :=
  observed "decay" do
    let n ← x.rules.decayUnused x.settings.procedural.unusedDecayRate
    count decayedCounter n
    return n

/-- The state of the cold path, with the last `recent` lines of the reflection log (10
when not positive). -/
def status (x : Executor) (recent : Int) : Act Status := do
  let recent := if recent ≤ 0 then defaultRecentActivity else recent.toNat
  let episodes ← x.episodes.count
  let (total, active) ← x.rules.count
  let facts ← x.facts.count
  let lines ← match ← attempt (tailLines x.settings.reflectionLogPath recent) with
    | .ok ls => pure ls
    | .error e => fail (e.within "reading reflection log")
  return { coldPathEnabled := x.settings.coldPath.enabled,
           patternThreshold := x.settings.coldPath.patternThreshold,
           episodeCount := episodes, proceduralRules := total, activeRules := active,
           semanticFacts := facts, recentActivity := lines }

end Executor
end Reflection
end AgentMemory
