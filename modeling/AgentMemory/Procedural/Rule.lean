import AgentMemory.Json.Decode
import AgentMemory.Json.Write
import AgentMemory.Text.Quote

namespace AgentMemory
namespace Procedural

/-!
# Procedural rules

A rule maps a trigger (a kind of task) to a behavior, with a confidence, a record
of how often it was applied, and the hook stage at which its prompt is injected.

A rule is written as a document object under the current field names.  Reading is
forgiving, because rule documents have been written by several generations of
tools:

* the legacy names `created` and `apply_count` stand for `created_at` and
  `times_applied`; the current name wins when both are present;
* a missing confidence reads as 0.5, a missing or empty injection point as
  `PreToolUse`, a missing `active` as true, a missing `rule_id` as `unknown`;
* timestamps may be RFC 3339 or naive ISO 8601 (read as UTC);
* members with other names are kept verbatim and written back.

Member names are matched exactly, a repeated name counts once with its last value,
and `null` counts as absent.  The first member that does not read stops the
reading, its name in the message.
-/

def defaultConfidence : Float := 0.8

/-- The least confidence of a rule that is served. -/
def activeThreshold : Float := 0.5

def unusedDecayFloor : Float := 0.1

/-- The confidence of a stored rule that carries none. -/
def legacyConfidence : Float := 0.5

/-- The text in front of a behavior in a rule's default prompt. -/
def promptLead : String := "Based on past experience: "

def defaultInjectionPoint : String := "PreToolUse"

/-- A learned trigger to behavior mapping. -/
structure Rule where
  id : String
  trigger : String := ""
  behavior : String := ""
  rationale : String := ""
  sourceEpisodes : List String := []
  confidence : Float
  /-- The zero instant when unknown. -/
  createdAt : Clock.Instant := Clock.Instant.zero
  lastApplied : Option Clock.Instant := none
  timesApplied : Int := 0
  injectionPoint : String := defaultInjectionPoint
  promptTemplate : String := ""
  active : Bool := true
  /-- How far age decay has been applied; absent when never since creation. -/
  decayedAt : Option Clock.Instant := none
  /-- Members this version does not know, kept verbatim. -/
  extra : List (String × Json) := []
deriving Inhabited

namespace Rule

/-- A new active rule with the default prompt. -/
def fresh (id trigger behavior rationale : String) (confidence : Float) (now : Clock.Instant) :
    Rule :=
  { id := id, trigger := trigger, behavior := behavior, rationale := rationale,
    confidence := confidence, createdAt := now.utc, promptTemplate := promptLead ++ behavior }

/-- The member names read as rule fields; all other members are kept as extras. -/
def knownNames : List String :=
  ["rule_id", "trigger", "behavior", "rationale", "source_episodes", "confidence", "created_at",
   "last_applied", "times_applied", "injection_point", "prompt_template", "active", "decayed_at",
   "created", "apply_count"]

def timestampLayouts : List (List Clock.Instant.Piece) :=
  [Clock.Instant.rfc3339Layout, Clock.Instant.naiveLayout]

/-- Read a timestamp of a rule: RFC 3339 or naive ISO 8601, in UTC. -/
def parseTimestamp (s : String) : Option Clock.Instant :=
  Clock.Instant.parseFirst timestampLayouts s

/-- The members of an object, each name once with its last value, in order of first
appearance. -/
def lastOfEach (members : List (String × Json)) : List (String × Json) :=
  members.foldl (fun acc kv =>
    if acc.any (fun x => x.1 == kv.1) then acc.map (fun x => if x.1 == kv.1 then kv else x)
    else acc ++ [kv]) []

/-- The value under a name, `null` counting as absent. -/
def member? (members : List (String × Json)) (key : String) : Option Json :=
  match (members.find? (fun kv => kv.1 == key)).map Prod.snd with
  | some .null => none
  | other => other

/-- Read one member into a rule; a failure names the member. -/
def readMember (members : List (String × Json)) (key : String)
    (apply : Json → Rule → Except Failure Rule) (r : Rule) : Except Failure Rule :=
  match member? members key with
  | none => .ok r
  | some v => (apply v r).mapError (Failure.within ("rule field " ++ key))

/-- Read a timestamp member: absent or empty text is no timestamp. -/
def readTime (members : List (String × Json)) (key : String) :
    Except Failure (Option Clock.Instant) :=
  match member? members key with
  | none => .ok none
  | some v =>
    match Json.readString v "" with
    | .error e => .error (e.within ("rule field " ++ key))
    | .ok "" => .ok none
    | .ok s =>
      match parseTimestamp s with
      | some t => .ok (some t)
      | none => .error (Failure.plain ("rule field " ++ key ++ ": invalid timestamp " ++ Text.quote s))

/-- Read a rule from its members. -/
def ofMembers (members : List (String × Json)) : Except Failure Rule := do
  let m := lastOfEach members
  let r : Rule := { id := "unknown", confidence := legacyConfidence }
  let r ← readMember m "rule_id" (fun v r => (Json.readString v r.id).map fun s => { r with id := s }) r
  let r ← readMember m "trigger" (fun v r => (Json.readString v r.trigger).map fun s => { r with trigger := s }) r
  let r ← readMember m "behavior" (fun v r => (Json.readString v r.behavior).map fun s => { r with behavior := s }) r
  let r ← readMember m "rationale" (fun v r => (Json.readString v r.rationale).map fun s => { r with rationale := s }) r
  let r ← readMember m "source_episodes"
    (fun v r => (Json.readStrings v).map fun xs => { r with sourceEpisodes := xs.getD [] }) r
  let r ← readMember m "confidence" (fun v r => (Json.readFloat v r.confidence).map fun x => { r with confidence := x }) r
  let r ← readMember m "apply_count" (fun v r => (Json.readInt v r.timesApplied).map fun n => { r with timesApplied := n }) r
  let r ← readMember m "times_applied" (fun v r => (Json.readInt v r.timesApplied).map fun n => { r with timesApplied := n }) r
  let r ← readMember m "injection_point" (fun v r => (Json.readString v r.injectionPoint).map fun s => { r with injectionPoint := s }) r
  let r ← readMember m "prompt_template" (fun v r => (Json.readString v r.promptTemplate).map fun s => { r with promptTemplate := s }) r
  let r ← readMember m "active" (fun v r => (Json.readBool v r.active).map fun b => { r with active := b }) r
  let created ← readTime m "created"
  let createdAt ← readTime m "created_at"
  let lastApplied ← readTime m "last_applied"
  let decayedAt ← readTime m "decayed_at"
  let r := match createdAt, created with
    | some t, _ => { r with createdAt := t }
    | none, some t => { r with createdAt := t }
    | none, none => r
  return { r with
    lastApplied := lastApplied, decayedAt := decayedAt,
    injectionPoint := if r.injectionPoint.isEmpty then defaultInjectionPoint else r.injectionPoint,
    extra := m.filter (fun kv => !knownNames.contains kv.1) }

/-- Read a rule from a document value: an object, or `null` for the defaults. -/
def read (j : Json) : Except Failure Rule :=
  match j with
  | .null => ofMembers []
  | .obj members => ofMembers members
  | other => .error (Json.mismatch (Json.kindName other) "map[string]json.RawMessage")

def instantJson (t : Clock.Instant) : Json := .str t.rfc3339

/-- An optional timestamp as a document value. -/
def instantJson? (t : Option Clock.Instant) : Json :=
  match t with
  | some t => instantJson t
  | none => .null

/-- The members a rule is written with, in order: `decayed_at` only when set. -/
def knownMembers (r : Rule) : List (String × Json) :=
  [("rule_id", .str r.id), ("trigger", .str r.trigger), ("behavior", .str r.behavior),
   ("rationale", .str r.rationale), ("source_episodes", Json.ofStrings r.sourceEpisodes),
   ("confidence", Json.ofFloat r.confidence),
   ("created_at", if r.createdAt.isZero then .null else instantJson r.createdAt),
   ("last_applied", instantJson? r.lastApplied), ("times_applied", Json.ofInt r.timesApplied),
   ("injection_point", .str r.injectionPoint), ("prompt_template", .str r.promptTemplate),
   ("active", .bool r.active)] ++
  (match r.decayedAt with
   | some t => [("decayed_at", instantJson t)]
   | none => [])

/-- The instants a rule is written with, in order: its creation time unless unknown, then
the time it was last applied and the anchor of its age decay, when set. -/
def instants (r : Rule) : List Clock.Instant :=
  (if r.createdAt.isZero then [] else [r.createdAt]) ++ r.lastApplied.toList ++ r.decayedAt.toList

/-- The document form of a rule: the known members in order; with extras, all members
sorted by name, a known member winning over an extra of its name. -/
def toJson (r : Rule) : Json :=
  if r.extra.isEmpty then .obj r.knownMembers
  else
    let merged := r.extra.filter (fun kv => !r.knownMembers.any (fun k => k.1 == kv.1)) ++ r.knownMembers
    .obj (merged.mergeSort (fun a b => decide (a.1 ≤ b.1)))

end Rule
end Procedural
end AgentMemory
