import AgentMemory.Procedural.Rule
import AgentMemory.Storage.Document
import AgentMemory.Text.Case

namespace AgentMemory
namespace Procedural

open Storage

/-!
# The rule store

All rules live in one document, `{"rules": [...], "updated": ...}`.  Explicitly
written rules start at confidence 0.8; rules mined from episodes arrive through a
merge, which also ages rules and applies the retention policy.

* A rule is *served* when it is active and its confidence is at least 0.5; served
  rules are ranked by descending confidence, keeping document order among equals.
* Unused rules (never applied) lose a fixed amount of confidence on request, never
  below 0.1.
* A merge adds rules with new identifiers and replaces a stored rule only by a more
  confident one, keeping the stored usage, activity, creation and decay marks.  Then
  every rule is aged: for each whole day since it was last aged (or created) the
  decay mark moves on, and the confidence drops by the weekly decay per week of
  those days, never below the age floor; rules already at or below the floor keep
  their confidence.  Rules under the least confidence are dropped, and at most the
  largest number of rules is kept, most confident first.
-/

/-- The retention policy of a merge. -/
structure MergeOptions where
  decayPerWeek : Float
  ageFloor : Float
  minConfidence : Float
  maxRules : Int
deriving Inhabited

/-- What a merge did. -/
structure MergeResult where
  added : Nat := 0
  replaced : Nat := 0
  dropped : Nat := 0
  total : Nat := 0
deriving Inhabited, DecidableEq

/-- The document form of a merge result. -/
def MergeResult.toJson (r : MergeResult) : Json :=
  .obj [("added", Json.ofNat r.added), ("replaced", Json.ofNat r.replaced),
    ("dropped", Json.ofNat r.dropped), ("total", Json.ofNat r.total)]

/-- An explicitly authored rule as asked for. -/
structure WriteRequest where
  trigger : String := ""
  behavior : String := ""
  rationale : String := ""
  sourceEpisodes : List String := []
  /-- Zero means the default confidence. -/
  confidence : Float := 0
  /-- Empty means `PreToolUse`. -/
  injectionPoint : String := ""
deriving Inhabited

/-- Check a write request and fill its defaults; trigger and behavior are trimmed. -/
def WriteRequest.validate (r : WriteRequest) : Except Failure WriteRequest := do
  let trigger := Text.trimBlank r.trigger
  let behavior := Text.trimBlank r.behavior
  if trigger.isEmpty then throw ⟨.emptyTrigger, "rule trigger cannot be empty"⟩
  if behavior.isEmpty then throw ⟨.emptyBehavior, "rule behavior cannot be empty"⟩
  let confidence := if r.confidence == 0 then defaultConfidence else r.confidence
  if confidence < 0 || confidence > 1 || confidence.isNaN then
    throw ⟨.invalidConfidence, "confidence must be between 0.0 and 1.0"⟩
  let injectionPoint := if r.injectionPoint.isEmpty then defaultInjectionPoint else r.injectionPoint
  return { r with trigger := trigger, behavior := behavior, confidence := confidence, injectionPoint := injectionPoint }

/-- The stored rules and the time of the last merge. -/
structure RuleDocument where
  rules : List Rule := []
  updated : Option Clock.Instant := none
deriving Inhabited

/-- Read the rule document; each rule is read by its own reader, whose failure stops
the reading. -/
def RuleDocument.read (j : Json) : Except Failure RuleDocument :=
  Json.readRecord
    [ ⟨"rules", fun v d => (Json.readList (fun x => (Rule.read x).mapError Failure.stopping)
          "[]procedural.Rule" v).map fun rs => { d with rules := rs.getD [] }⟩,
      ⟨"updated", fun v d =>
          match v with
          | .null => .ok { d with updated := none }
          | _ => (Json.readInstant v Clock.Instant.zero).map fun t => { d with updated := some t }⟩ ]
    {} "procedural.document" j

/-- The document form of the rules. -/
def RuleDocument.toJson (d : RuleDocument) : Json :=
  .obj ([("rules", .arr (d.rules.map Rule.toJson))] ++
    match d.updated with
    | some t => [("updated", .str t.rfc3339)]
    | none => [])

/-- The document form of the rules, or why it has none: the first instant, in the order
they are written, with no written form.  A rule's instants are reached through the rule's
own encoder, which names itself in the failure. -/
def RuleDocument.encode (d : RuleDocument) : Except String Json :=
  match d.rules.findSome? (fun r => r.instants.findSome? Clock.Instant.encodingProblem?),
      d.updated.bind Clock.Instant.encodingProblem? with
  | some problem, _ =>
    .error (marshalFailureText "procedural.Rule" (marshalFailureText "*time.Time" problem))
  | none, some problem => .error (marshalFailureText "*time.Time" problem)
  | none, none => .ok d.toJson

/-- The larger of two doubles, as `math.Max` takes it: `NaN` when either is `NaN`, and of two
zeros the positive one. -/
def larger (a b : Float) : Float :=
  if a.isNaN || b.isNaN then a + b
  else if a > b then a
  else if b > a then b
  else if a.toBits == (0 : Float).toBits then a else b

/-- Rank rules by descending confidence, keeping order among equals. -/
def byConfidence (rules : List Rule) : List Rule :=
  rules.mergeSort (fun a b => decide (a.confidence ≥ b.confidence))

/-- The served rules whose trigger contains the task in any case (every served rule
for an empty task), most confident first. -/
def servedRules (rules : List Rule) (task : String) : List Rule :=
  let needle := Text.lower task
  byConfidence (rules.filter fun r =>
    r.active && r.confidence ≥ activeThreshold &&
      (needle.isEmpty || Text.containsText (Text.lower r.trigger) needle))

/-- The confidence left after `days` days of age decay: the weekly `rate` is charged for
the weeks of those days, never below the `floor`; a confidence at or below the floor, or a
rate that is not positive, is left as it is.  The formula is written for any arithmetic,
with its maximum and its conversion of a count of days; rules compute it in doubles. -/
def agedConfidence {α : Type} [LE α] [DecidableLE α] [Sub α] [Mul α] [Div α] [OfNat α 0] [OfNat α 7]
    (max : α → α → α) (ofDays : Int → α) (rate floor c : α) (days : Int) : α :=
  if rate ≤ 0 || c ≤ floor then c
  else max floor (c - rate * (ofDays days / 7))

/-- Age a rule to `now`: whole days since its decay mark are charged once. -/
def ageDecay (opts : MergeOptions) (now : Clock.Instant) (r : Rule) : Rule :=
  if r.createdAt.isZero then { r with createdAt := now }
  else
    let anchor := r.decayedAt.getD r.createdAt
    let days := Clock.truncate64 (Clock.spanHours (now.sub anchor) / 24)
    if days ≤ 0 then r
    else
      { r with decayedAt := some (anchor.add (Clock.daysSpan days)),
               confidence := agedConfidence larger Float.ofInt opts.decayPerWeek opts.ageFloor r.confidence days }

/-- An incoming rule as a merge takes it: a rule with no creation time is created now. -/
def stamped (now : Clock.Instant) (r : Rule) : Rule :=
  if r.createdAt.isZero then { r with createdAt := now } else r

/-- The rule held for an identifier once an incoming rule with that identifier arrives:
the incoming rule wins only when strictly more confident, and then keeps the usage,
activity, creation and decay marks of the held one. -/
def upgrade (held inc : Rule) : Rule :=
  if inc.confidence ≤ held.confidence then held
  else { inc with timesApplied := held.timesApplied, lastApplied := held.lastApplied,
                  active := held.active, createdAt := held.createdAt, decayedAt := held.decayedAt }

/-- Fold one incoming rule into the held rules, counting added and replaced rules: a new
identifier is added at the end, and the rule held for a known one is upgraded in place. -/
def mergeStep (now : Clock.Instant) (acc : List Rule × Nat × Nat) (inc : Rule) : List Rule × Nat × Nat :=
  let (rules, added, replaced) := acc
  let inc := stamped now inc
  -- the last held rule with the identifier is the one compared
  match (rules.zipIdx.filter (fun p => p.1.id == inc.id)).getLast? with
  | none => (rules ++ [inc], added + 1, replaced)
  | some (old, i) =>
    if inc.confidence ≤ old.confidence then (rules, added, replaced)
    else (rules.set i (upgrade old inc), added, replaced + 1)

/-- Fold incoming rules into stored ones, in order. -/
def mergeIncoming (now : Clock.Instant) (stored : List Rule) (incoming : List Rule) :
    List Rule × Nat × Nat :=
  incoming.foldl (mergeStep now) (stored, 0, 0)

/-- The rules a merge keeps, and what it did: incoming rules are folded in, every rule
is aged, rules under the least confidence are dropped, and the rest are ranked and cut
to the largest number (a number that is not positive sets no limit). -/
def retain (now : Clock.Instant) (opts : MergeOptions) (stored incoming : List Rule) :
    List Rule × MergeResult :=
  let (rules, added, replaced) := mergeIncoming now stored incoming
  let before := rules.length
  let kept := (rules.map (ageDecay opts now)).filter (fun r => r.confidence ≥ opts.minConfidence)
  let kept := byConfidence kept
  let kept := if opts.maxRules > 0 && kept.length > opts.maxRules.toNat then kept.take opts.maxRules.toNat else kept
  (kept, { added := added, replaced := replaced, dropped := before - kept.length, total := kept.length })

/-- The rule store: the document's path and where it logs. -/
structure Store where
  path : String
  log : Logging.Channel := Logging.Channel.nop
deriving Inhabited

namespace Store

/-- Load the rules. -/
def load (s : Store) : Act (List Rule) := do
  let r ← attempt (readJson s.path RuleDocument.read)
  match r with
  | .ok d => return (d.getD {}).rules
  | .error e => fail (e.within "loading rules")

/-- A locked change of the rule document; the change says whether to write. -/
def update {α : Type} (s : Store) (change : RuleDocument → Act (Bool × RuleDocument × α)) : Act α :=
  withLock s.path do
    let d ← readJson s.path RuleDocument.read
    let (changed, d, out) ← change (d.getD {})
    if changed then writeEncoded s.path d.encode
    return out

/-- Check a request and store a new active rule; its identifier is returned. -/
def write (s : Store) (req : WriteRequest) : Act String := do
  let req ← match req.validate with
    | .ok r => pure r
    | .error e => fail e
  let id := "proc-" ++ (← freshHex 8)
  let now ← clock
  let rule := { Rule.fresh id req.trigger req.behavior req.rationale req.confidence now with
    injectionPoint := req.injectionPoint, sourceEpisodes := req.sourceEpisodes }
  let r ← attempt (s.update fun d => pure (true, { d with rules := d.rules ++ [rule] }, ()))
  match r with
  | .error e => fail (e.within "writing rule")
  | .ok () =>
    emit s.log .debug "rule written" [.text "rule_id" id]
    return id

def activeRules (s : Store) (task : String) : Act (List Rule) := do
  return servedRules (← s.load) task

/-- The prompts of the served rules injected at a point, most confident first. -/
def promptInjections (s : Store) (point : String) : Act (List String) := do
  let rules := servedRules (← s.load) ""
  return (rules.filter (fun r => r.injectionPoint == point && !r.promptTemplate.isEmpty)).map (·.promptTemplate)

/-- Change the first rule with an identifier; false when there is none. -/
def modify (s : Store) (id : String) (f : Rule → Rule) : Act Bool :=
  s.update fun d =>
    let (before, rest) := d.rules.span (·.id != id)
    match rest with
    | r :: after => pure (true, { d with rules := before ++ f r :: after }, true)
    | [] => pure (false, d, false)

/-- Record one application of a rule; false when it is unknown. -/
def apply (s : Store) (id : String) : Act Bool := do
  let now ← clock
  let r ← attempt (s.modify id fun r =>
    { r with timesApplied := Clock.wrap64 (r.timesApplied + 1), lastApplied := some now })
  match r with
  | .ok found => return found
  | .error e => fail (e.within ("applying rule " ++ id))

/-- Enable or disable a rule; false when it is unknown. -/
def setActive (s : Store) (id : String) (active : Bool) : Act Bool := do
  let r ← attempt (s.modify id fun r => { r with active := active })
  match r with
  | .ok found => return found
  | .error e => fail (e.within ("updating rule " ++ id))

/-- Lower the confidence of every never-applied rule by `rate`, never below 0.1;
the number of rules changed. -/
def decayUnused (s : Store) (rate : Float) : Act Nat := do
  if rate < 0 || rate.isNaN then fail ⟨.invalidDecayRate, "decay rate cannot be negative"⟩
  let r ← attempt (s.update fun d =>
    let step (acc : List Rule × Nat) (r : Rule) : List Rule × Nat :=
      if r.timesApplied != 0 then (acc.1 ++ [r], acc.2)
      else
        let next := larger unusedDecayFloor (r.confidence - rate)
        if next != r.confidence then (acc.1 ++ [{ r with confidence := next }], acc.2 + 1)
        else (acc.1 ++ [r], acc.2)
    let (rules, n) := d.rules.foldl step ([], 0)
    pure (n > 0, { d with rules := rules }, n))
  match r with
  | .error e => fail (e.within "decaying rules")
  | .ok n =>
    if n > 0 then emit s.log .info "unused rules decayed" [.int "count" n, ⟨"rate", .float rate⟩]
    return n

/-- Merge incoming rules and apply the retention policy. -/
def merge (s : Store) (incoming : List Rule) (opts : MergeOptions) : Act MergeResult := do
  let now ← clock
  let r ← attempt (s.update fun d =>
    let (kept, result) := retain now opts d.rules incoming
    pure (true, { rules := kept, updated := some now }, result))
  match r with
  | .error e => fail (e.within "merging rules")
  | .ok res =>
    emit s.log .info "procedural rules merged"
      [.int "added" res.added, .int "replaced" res.replaced, .int "dropped" res.dropped, .int "total" res.total]
    return res

def get (s : Store) (id : String) : Act (Option Rule) := do
  return (← s.load).find? (·.id == id)

def list (s : Store) : Act (List Rule) := s.load

/-- The number of rules, and of served rules. -/
def count (s : Store) : Act (Nat × Nat) := do
  let rules ← s.load
  return (rules.length, (servedRules rules "").length)

end Store
end Procedural
end AgentMemory
