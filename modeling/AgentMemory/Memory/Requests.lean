import AgentMemory.Json.Lenient
import AgentMemory.Memory.Manager
import AgentMemory.Secrets.Policy

namespace AgentMemory

/-!
# Requests as documents

The requests the stores take, read leniently from documents whose member names are
the stores' own: a member left out keeps the request's zero value, which the stores
then fill with their defaults.
-/

namespace Semantic

/-- A new fact: `content`, `category`, `source`, `importance`, `tags` and
`ttl_days`, the last one absent when left out. -/
def WriteRequest.ofDocument (j : Json) : WriteRequest :=
  { content := j.textAt "content", category := j.textAt "category", source := j.textAt "source",
    importance := j.wholeAt "importance", tags := j.textsAt "tags",
    ttlDays := (j.present? "ttl_days").map Json.wholeOf }

/-- A change of a fact: `content` and `importance`, each only when given. -/
def UpdateRequest.ofDocument (j : Json) : UpdateRequest :=
  { content := (j.present? "content").bind Json.str?, importance := (j.present? "importance").map Json.wholeOf }

end Semantic

namespace Procedural

/-- A new rule: `trigger`, `behavior`, `rationale`, `source_episodes`,
`confidence` and `injection_point`. -/
def WriteRequest.ofDocument (j : Json) : WriteRequest :=
  { trigger := j.textAt "trigger", behavior := j.textAt "behavior", rationale := j.textAt "rationale",
    sourceEpisodes := j.textsAt "source_episodes", confidence := j.realAt "confidence",
    injectionPoint := j.textAt "injection_point" }

/-- A merge's retention: `decay_per_week`, `age_floor`, `min_confidence` and
`max_rules`. -/
def MergeOptions.ofDocument (j : Json) : MergeOptions :=
  { decayPerWeek := j.realAt "decay_per_week", ageFloor := j.realAt "age_floor",
    minConfidence := j.realAt "min_confidence", maxRules := j.wholeAt "max_rules" }

end Procedural

namespace Episodic

/-- An episode search: `query`, `tags`, `project` and `limit`. -/
def SearchQuery.ofDocument (j : Json) : SearchQuery :=
  { query := j.textAt "query", tags := j.textsAt "tags", project := j.textAt "project", limit := j.wholeAt "limit" }

end Episodic

namespace Secrets

/-- A scrubbing policy: `enabled` (on unless `false`), `default_rules` to start from
the built-in rules, `rules` with their `id`, `description`, `pattern`, `keywords`
and `severity`, `redaction_string` and `allow_list`. -/
def Policy.ofDocument (j : Json) : Policy :=
  let rules := (j.memberAt "rules").items.map fun r =>
    ({ id := r.textAt "id", description := r.textAt "description", pattern := r.textAt "pattern",
       keywords := r.textsAt "keywords", severity := r.textAt "severity" } : DetectionRule)
  { enabled := ((j.get? "enabled").bind Json.bool?).getD true,
    rules := (if j.flagAt "default_rules" then builtinRules else []) ++ rules,
    redaction := j.textAt "redaction_string", allowList := j.textsAt "allow_list" }

end Secrets

end AgentMemory
