import AgentMemory.Regex.Search

namespace AgentMemory
namespace Secrets

/-!
# Secret detection policies

A policy says which texts count as secrets: a list of detection rules, each a
regular expression with an identifier, a severity and optional keywords, plus an
allow list of expressions whose matches are never secrets, and the text that replaces
a secret.

A rule with keywords is only run on a text in which one of its keywords occurs,
compared case-insensitively; it keeps prose fast and never changes what counts as
a secret beyond that gate.

A policy is checked before use: every rule needs an identifier and a pattern, and
every pattern must compile.  A disabled policy is not checked at all.
-/

/-- One way of recognising a secret. -/
structure DetectionRule where
  id : String
  description : String := ""
  pattern : String
  keywords : List String := []
  severity : String := ""
deriving Inhabited, Repr

/-- What is scrubbed and how. -/
structure Policy where
  enabled : Bool := true
  rules : List DetectionRule := []
  redaction : String := ""
  allowList : List String := []
deriving Inhabited, Repr

/-- The replacement text when a policy names none. -/
def defaultRedaction : String := "[REDACTED]"

/-- The built-in rules, in the order they are run. -/
def builtinRules : List DetectionRule :=
  [ { id := "private-key", description := "PEM private key header",
      pattern := "-----BEGIN (?:RSA |DSA |EC |OPENSSH |PGP )?PRIVATE KEY(?:[- ]BLOCK)?-----",
      severity := "high" },
    { id := "aws-access-key-id", description := "AWS access key ID",
      pattern := "(?:A3T[A-Z0-9]|AKIA|AGPA|AIDA|AROA|AIPA|ANPA|ANVA|ASIA)[A-Z0-9]\x7b16\x7d",
      severity := "high" },
    { id := "aws-secret-access-key", description := "AWS secret access key assignment",
      pattern := "(?i)(?:aws_secret_access_key|aws_secret_key|secret_access_key)\\s*[:=]\\s*['\"]?[A-Za-z0-9/+=]\x7b40\x7d['\"]?",
      keywords := ["secret"], severity := "high" },
    { id := "anthropic-api-key", description := "Anthropic API key",
      pattern := "sk-ant-[A-Za-z0-9_\\-]\x7b32,\x7d", severity := "high" },
    { id := "openai-api-key", description := "OpenAI API key",
      pattern := "sk-(?:proj-)?[A-Za-z0-9]\x7b40,\x7d", severity := "high" },
    { id := "github-token", description := "GitHub token",
      pattern := "(?:ghp|gho|ghu|ghs|ghr)_[A-Za-z0-9]\x7b36\x7d|github_pat_[A-Za-z0-9_]\x7b22,\x7d",
      severity := "high" },
    { id := "gitlab-token", description := "GitLab personal access token",
      pattern := "glpat-[A-Za-z0-9\\-]\x7b20,\x7d", severity := "high" },
    { id := "slack-token", description := "Slack token",
      pattern := "xox[baprs]-[A-Za-z0-9\\-]\x7b10,\x7d", severity := "high" },
    { id := "stripe-key", description := "Stripe API key",
      pattern := "(?:sk|rk)_(?:live|test)_[A-Za-z0-9]\x7b24,\x7d", severity := "high" },
    { id := "npm-token", description := "npm access token",
      pattern := "npm_[A-Za-z0-9]\x7b36\x7d", severity := "high" },
    { id := "google-api-key", description := "Google API key",
      pattern := "AIza[A-Za-z0-9_\\-]\x7b35\x7d", severity := "high" },
    { id := "jwt", description := "JSON Web Token",
      pattern := "eyJ[A-Za-z0-9_-]*\\.eyJ[A-Za-z0-9_-]*\\.[A-Za-z0-9_-]*", severity := "medium" },
    { id := "connection-url", description := "Connection string with embedded credentials",
      pattern := "(?i)(?:postgres(?:ql)?|mysql|mongodb(?:\\+srv)?|redis|amqp)://[^:\\s/]+:[^@\\s]+@\\S+",
      keywords := ["://"], severity := "high" },
    { id := "bearer-token", description := "Bearer token",
      pattern := "(?i)bearer\\s+[A-Za-z0-9_\\-\\.=]\x7b20,\x7d", keywords := ["bearer"],
      severity := "medium" },
    { id := "generic-api-key", description := "Generic API key assignment",
      pattern := "(?i)(?:api[_-]?key|apikey)\\s*[:=]\\s*['\"]?[A-Za-z0-9_\\-]\x7b16,64\x7d['\"]?",
      keywords := ["api"], severity := "high" },
    { id := "generic-secret", description := "Password or secret assignment",
      pattern := "(?i)(?:secret|password|passwd|pwd|token)\\s*[:=]\\s*['\"]?[^\\s'\"]\x7b8,\x7d['\"]?",
      keywords := ["secret", "passw", "pwd", "token"], severity := "high" } ]

/-- The policy used when none is given: the built-in rules, enabled. -/
def Policy.standard : Policy :=
  { enabled := true, rules := builtinRules, redaction := defaultRedaction }

def Policy.ofSwitch (enabled : Bool) : Policy :=
  { Policy.standard with enabled := enabled }

/-- Why a policy cannot be used. -/
inductive PolicyError where
  | missingId (index : Nat)
  | missingPattern (id : String)
  | badPattern (id : String) (cause : Regex.SyntaxError)
  | badAllowPattern (index : Nat) (cause : Regex.SyntaxError)
deriving Inhabited

/-- The message of a policy error. -/
def PolicyError.message : PolicyError → String
  | .missingId i => "rule " ++ toString i ++ ": ID is required"
  | .missingPattern id => "rule " ++ id ++ ": pattern is required"
  | .badPattern id e => "rule " ++ id ++ ": invalid pattern: " ++ e.message
  | .badAllowPattern i e => "allow_list " ++ toString i ++ ": invalid pattern: " ++ e.message

/-- A rule ready to run: its pattern and keyword gates compiled. -/
structure ActiveRule where
  rule : DetectionRule
  pattern : Regex.Compiled
  gates : List Regex.Compiled

/-- A checked policy, ready to scrub.  A disabled policy scrubs nothing. -/
inductive Scrubber where
  | off
  | on (redaction : String) (rules : List ActiveRule) (allow : List Regex.Compiled)
deriving Inhabited

/-- The gate of a keyword: the keyword as literal text, in any case. -/
def keywordGate (kw : String) : Regex.Compiled :=
  match Regex.compile ("(?i)" ++ Regex.quoteMeta kw) with
  | .ok re => re
  | .error _ => default

/-- Compile the rules in order, stopping at the first bad one. -/
def activateRules : List DetectionRule → Nat → Except PolicyError (List ActiveRule)
  | [], _ => .ok []
  | r :: rs, i =>
    if r.id.isEmpty then .error (.missingId i)
    else if r.pattern.isEmpty then .error (.missingPattern r.id)
    else
      match Regex.compile r.pattern with
      | .error e => .error (.badPattern r.id e)
      | .ok re =>
        match activateRules rs (i + 1) with
        | .error e => .error e
        | .ok active => .ok (⟨r, re, r.keywords.map keywordGate⟩ :: active)

/-- Compile the allow list in order, stopping at the first bad pattern. -/
def activateAllowList : List String → Nat → Except PolicyError (List Regex.Compiled)
  | [], _ => .ok []
  | p :: ps, i =>
    match Regex.compile p with
    | .error e => .error (.badAllowPattern i e)
    | .ok re =>
      match activateAllowList ps (i + 1) with
      | .error e => .error e
      | .ok rest => .ok (re :: rest)

/-- Check a policy and make its scrubber. -/
def Policy.activate (p : Policy) : Except PolicyError Scrubber :=
  if !p.enabled then .ok .off
  else
    match activateRules p.rules 0 with
    | .error e => .error e
    | .ok rules =>
      match activateAllowList p.allowList 0 with
      | .error e => .error e
      | .ok allow =>
        .ok (.on (if p.redaction.isEmpty then defaultRedaction else p.redaction) rules allow)

/-- The scrubber of the standard policy. -/
def Scrubber.standard : Scrubber :=
  match Policy.standard.activate with
  | .ok s => s
  | .error _ => .off

/-- The scrubber is on. -/
def Scrubber.enabled : Scrubber → Bool
  | .off => false
  | .on .. => true

end Secrets
end AgentMemory
