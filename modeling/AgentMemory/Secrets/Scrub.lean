import AgentMemory.Secrets.Policy
import AgentMemory.Json.Value

namespace AgentMemory
namespace Secrets

/-!
# Scrubbing secrets out of text

Scrubbing runs every rule of a policy over the text, in rule order.  Each match that
no allow-list pattern matches is a finding, recorded by rule, severity and UTF-8 byte
offsets, never by value.  The matched stretches are then merged into connected
components (two stretches touch when the next starts no later than the last ends) and
each component is replaced by the redaction text once.

An empty text is returned unchanged, and a disabled scrubber changes nothing.
-/

/-- A detected secret: which rule found it and where. -/
structure Finding where
  ruleId : String
  severity : String
  startIndex : Nat
  endIndex : Nat
deriving Inhabited, Repr, BEq

/-- The document form of a finding. -/
def Finding.toJson (f : Finding) : Json :=
  .obj [("rule_id", .str f.ruleId), ("severity", .str f.severity),
    ("start_index", Json.ofNat f.startIndex), ("end_index", Json.ofNat f.endIndex)]

/-- The outcome of scrubbing one text. -/
structure Scrubbed where
  text : String
  findings : List Finding
deriving Inhabited, Repr

/-- A stretch of text by character positions. -/
structure Stretch where
  first : Nat
  last : Nat
deriving Inhabited, Repr, BEq

/-- Add a stretch to the merged ones, held last first: it joins the last one when it
starts no later than that one ends. -/
def joinStretch (acc : List Stretch) (cur : Stretch) : List Stretch :=
  match acc with
  | [] => [cur]
  | last :: rest =>
    if cur.first ≤ last.last then ⟨last.first, max last.last cur.last⟩ :: rest
    else cur :: acc

/-- Merge stretches sorted by start, left to right, joining each to the last merged one
it overlaps or touches. -/
def mergeSorted (sorted : List Stretch) : List Stretch :=
  (sorted.foldl joinStretch []).reverse

/-- Sort stretches by start and merge those that overlap or touch. -/
def mergeStretches (spans : List Stretch) : List Stretch :=
  mergeSorted (spans.mergeSort (fun a b => a.first ≤ b.first))

/-- Replace each stretch of a text by the redaction text. -/
def redact (text : Array Char) (redaction : String) (stretches : List Stretch) : String :=
  let rec go (pos : Nat) (ss : List Stretch) (acc : List String) : List String :=
    match ss with
    | [] => (String.ofList (text.extract pos text.size).toList :: acc)
    | s :: rest =>
      go s.last rest (redaction :: String.ofList (text.extract pos s.first).toList :: acc)
  String.join (go 0 stretches []).reverse

/-- The findings of one rule over a text, with their stretches. -/
def ActiveRule.detect (r : ActiveRule) (allow : List Regex.Compiled) (content : String)
    (text : Array Char) : List (Finding × Stretch) :=
  if !r.gates.isEmpty && !r.gates.any (fun g => g.test content) then []
  else
    (r.pattern.findAll text).filterMap (fun sp =>
      let found := String.ofList (text.extract sp.first sp.last).toList
      if allow.any (fun a => a.test found) then none
      else some (⟨r.rule.id, r.rule.severity, sp.startByte, sp.endByte⟩, ⟨sp.first, sp.last⟩))

/-- Scrub one text. -/
def Scrubber.scrub (s : Scrubber) (content : String) : Scrubbed :=
  match s with
  | .off => ⟨content, []⟩
  | .on redaction rules allow =>
    if content.isEmpty then ⟨content, []⟩
    else
      let text := content.toList.toArray
      let found := rules.flatMap (fun r => r.detect allow content text)
      if found.isEmpty then ⟨content, []⟩
      else ⟨redact text redaction (mergeStretches (found.map Prod.snd)), found.map Prod.fst⟩

def Scrubbed.hasFindings (r : Scrubbed) : Bool := !r.findings.isEmpty

/-- The identifiers of the rules that found something, each once, in first-seen order. -/
def Scrubbed.ruleIds (r : Scrubbed) : List String :=
  (r.findings.map Finding.ruleId).eraseDups

/-- Scrub several texts, skipping absent ones: the new texts and the number of
findings in all of them. -/
def Scrubber.scrubAll (s : Scrubber) (texts : List (Option String)) : List (Option String) × Nat :=
  texts.foldr (fun t (acc : List (Option String) × Nat) =>
    match t with
    | none => (none :: acc.1, acc.2)
    | some x =>
      let r := s.scrub x
      (some r.text :: acc.1, acc.2 + r.findings.length)) ([], 0)

end Secrets
end AgentMemory
