import AgentMemory.Transcript.Parse
import AgentMemory.Regex.Search

namespace AgentMemory
namespace Transcript

/-!
# What a transcript teaches

An extraction is the candidate memory found in a transcript's text:

* the task: the first labelled task line (`task:`, `implement:`, `create:`, `fix:`)
  within the first 2000 bytes, else the first non-blank line, else `Unknown task`, at
  most 200 characters;
* decisions, errors, successes and preferences: phrases after cue words (`decided
  to`, `error:`, `successfully`, `prefers`, ...), running to the end of the sentence or
  line, cleaned, at most ten of each, in cue order and then text order, repeats kept;
* files: paths mentioned as created, modified or named, each once, at most twenty;
* tags: the words of a vocabulary that occur in the text in any case, in vocabulary
  order, at most ten;
* success: there are at least as many success phrases as error phrases.

All cues are matched case-insensitively and at word starts.
-/

/-- Candidate memory found in one transcript. -/
structure Extraction where
  task : String
  decisions : List String
  errors : List String
  successes : List String
  preferences : List String
  files : List String
  tags : List String
  success : Bool
deriving Inhabited, Repr

/-- The lessons of an extraction: its errors, then its successes. -/
def Extraction.learnings (e : Extraction) : List String := e.errors ++ e.successes

def unknownTask : String := "Unknown task"

/-- The words tagged when no vocabulary is given. -/
def standardVocabulary : List String :=
  ["python", "typescript", "javascript", "react", "node", "docker", "kubernetes", "aws", "git",
   "api", "database", "test", "security", "auth", "jwt", "oauth", "hooks", "memory", "cache",
   "performance", "async", "websocket"]

/-- A phrase: everything up to the end of the sentence or line. -/
def phrase : String := "([^.!?\\n]+)"

/-- Compile a cue case-insensitively. -/
def cue (expr : String) : Regex.Compiled :=
  match Regex.compile ("(?i)" ++ expr) with
  | .ok re => re
  | .error _ => default

def decisionCues : List Regex.Compiled :=
  [cue ("\\bdecided to " ++ phrase), cue "\\bchose ([^.!?\\n]+?) over\\b",
   cue ("\\bwill use " ++ phrase), cue ("\\bgoing with " ++ phrase), cue ("\\bselected " ++ phrase)]

def errorCues : List Regex.Compiled :=
  [cue ("\\berror[:\\s]+" ++ phrase), cue ("\\bfailed[:\\s]+" ++ phrase),
   cue ("\\bbug[:\\s]+" ++ phrase), cue ("\\bissue[:\\s]+" ++ phrase),
   cue ("\\bproblem[:\\s]+" ++ phrase)]

def successCues : List Regex.Compiled :=
  [cue ("\\bsuccessfully " ++ phrase), cue ("\\bcompleted " ++ phrase), cue ("\\bfixed " ++ phrase),
   cue ("\\bimplemented " ++ phrase), cue ("\\bcreated " ++ phrase)]

def preferenceCues : List Regex.Compiled :=
  [cue ("\\bprefers? " ++ phrase), cue ("\\blikes? " ++ phrase), cue ("\\bwants? " ++ phrase),
   cue ("\\balways " ++ phrase), cue ("\\bnever " ++ phrase)]

def fileCues : List Regex.Compiled :=
  [cue "\\b(?:created|modified|edited|wrote)\\s+(?:to\\s+)?[\x60'\"]?([^\\s\x60'\"]+\\.[a-zA-Z]+)",
   cue "\\b(?:file|path)[:\\s]+[\x60'\"]?([^\\s\x60'\"]+\\.[a-zA-Z]+)"]

def taskCues : List Regex.Compiled :=
  [cue "\\btask[:\\s]+([^\\n]+)", cue "\\bimplement[:\\s]+([^\\n]+)",
   cue "\\bcreate[:\\s]+([^\\n]+)", cue "\\bfix[:\\s]+([^\\n]+)"]

/-- The first group of each match of each cue, cleaned, at most `limit` in all. -/
def captureAll (text : String) (cues : List Regex.Compiled) (limit : Nat) : List String :=
  let found := cues.flatMap fun re =>
    (re.findAllGroups text).filterMap fun groups => cleanPhrase (groups.getD 1 "")
  found.take limit

/-- A text cut to at most `n` bytes, at a character boundary. -/
def takeBytes (s : String) (n : Nat) : String :=
  let rec go (cs : List Char) (used : Nat) (acc : List Char) : List Char :=
    match cs with
    | [] => acc.reverse
    | c :: rest => if used + c.utf8Size > n then acc.reverse else go rest (used + c.utf8Size) (c :: acc)
  String.ofList (go s.toList 0 [])

def takeChars (s : String) (n : Nat) : String :=
  if s.length ≤ n then s else String.ofList (s.toList.take n)

/-- Finds candidate memory in text; the vocabulary decides the tags. -/
structure Extractor where
  vocabulary : List String
deriving Inhabited, Repr

namespace Extractor

def standard : Extractor := ⟨standardVocabulary⟩

/-- An extractor with a vocabulary; an empty one means the standard vocabulary. -/
def withVocabulary (words : List String) : Extractor :=
  if words.isEmpty then standard else ⟨words⟩

/-- The task of a text. -/
def task (text : String) : String :=
  let window := takeBytes text 2000
  let labelled := taskCues.findSome? fun re =>
    match re.findGroups? window with
    | some groups =>
      let t := Text.trimBlank (groups.getD 1 "")
      if t.isEmpty then none else some (takeChars t 200)
    | none => none
  match labelled with
  | some t => t
  | none =>
    match ((text.splitOn "\n").map Text.trimBlank).find? (fun l => !l.isEmpty) with
    | some line => takeChars line 200
    | none => unknownTask

/-- Paths mentioned in a text, each once, at most twenty. -/
def files (text : String) : List String :=
  let found := fileCues.flatMap fun re => (re.findAllGroups text).map fun g => g.getD 1 ""
  (found.foldl (fun acc f => if acc.contains f then acc else acc ++ [f]) []).take 20

/-- Vocabulary words that occur in the text in any case, at most ten. -/
def tags (x : Extractor) (text : String) : List String :=
  let lowered := Text.lower text
  (x.vocabulary.filter fun w => Text.containsText lowered (Text.lower w)).take 10

/-- Extract candidate memory from a text. -/
def run (x : Extractor) (text : String) : Extraction :=
  let errors := captureAll text errorCues 10
  let successes := captureAll text successCues 10
  { task := task text,
    decisions := captureAll text decisionCues 10,
    errors := errors,
    successes := successes,
    preferences := captureAll text preferenceCues 10,
    files := files text,
    tags := x.tags text,
    success := successes.length ≥ errors.length }

/-- Extract candidate memory from a transcript; no transcript means empty text. -/
def runOn (x : Extractor) (t : Option Transcript) : Extraction :=
  x.run (match t with | some t => t.content | none => "")

end Extractor

/-- The document form of an extraction. -/
def Extraction.toJson (e : Extraction) : Json :=
  .obj [("task", .str e.task), ("decisions", Json.ofStrings e.decisions),
    ("errors", Json.ofStrings e.errors), ("successes", Json.ofStrings e.successes),
    ("preferences", Json.ofStrings e.preferences), ("files", Json.ofStrings e.files),
    ("tags", Json.ofStrings e.tags), ("success", .bool e.success)]

end Transcript
end AgentMemory
