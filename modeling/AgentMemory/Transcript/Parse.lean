import AgentMemory.Text.Case
import AgentMemory.Json.Decode
import AgentMemory.Disk.Tree
import AgentMemory.Text.Csv

namespace AgentMemory
namespace Transcript

/-!
# Transcripts

A transcript is the record of one working session.  It is either plain text, kept
as it is, or a log with one JSON entry per line.  A text is read as a log when the
caller says so, or when its first non-blank line is a JSON object.

From a log only the conversation is kept: an entry of type `user` or `assistant`
whose `message` is text or an object with `content`, and an entry of type `message`
whose `role` is `user` or `assistant`.  Content is text, or a list of blocks of which
the `text` blocks count.  Texts are trimmed, and texts that are empty or look like
data are dropped.  A line that is not a JSON value of the entry's shape is counted as
skipped; blank lines are not counted.  The session identifier is the first one that
any entry names.

Lines are split at line feeds, a carriage return before the line feed is dropped, and
a line of ten mebibytes or more ends the reading with an error.
-/

/-! ## Telling prose from data

Transcripts mix what people wrote with tool output.  Two tests keep the tool output
out of the memory:

* text *looks like a document* when, trimmed, it starts with `{` or `[`, or contains
  `{"` or `":` anywhere;
* text *looks like a path* when it holds no blank, tab or line feed and starts with
  `/`, `~/`, `./` or `../`, holds two slashes or more, or holds a backslash.

A phrase taken from a transcript is *cleaned* by trimming blanks and the characters
`` ` `` `"` `'` `,` `;` `:` from both ends; it is kept only if it then has at least ten
characters and looks neither like a document nor like a path.
-/

def minPhraseLength : Nat := 10

/-- The text looks like a document of data. -/
def looksLikeDocument (s : String) : Bool :=
  let t := Text.trimBlank s
  match t.toList with
  | [] => false
  | c :: _ => c == '\x7b' || c == '[' || Text.containsText t "\x7b\"" || Text.containsText t "\":"

/-- The text looks like one file path. -/
def looksLikePath (s : String) : Bool :=
  let cs := s.toList
  if cs.any (fun c => c == ' ' || c == '\t' || c == '\n') then false
  else
    "/".isPrefixOf s || "~/".isPrefixOf s || "./".isPrefixOf s || "../".isPrefixOf s ||
      cs.count '/' ≥ 2 || cs.contains '\\'

/-- Characters trimmed from both ends of a phrase besides blanks. -/
def isPhraseEdge (c : Char) : Bool :=
  Text.isBlank c || c == '\x60' || c == '"' || c == '\'' || c == ',' || c == ';' || c == ':'

/-- Clean a phrase: trimmed, and kept only if long enough and neither data nor a path. -/
def cleanPhrase (s : String) : Option String :=
  let t := String.ofList ((s.toList.dropWhile isPhraseEdge).reverse.dropWhile isPhraseEdge).reverse
  if t.length < minPhraseLength then none
  else if looksLikeDocument t then none
  else if looksLikePath t then none
  else some t

/-- Who spoke. -/
inductive Role where
  | user
  | assistant
deriving Inhabited, BEq, Repr

def Role.name : Role → String
  | .user => "user"
  | .assistant => "assistant"

/-- One turn of the conversation. -/
structure Message where
  role : Role
  text : String
deriving Inhabited, Repr

/-- A read transcript.  `messages` is absent for plain text. -/
structure Transcript where
  path : String := ""
  sessionId : String := ""
  content : String := ""
  messages : Option (List Message) := none
  skipped : Nat := 0
  error : Option String := none
deriving Inhabited, Repr

/-- The longest line read, in bytes, is one less than this. -/
def maxLineBytes : Nat := 10 * 1024 * 1024

def maxTranscriptBytes : Nat := 64 * 1024 * 1024

/-- One line of a log as written. -/
structure Entry where
  kind : String := ""
  role : String := ""
  content : Option Json := none
  message : Option Json := none
  sessionId : String := ""

/-- Read an entry. -/
def Entry.read (j : Json) : Except Failure Entry :=
  Json.readRecord
    [ ⟨"type", fun v e => (Json.readString v e.kind).map fun s => { e with kind := s }⟩,
      ⟨"role", fun v e => (Json.readString v e.role).map fun s => { e with role := s }⟩,
      ⟨"content", fun v e => .ok { e with content := some v }⟩,
      ⟨"message", fun v e => .ok { e with message := some v }⟩,
      ⟨"sessionId", fun v e => (Json.readString v e.sessionId).map fun s => { e with sessionId := s }⟩ ]
    {} "entry" j

/-- A content block of a message. -/
structure Block where
  kind : String := ""
  text : String := ""

/-- Read a content block. -/
def Block.read (j : Json) : Except Failure Block :=
  Json.readRecord
    [ ⟨"type", fun v b => (Json.readString v b.kind).map fun s => { b with kind := s }⟩,
      ⟨"text", fun v b => (Json.readString v b.text).map fun s => { b with text := s }⟩ ]
    {} "contentBlock" j

/-- A nested message object: its role and content. -/
structure Nested where
  role : String := ""
  content : Option Json := none

/-- Read a nested message object. -/
def Nested.read (j : Json) : Except Failure Nested :=
  Json.readRecord
    [ ⟨"role", fun v n => (Json.readString v n.role).map fun s => { n with role := s }⟩,
      ⟨"content", fun v n => .ok { n with content := some v }⟩ ]
    {} "nestedMessage" j

/-- The role and content of an entry that is a turn of the conversation. -/
def Entry.turn? (e : Entry) : Option (Role × Option Json) :=
  let typed : Option Role :=
    if e.kind == "user" then some .user else if e.kind == "assistant" then some .assistant else none
  match typed with
  | some role =>
    match e.message with
    | none => none
    | some m =>
      match Json.readString m "" with
      | .ok s => some (role, some (.str s))
      | .error _ =>
        match Nested.read m with
        | .ok n => some (role, n.content)
        | .error _ => none
  | none =>
    if e.kind == "message" then
      if e.role == "user" then some (.user, e.content)
      else if e.role == "assistant" then some (.assistant, e.content)
      else none
    else none

/-- The text of a message's content: trimmed text, or the kept text blocks joined by
line feeds. -/
def contentText (raw : Option Json) : String :=
  match raw with
  | none => ""
  | some j =>
    match Json.readString j "" with
    | .ok s => Text.trimBlank s
    | .error _ =>
      match Json.readList Block.read "[]contentBlock" j with
      | .ok (some blocks) =>
        let texts := blocks.filterMap fun b =>
          if b.kind != "text" then none
          else
            let t := Text.trimBlank b.text
            if t.isEmpty || looksLikeDocument t then none else some t
        "\n".intercalate texts
      | _ => ""

/-- Split a text into lines as a scanner with a buffer of `maxLineBytes` bytes does:
the lines before the first one of `maxLineBytes` bytes or more, with a carriage return
before each line feed dropped, and an error when there is such a line. -/
def splitLines (raw : String) : List String × Option String :=
  let pieces := Text.linePieces raw
  ((pieces.takeWhile (·.utf8ByteSize < maxLineBytes)).map Text.dropReturn,
   if pieces.any (·.utf8ByteSize ≥ maxLineBytes) then some Text.tooLong else none)

/-- The first non-blank line is a JSON object. -/
def firstLineIsObject (raw : String) : Bool :=
  match (raw.splitOn "\n").map Text.trimBlank |>.find? (fun l => !l.isEmpty) with
  | none => false
  | some line =>
    "\x7b".isPrefixOf line &&
      match Json.parse line with
      | .ok (.obj _) => true
      | _ => false

/-- Read one line of a log into the transcript so far and the texts kept so far,
newest first. -/
def readLine (acc : Transcript × List String) (line : String) : Transcript × List String :=
  let (t, parts) := acc
  let line := Text.trimBlank line
  if line.isEmpty then acc
  else
    match (Json.parseDocument line).bind Entry.read with
    | .error _ => ({ t with skipped := t.skipped + 1 }, parts)
    | .ok e =>
      let t := if t.sessionId.isEmpty && !e.sessionId.isEmpty then { t with sessionId := e.sessionId } else t
      match e.turn? with
      | none => (t, parts)
      | some (role, content) =>
        let text := contentText content
        if text.isEmpty || looksLikeDocument text then (t, parts)
        else ({ t with messages := some (t.messages.getD [] ++ [⟨role, text⟩]) }, text :: parts)

/-- Read a log transcript line by line. -/
def parseLog (raw : String) : Transcript :=
  let (lines, err) := splitLines raw
  let (t, parts) := lines.foldl readLine ({ messages := some [] }, [])
  { t with content := "\n".intercalate parts.reverse,
           error := err.map (fun e => "scanning transcript: " ++ e) }

/-- Read a transcript, as a log when `asLog` is set or the text starts with an object
line, as plain text otherwise. -/
def parse (raw : String) (asLog : Bool) : Transcript :=
  if asLog || firstLineIsObject raw then parseLog raw else { content := raw }

def ofText (text : String) : Transcript := { content := text }

/-- What a transcript's path leads to. -/
inductive Source where
  /-- The path cannot be looked at; the message says why. -/
  | unreadable (message : String)
  | directory
  | file (size : Nat) (text : String)

/-- The extension of the last element of a path, from its last dot; empty without a
dot. -/
def extension (path : String) : String :=
  let base := (path.splitOn "/").getLast?.getD path
  match (base.splitOn ".") with
  | [] | [_] => ""
  | parts => "." ++ parts.getLast!

def baseName (path : String) : String :=
  (path.splitOn "/").getLast?.getD path

/-- Load a transcript file: directories and files over 64 MiB are refused; a `.jsonl`
extension, in any case, makes it a log; a log without session identifier takes the
file's name without extension when it has messages. -/
def load (path : String) (src : Source) : Transcript :=
  match src with
  | .unreadable msg => { path := path, error := some msg }
  | .directory => { path := path, error := some (path ++ " is a directory") }
  | .file size text =>
    if size > maxTranscriptBytes then
      { path := path, error := some ("transcript too large: " ++ toString size ++ " bytes (max " ++
          toString maxTranscriptBytes ++ ")") }
    else
      let ext := extension path
      let t := { parse text (Text.equalFold ext ".jsonl") with path := path }
      if t.sessionId.isEmpty && !(t.messages.getD []).isEmpty then
        let base := baseName path
        { t with sessionId := String.ofList (base.toList.take (base.length - ext.length)) }
      else t

/-- Load a transcript from a tree of files.  The file is looked up at `place`, the
absolute form of `path`; messages name the path as it was given. -/
def loadFrom (tree : Disk.Tree) (path : String) (place : String := path) : Transcript :=
  let src : Source :=
    match tree.stat place with
    | .error e => .unreadable { e with path := path }.message
    | .ok .dir => .directory
    | .ok (.file d) => .file d.size d.contents
  load path src

end Transcript
end AgentMemory
