import AgentMemory.Proofs.Reflection.Extraction
import AgentMemory.Proofs.Text.Lines

namespace AgentMemory
namespace Transcript

/-!
# What is kept of a log transcript

A log transcript is read line by line (`readLine`), and each line is judged on its own:
a blank line is passed over, a line that does not decode as an entry is counted as
skipped, and a decoded entry that is a turn of the conversation with some text that does
not look like data gives one message.  `Turn` says which entries are turns, in the two
layouts a log uses.

Main statement: `parse_reads_log_lines`.  For a text read as a log whose lines are all
shorter than the scanner's buffer, the count of skipped lines, the messages, the content
and the session identifier are the line-by-line judgements put together: a count, the
messages in line order, their texts joined by line feeds, and the first session
identifier that any decoded line names.  A line of ten mebibytes stops the reading
(`long_line_stops_the_log`), so the bound is strict.
-/

/-- The turn an entry is, in the two layouts of a log: an entry of type `user` or
`assistant` whose `message` is text (`null` reads as empty text) or else a nested message
object, the role taken from the type; or an entry of type `message` whose role is `user`
or `assistant`. -/
inductive Turn : Entry → Role → Option Json → Prop
  | text {e : Entry} {role : Role} {m : Json} {s : String} :
      e.kind = role.name → e.message = some m → Json.readString m "" = .ok s →
      Turn e role (some (.str s))
  | nested {e : Entry} {role : Role} {m : Json} {n : Nested} :
      e.kind = role.name → e.message = some m → (∀ s, Json.readString m "" ≠ .ok s) →
      Nested.read m = .ok n → Turn e role n.content
  | flat {e : Entry} {role : Role} :
      e.kind = "message" → e.role = role.name → Turn e role e.content

theorem typed_eq_some_iff (kind : String) (role : Role) :
    (if kind == "user" then some Role.user else if kind == "assistant" then some .assistant
      else none) = some role ↔ kind = role.name := by
  cases role <;> by_cases user : kind = "user" <;> simp_all [Role.name]

theorem typed_eq_none_iff (kind : String) :
    (if kind == "user" then some Role.user else if kind == "assistant" then some .assistant
      else none) = none ↔ kind ≠ "user" ∧ kind ≠ "assistant" := by
  by_cases user : kind = "user" <;> simp_all

theorem Entry.turn?_eq_some_iff (e : Entry) (role : Role) (content : Option Json) :
    e.turn? = some (role, content) ↔ Turn e role content := by
  constructor
  · intro h
    unfold Entry.turn? at h
    dsimp only at h
    split at h
    next role' typed =>
      rw [typed_eq_some_iff] at typed
      split at h
      · cases h
      next m message =>
        split at h
        next s read =>
          cases h
          exact .text typed message read
        next read =>
          split at h
          next n nested =>
            cases h
            exact .nested typed message (fun s found => by simp [found] at read) nested
          · cases h
    next =>
      split at h
      next kind =>
        split at h
        next user =>
          cases h
          exact .flat (by simpa using kind) (by simpa [Role.name] using user)
        next =>
          split at h
          next assistant =>
            cases h
            exact .flat (by simpa using kind) (by simpa [Role.name] using assistant)
          · cases h
      · cases h
  · intro turn
    unfold Entry.turn?
    dsimp only
    cases turn with
    | text named message read =>
      rw [(typed_eq_some_iff _ _).2 named]
      simp [message, read]
    | nested named message notText read =>
      rw [(typed_eq_some_iff _ _).2 named]
      cases text : Json.readString _ "" with
      | ok s => exact absurd text (notText s)
      | error => simp [message, text, read]
    | flat kind named =>
      have untyped : e.kind ≠ "user" ∧ e.kind ≠ "assistant" := by simp [kind]
      rw [(typed_eq_none_iff _).2 untyped]
      cases role <;> simp_all [Role.name]


/-! ## One line -/

/-- A line decoded as an entry, its blanks trimmed first. -/
def decodeLine (line : String) : Except Failure Entry :=
  (Json.parseDocument (Text.trimBlank line)).bind Entry.read

/-- A line that is empty once its blanks are trimmed. -/
def blankLine (line : String) : Bool := (Text.trimBlank line).isEmpty

/-- The entry of a line that is not blank and decodes. -/
def entryOf? (line : String) : Option Entry :=
  if blankLine line then none else (decodeLine line).toOption

/-- A line is skipped when it is not blank and does not decode. -/
def skipsLine (line : String) : Bool :=
  !blankLine line && (decodeLine line).toOption.isNone

/-- The message an entry gives: a turn whose text is not empty and does not look like
data. -/
def Entry.message? (e : Entry) : Option Message :=
  e.turn?.bind fun turn =>
    let text := contentText turn.2
    if text.isEmpty || looksLikeDocument text then none else some ⟨turn.1, text⟩

theorem Entry.message?_eq_some_iff (e : Entry) (m : Message) :
    e.message? = some m ↔ ∃ content, Turn e m.role content ∧ m.text = contentText content ∧
      m.text ≠ "" ∧ looksLikeDocument m.text = false := by
  unfold Entry.message?
  rw [Option.bind_eq_some_iff]
  constructor
  · rintro ⟨⟨role, content⟩, turn, kept⟩
    rw [Entry.turn?_eq_some_iff] at turn
    by_cases dropped : contentText content = "" ∨ looksLikeDocument (contentText content) = true
    · simp [dropped] at kept
    · simp only [dropped, String.isEmpty_iff, Bool.or_eq_true, if_false, Option.some_inj] at kept
      subst kept
      simp only [not_or, Bool.not_eq_true] at dropped
      exact ⟨content, turn, rfl, dropped⟩
  · rintro ⟨content, turn, text, nonempty, notDocument⟩
    refine ⟨(m.role, content), (Entry.turn?_eq_some_iff _ _ _).2 turn, ?_⟩
    rw [← text]
    simp [nonempty, notDocument]

/-- The message a line gives. -/
def lineMessage? (line : String) : Option Message := (entryOf? line).bind Entry.message?

/-- The first text that is not empty, or the empty text when there is none. -/
def firstNonEmpty (texts : List String) : String := (texts.find? (!·.isEmpty)).getD ""

theorem firstNonEmpty_singleton (s : String) : firstNonEmpty [s] = s := by
  by_cases empty : s.isEmpty <;> simp_all [firstNonEmpty, String.isEmpty_iff]

/-- Keeping a text unless it is empty and the next one is not is taking the first text
that is not empty. -/
theorem firstNonEmpty_pair (a b : String) :
    firstNonEmpty [a, b] = if a.isEmpty && !b.isEmpty then b else a := by
  by_cases emptyA : a.isEmpty <;> by_cases emptyB : b.isEmpty <;>
    simp_all [firstNonEmpty, String.isEmpty_iff]

theorem firstNonEmpty_cons_firstNonEmpty (xs ys : List String) :
    firstNonEmpty (firstNonEmpty xs :: ys) = firstNonEmpty (xs ++ ys) := by
  unfold firstNonEmpty
  cases found : xs.find? (!·.isEmpty) with
  | some x =>
    have nonempty : x.isEmpty = false := by simpa using List.find?_some found
    simp [List.find?_append, found, nonempty]
  | none => simp [List.find?_append, found]

/-- Reading one line: a skipped line is counted, a decoded entry may give the session
identifier, and a message is added to the messages and its text to the parts. -/
theorem readLine_eq (t : Transcript) (ms : List Message) (parts : List String) (line : String)
    (kept : t.messages = some ms) :
    readLine (t, parts) line =
      ({ t with skipped := t.skipped + (if skipsLine line then 1 else 0),
                sessionId := firstNonEmpty (t.sessionId :: ((entryOf? line).map (·.sessionId)).toList),
                messages := some (ms ++ (lineMessage? line).toList) },
       ((lineMessage? line).map (·.text)).toList ++ parts) := by
  obtain ⟨path, sessionId, content, messages, skipped, error⟩ := t
  subst kept
  unfold readLine lineMessage? entryOf? skipsLine blankLine
  dsimp only
  by_cases blank : (Text.trimBlank line).isEmpty
  · simp [blank, firstNonEmpty_singleton]
  · rw [if_neg blank]
    cases decoded : decodeLine line with
    | error =>
      simp only [decodeLine] at decoded
      simp [blank, decoded, Except.toOption, firstNonEmpty_singleton]
    | ok e =>
      simp only [decodeLine] at decoded
      simp only [decoded, Except.toOption]
      -- the session identifier, the turn and its text each decide one step
      by_cases fresh : (sessionId.isEmpty && !e.sessionId.isEmpty) = true <;>
      cases turn : e.turn? with
      | none => simp [fresh, blank, turn, Entry.message?, firstNonEmpty_pair]
      | some p =>
        by_cases dropped : contentText p.2 = "" ∨ looksLikeDocument (contentText p.2) = true <;>
          simp [fresh, blank, dropped, turn, Entry.message?, firstNonEmpty_pair]


/-! ## A whole log -/

/-- Reading lines one after another counts the skipped lines, keeps the first session
identifier, and appends the messages in line order, their texts to the parts newest
first. -/
theorem foldl_readLine (lines : List String) (t : Transcript) (ms : List Message) (parts : List String)
    (kept : t.messages = some ms) :
    lines.foldl readLine (t, parts) =
      ({ t with skipped := t.skipped + lines.countP skipsLine,
                sessionId := firstNonEmpty (t.sessionId :: (lines.filterMap entryOf?).map (·.sessionId)),
                messages := some (ms ++ lines.filterMap lineMessage?) },
       ((lines.filterMap lineMessage?).map (·.text)).reverse ++ parts) := by
  induction lines generalizing t ms parts with
  | nil =>
    obtain ⟨path, sessionId, content, messages, skipped, error⟩ := t
    simp_all [firstNonEmpty_singleton]
  | cons line rest ih =>
    rw [List.foldl_cons, readLine_eq t ms parts line kept, ih _ _ _ rfl]
    obtain ⟨path, sessionId, content, messages, skipped, error⟩ := t
    simp only [firstNonEmpty_cons_firstNonEmpty, List.countP_cons, List.filterMap_cons]
    cases entry : entryOf? line <;> cases message : lineMessage? line <;>
      simp <;> omega

/-- Without a line of `maxLineBytes` bytes or more, the scanner gives every line, with the
carriage return before each line feed dropped, and no error. -/
theorem splitLines_of_short {raw : String}
    (short : ∀ p ∈ Text.linePieces raw, p.utf8ByteSize < maxLineBytes) :
    splitLines raw = ((Text.linePieces raw).map Text.dropReturn, none) := by
  have whole : (Text.linePieces raw).takeWhile (·.utf8ByteSize < maxLineBytes) = Text.linePieces raw :=
    List.takeWhile_eq_self_iff.2 fun p mem => by simpa using short p mem
  have none_long : (Text.linePieces raw).any (·.utf8ByteSize ≥ maxLineBytes) = false := by
    simpa using fun p mem => short p mem
  simp only [splitLines, whole, none_long, Bool.false_eq_true, if_false]

/-- A text read as a log, with every line shorter than the scanner's buffer: the count of
skipped lines, the messages, the content and the session identifier are what its lines
give one by one, in line order, and there is no error.  A line gives a message exactly
when it decodes to a turn whose text is not empty and does not look like data. -/
theorem parse_reads_log_lines (raw : String) (asLog : Bool)
    (log : asLog = true ∨ firstLineIsObject raw = true)
    (short : ∀ p ∈ Text.linePieces raw, p.utf8ByteSize < maxLineBytes) :
    let lines := (Text.linePieces raw).map Text.dropReturn
    let t := parse raw asLog
    t.skipped = lines.countP skipsLine ∧
    t.messages = some (lines.filterMap lineMessage?) ∧
    t.content = "\n".intercalate ((lines.filterMap lineMessage?).map (·.text)) ∧
    t.sessionId = firstNonEmpty ((lines.filterMap entryOf?).map (·.sessionId)) ∧
    t.error = none ∧
    (∀ line m, lineMessage? line = some m ↔ ∃ e content, entryOf? line = some e ∧
      Turn e m.role content ∧ m.text = contentText content ∧ m.text ≠ "" ∧
      looksLikeDocument m.text = false) := by
  have readAsLog : parse raw asLog = parseLog raw := by
    rcases log with flag | object <;> simp [parse, *]
  intro lines t
  have read : t = { (lines.foldl readLine ({ messages := some [] }, [])).1 with
      content := "\n".intercalate (lines.foldl readLine ({ messages := some [] }, [])).2.reverse,
      error := none } := by
    simp only [t, lines, readAsLog, parseLog, splitLines_of_short short, Option.map_none]
  rw [foldl_readLine lines _ [] [] rfl] at read
  refine ⟨by simp [read], by simp [read], by simp [read], by simp [read, firstNonEmpty], by simp [read], ?_⟩
  intro line m
  simp only [lineMessage?, Option.bind_eq_some_iff, Entry.message?_eq_some_iff]
  constructor
  · rintro ⟨e, entry, content, turn⟩
    exact ⟨e, content, entry, turn⟩
  · rintro ⟨e, content, entry, turn⟩
    exact ⟨e, entry, content, turn⟩

/-- A line that decodes to a turn given as text, kept whole by trimming and not looking like
data, gives that turn's message and is not skipped. -/
theorem lineMessage?_of_turn {line : String} {role : Role} {text : String} (blank : blankLine line = false)
    (turn : (decodeLine line).toOption.bind Entry.turn? = some (role, some (.str text)))
    (kept : contentText (some (.str text)) = text) (nonempty : text ≠ "")
    (plain : looksLikeDocument text = false) :
    lineMessage? line = some ⟨role, text⟩ ∧ skipsLine line = false := by
  obtain ⟨e, decoded, isTurn⟩ := Option.bind_eq_some_iff.1 turn
  refine ⟨?_, by simp [skipsLine, blank, decoded]⟩
  simp [lineMessage?, entryOf?, blank, decoded, Entry.message?, isTurn, kept, nonempty, plain]

/-- A user turn that names its session. -/
def openLine : String := "\x7b\"type\":\"user\",\"sessionId\":\"s-1\",\"message\":\"fix the flaky test\"\x7d"
/-- A line that is a document but no entry. -/
def noiseLine : String := "\"compacting\""
/-- The assistant's reply, given as text. -/
def replyLine : String := "\x7b\"type\":\"assistant\",\"message\":\"rerun it with a fixed seed\"\x7d"
/-- Two turns of a session with a line between them that is no entry. -/
def sessionLog : String := Text.joinLines [openLine, noiseLine, replyLine]

theorem linePieces_sessionLog : Text.linePieces sessionLog = [openLine, noiseLine, replyLine] :=
  Text.linePieces_joinLines (by decide)

/-- The session log reads as its two turns in order, under the session the first names,
with the line between them counted as skipped. -/
theorem parse_reads_log_lines_user_turn :
    (true = true ∨ firstLineIsObject sessionLog = true) ∧
    (∀ p ∈ Text.linePieces sessionLog, p.utf8ByteSize < maxLineBytes) ∧
    (parse sessionLog true).skipped = 1 ∧
    (parse sessionLog true).messages = some [⟨.user, "fix the flaky test"⟩, ⟨.assistant, "rerun it with a fixed seed"⟩] ∧
    (parse sessionLog true).content = "fix the flaky test\nrerun it with a fixed seed" ∧
    (parse sessionLog true).sessionId = "s-1" := by
  have short : ∀ p ∈ Text.linePieces sessionLog, p.utf8ByteSize < maxLineBytes := by
    rw [linePieces_sessionLog]
    decide +kernel
  have read := parse_reads_log_lines sessionLog true (Or.inl rfl) short
  have kept : [openLine, noiseLine, replyLine].map Text.dropReturn = [openLine, noiseLine, replyLine] := by
    decide +kernel
  simp only [linePieces_sessionLog, kept] at read
  obtain ⟨skipped, messages, content, session, -⟩ := read
  have openBlank : blankLine openLine = false := by cbv
  have noiseBlank : blankLine noiseLine = false := by cbv
  have replyBlank : blankLine replyLine = false := by cbv
  obtain ⟨opened, openKept⟩ := @lineMessage?_of_turn openLine .user "fix the flaky test" openBlank (by cbv) (by cbv)
    (by decide) (by decide +kernel)
  obtain ⟨replied, replyKept⟩ := @lineMessage?_of_turn replyLine .assistant "rerun it with a fixed seed" replyBlank
    (by cbv) (by cbv) (by decide) (by decide +kernel)
  have noise : (decodeLine noiseLine).toOption = none := by cbv
  have noiseSkipped : skipsLine noiseLine = true := by simp only [skipsLine, noiseBlank, noise]; rfl
  have noiseMessage : lineMessage? noiseLine = none := by simp only [lineMessage?, entryOf?, noiseBlank, noise]; rfl
  have sessions : ([openLine, noiseLine, replyLine].filterMap entryOf?).map (·.sessionId) = ["s-1", ""] := by
    obtain ⟨e₁, d₁, s₁⟩ := Option.map_eq_some_iff.1
      (show (decodeLine openLine).toOption.map (·.sessionId) = some "s-1" by cbv)
    obtain ⟨e₃, d₃, s₃⟩ := Option.map_eq_some_iff.1
      (show (decodeLine replyLine).toOption.map (·.sessionId) = some "" by cbv)
    simp only [List.filterMap_cons, List.filterMap_nil, entryOf?, openBlank, noiseBlank, replyBlank, d₁, noise, d₃,
      Bool.false_eq_true, if_false, List.map_cons, List.map_nil, s₁, s₃]
  refine ⟨Or.inl rfl, short, ?_, ?_, ?_, ?_⟩
  · simp only [skipped, List.countP_cons, List.countP_nil, openKept, noiseSkipped, replyKept]
    rfl
  · simp only [messages, List.filterMap_cons, List.filterMap_nil, opened, noiseMessage, replied]
  · simp only [content, List.filterMap_cons, List.filterMap_nil, opened, noiseMessage, replied, List.map_cons,
      List.map_nil]
    rfl
  · rw [session, sessions]
    decide
/-! ## A line of ten mebibytes -/

theorem skipsLine_replicate_a (k : Nat) : skipsLine (String.ofList (List.replicate (k + 1) 'a')) = true := by
  have noBlank : Text.isBlank 'a' = false := by decide
  have noSpace : Json.isBlank 'a' = false := by decide
  have trimmed : Text.trimBlank (String.ofList (List.replicate (k + 1) 'a')) =
      String.ofList (List.replicate (k + 1) 'a') := by
    simp [Text.trimBlank, noBlank]
  have notBlank : blankLine (String.ofList (List.replicate (k + 1) 'a')) = false := by
    simp [blankLine, trimmed]
  -- a document cannot start with the letter `a`
  have refused : (Json.parseDocument (String.ofList (List.replicate (k + 1) 'a'))).toOption = none := by
    simp only [Json.parseDocument, Json.parse, String.toList_ofList, List.replicate_succ]
    simp [Json.readValue, Json.skipBlanks, noSpace, Except.toOption]
  cases parsed : Json.parseDocument (String.ofList (List.replicate (k + 1) 'a')) with
  | ok j => simp [parsed, Except.toOption] at refused
  | error e => simp [skipsLine, notBlank, decodeLine, trimmed, parsed, Except.bind, Except.toOption]

theorem parseLog_stopped {raw problem : String} (stopped : splitLines raw = ([], some problem)) :
    (parseLog raw).skipped = 0 ∧ (parseLog raw).error = some ("scanning transcript: " ++ problem) := by
  unfold parseLog
  rw [stopped]
  exact ⟨rfl, rfl⟩

/-- A line of ten mebibytes of the letter `a`. -/
def tenMebibyteLine : String := String.ofList (List.replicate maxLineBytes 'a')

/-- A log whose one line holds ten mebibytes, and not more, and does not decode: the
scanner stops before the line, so it is not counted as skipped, and the reading ends
with an error. -/
theorem long_line_stops_the_log :
    Text.linePieces tenMebibyteLine = [tenMebibyteLine] ∧
    tenMebibyteLine.utf8ByteSize = 10 * 1024 * 1024 ∧
    skipsLine (Text.dropReturn tenMebibyteLine) = true ∧
    (parse tenMebibyteLine true).skipped = 0 ∧
    (parse tenMebibyteLine true).error = some "scanning transcript: bufio.Scanner: token too long" := by
  have chars : tenMebibyteLine.toList = List.replicate maxLineBytes 'a' := String.toList_ofList
  have size : tenMebibyteLine.utf8ByteSize = maxLineBytes := by
    rw [tenMebibyteLine, String.utf8ByteSize_ofList, Text.utf8Len_replicate, show 'a'.utf8Size = 1 from rfl,
      Nat.mul_one]
  have nonempty : tenMebibyteLine ≠ "" := by
    intro empty
    have sizes := congrArg String.utf8ByteSize empty
    rw [size] at sizes
    simp [maxLineBytes] at sizes
  have pieces : Text.linePieces tenMebibyteLine = [tenMebibyteLine] :=
    Text.linePieces_of_not_mem (by simp [chars]) nonempty
  -- the one line does not fit, so the scanner gives no line and an error
  have stopped : splitLines tenMebibyteLine = ([], some Text.tooLong) := by
    simp [splitLines, pieces, size]
  have skipped : skipsLine (Text.dropReturn tenMebibyteLine) = true := by
    unfold Text.dropReturn
    split
    · rw [chars, List.dropLast_replicate, show maxLineBytes - 1 = (maxLineBytes - 2) + 1 by simp [maxLineBytes]]
      exact skipsLine_replicate_a _
    · rw [tenMebibyteLine, show maxLineBytes = (maxLineBytes - 1) + 1 by simp [maxLineBytes]]
      exact skipsLine_replicate_a _
  have read : parse tenMebibyteLine true = parseLog tenMebibyteLine := by
    simp only [parse, Bool.true_or, if_true]
  obtain ⟨none, stops⟩ := parseLog_stopped stopped
  exact ⟨pieces, size, skipped, read ▸ none, read ▸ stops⟩

end Transcript
end AgentMemory
