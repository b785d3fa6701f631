import Mathlib.Data.List.Forall2
import AgentMemory.Logging.Logger

namespace AgentMemory
namespace Logging

/-!
# What a redacting logger writes

Before a logger writes an entry, its redactor rewrites the message and every field, the
static fields and those bound to the channel included.  `Shows` says field by field what
the written form is: a field whose name is sensitive, in any case, is written as
`[REDACTED]` when its value is text, bytes, an error, binary data, a reflected value, a
list or an object; with scrubbing on, the text of any other field is written as the
scrubber leaves it; everything else is written as it is.

That last case takes in numbers, truth values, lengths of time and times under a
sensitive name: they are written in the clear.  The redactor hides what reaches the
encoder's text, byte, binary, reflected, array and object methods, and the other value
kinds never reach them.

All of this rests on how the logging library hands values to the encoder, which
`Library.Lawful` names: texts, byte strings and errors reach its string methods, binary
data, reflected values, lists and objects the methods the redactor overrides for them, and
the other kinds methods it does not override.  The package's library is lawful.

Main statement: `Logger.write_redacts`, for a logger opened with redaction on over a lawful
library; the field that shows a number under a sensitive name is
`sensitive_number_written_in_clear`.
-/

/-- A field name is sensitive for redaction settings when one of the settings' names is
the same text in lower case. -/
def Redaction.sensitive (red : Redaction) (key : String) : Prop :=
  ∃ k ∈ red.fields, Text.lower k = Text.lower key

/-- The value kinds that a sensitive name hides. -/
def Value.hideable : Value → Bool
  | .int _ | .float _ | .bool _ | .duration _ | .instant _ => false
  | _ => true

/-- The text a value carries: texts, bytes read as text, and error messages. -/
def Value.text? : Value → Option String
  | .text s | .bytes s | .failure s => some s
  | _ => none

/-- A text as the settings write it: scrubbed when scrubbing is on. -/
def Redaction.scrubText (red : Redaction) (s : String) : String :=
  if red.scrub then (Secrets.Scrubber.standard.scrub s).text else s

/-- How a field is written under redaction settings. -/
inductive Shows (red : Redaction) : Field → Field → Prop
  /-- A sensitive name hides a value of a hideable kind. -/
  | hidden {f : Field} : red.sensitive f.key → f.value.hideable = true →
      Shows red f ⟨f.key, .text redacted⟩
  /-- A number, truth value, length of time or time is written as it is, whatever its
  name. -/
  | clear {f : Field} : f.value.hideable = false → Shows red f f
  /-- Any other name writes its text as scrubbing leaves it. -/
  | scrubbed {f : Field} {s : String} : ¬red.sensitive f.key → f.value.text? = some s →
      Shows red f ⟨f.key, .text (red.scrubText s)⟩
  /-- Any other name writes binary data, reflected values, lists and objects as they
  are. -/
  | plain {f : Field} : ¬red.sensitive f.key → f.value.hideable = true → f.value.text? = none →
      Shows red f f

/-- How a logging library must hand values to the encoder for the redactor to work as
`Shows` says. -/
structure Library.Lawful (lib : Library) : Prop where
  texts : ∀ v s, v.text? = some s → lib.reach v = .text s
  composites : ∀ v, v.hideable = true → v.text? = none → lib.reach v = .composite
  others : ∀ v, v.hideable = false → lib.reach v = .other

theorem Library.standard_lawful : Library.standard.Lawful where
  texts v s text := by cases v <;> simp_all [Value.text?, Library.standard, reachOf]
  composites v kind text := by cases v <;> simp_all [Value.text?, Value.hideable, Library.standard, reachOf]
  others v kind := by cases v <;> simp_all [Value.hideable, Library.standard, reachOf]

section
variable {red : Redaction} (on : red.enabled = true)
include on

theorem lower_mem_keys_iff (key : String) :
    Text.lower key ∈ (Redactor.ofSettings red).keys ↔ red.sensitive key := by
  simp [Redactor.ofSettings, on, Redaction.sensitive]

theorem ofSettings_text (s : String) : (Redactor.ofSettings red).text s = red.scrubText s := by
  by_cases scrub : red.scrub = true <;>
    simp [Redactor.ofSettings, Redactor.text, Redaction.scrubText, on, scrub]

/-- The redactor of settings with redaction on, over a lawful library, shows every field as
`Shows` says. -/
theorem Redactor.shows_field {lib : Library} (lawful : lib.Lawful) (f : Field) :
    Shows red f ((Redactor.ofSettings red).field lib.reach f) := by
  obtain ⟨key, value⟩ := f
  -- the kind of the value, then the name, decide which case of `Shows` applies
  cases kind : value.hideable with
  | false =>
    have kept : (Redactor.ofSettings red).field lib.reach ⟨key, value⟩ = ⟨key, value⟩ := by
      simp [Redactor.field, lawful.others value kind]
    rw [kept]
    exact .clear kind
  | true =>
    by_cases hide : red.sensitive key
    · have hidden : (Redactor.ofSettings red).field lib.reach ⟨key, value⟩ = ⟨key, .text redacted⟩ := by
        cases text : value.text? with
        | some s => simp [Redactor.field, lawful.texts value s text, lower_mem_keys_iff on, hide]
        | none => simp [Redactor.field, lawful.composites value kind text, lower_mem_keys_iff on, hide]
      rw [hidden]
      exact .hidden hide kind
    · cases text : value.text? with
      | some s =>
        have scrubbed : (Redactor.ofSettings red).field lib.reach ⟨key, value⟩ = ⟨key, .text (red.scrubText s)⟩ := by
          simp [Redactor.field, lawful.texts value s text, lower_mem_keys_iff on, hide, ofSettings_text on]
        rw [scrubbed]
        exact .scrubbed hide text
      | none =>
        have kept : (Redactor.ofSettings red).field lib.reach ⟨key, value⟩ = ⟨key, value⟩ := by
          simp [Redactor.field, lawful.composites value kind text, lower_mem_keys_iff on, hide]
        rw [kept]
        exact .plain hide kind text

end

theorem Logger.sample_outputs (l : Logger) (w : Written) (level : Level) (message : String) :
    (l.sample w level message).2.stderr = w.stderr ∧ (l.sample w level message).2.file = w.file := by
  unfold Logger.sample
  split <;> simp

/-- The lines an entry adds: none when the entry is not written, else one line per output
holding the message and the fields as the redactor shows them. -/
theorem Logger.write_adds (l : Logger) (w : Written) (e : Entry) (stamp : Stamp) :
    let message := l.redactor.text e.message
    let fields := (l.staticFields ++ e.fields).map (l.redactor.field l.library.reach)
    let lay : Layout := { name := e.logger, caller := l.options.caller,
                          stack := if l.carriesStack e.level then some stamp.stack else none }
    (∃ errs, (l.write w e stamp).stderr = w.stderr ++ errs ∧
      ∀ line ∈ errs, line = l.library.json e.level message fields lay stamp ∨
        line = l.library.console e.level message fields lay stamp) ∧
    (∃ lines, (l.write w e stamp).file = w.file ++ lines ∧
      ∀ line ∈ lines, line = l.library.json e.level message fields lay stamp) := by
  intro message fields lay
  unfold Logger.write
  split
  · exact ⟨⟨[], by simp, by simp⟩, ⟨[], by simp, by simp⟩⟩
  · obtain ⟨sameErr, sameFile⟩ := l.sample_outputs w e.level e.message
    rcases sampled : l.sample w e.level e.message with ⟨keep, w'⟩
    rw [sampled] at sameErr sameFile
    dsimp only at sameErr sameFile ⊢
    cases keep with
    | false => exact ⟨⟨[], by simp [sameErr], by simp⟩, ⟨[], by simp [sameFile], by simp⟩⟩
    | true =>
      unfold Logger.record
      dsimp only
      constructor
      · cases toStderr : l.options.stderr
        · refine ⟨[], ?_, by simp⟩
          cases l.options.file.isEmpty <;> simp [sameErr]
        · refine ⟨[if l.options.format == "console" then l.library.console e.level message fields lay stamp
            else l.library.json e.level message fields lay stamp], ?_, ?_⟩
          · cases l.options.file.isEmpty <;> simp [sameErr, message, fields, lay]
          · intro line mem
            simp only [List.mem_singleton] at mem
            split at mem <;> simp [mem]
      · cases toFile : l.options.file.isEmpty
        · refine ⟨[l.library.json e.level message fields lay stamp], ?_, by simp⟩
          cases l.options.stderr <;> simp [sameFile, message, fields, lay]
        · exact ⟨[], by cases l.options.stderr <;> simp [sameFile], by simp⟩

/-- An opened logger keeps its set-up and library and redacts as its redaction settings
say. -/
theorem Logger.open_redactor {lib : Library} {o : Options} {exporter : Bool} {tree tree' : Disk.Tree} {l : Logger}
    (opened : Logger.openWith lib o exporter tree = .ok (l, tree')) :
    l.options = o ∧ l.redactor = Redactor.ofSettings o.redaction ∧ l.library = lib := by
  unfold Logger.openWith at opened
  simp only [bind, Except.bind, pure, Except.pure, throw, throwThe, MonadExceptOf.throw] at opened
  -- every branch that succeeds returns the same logger; only the tree differs
  repeat' split at opened
  all_goals cases opened
  all_goals exact ⟨rfl, rfl, rfl⟩

/-- A logger opened with redaction on, over a lawful library, adds for an entry only lines
that the library's encoders write from the message as scrubbing leaves it and the static
fields and the entry's fields, in order, each written as `Shows` says. -/
theorem Logger.write_redacts {lib : Library} (lawful : lib.Lawful) {o : Options} {exporter : Bool}
    {tree tree' : Disk.Tree} {l : Logger} (opened : Logger.openWith lib o exporter tree = .ok (l, tree'))
    (on : o.redaction.enabled = true) (w : Written) (e : Entry) (stamp : Stamp) :
    ∃ fields lay, List.Forall₂ (Shows o.redaction) (l.staticFields ++ e.fields) fields ∧
      let message := o.redaction.scrubText e.message
      (∃ errs, (l.write w e stamp).stderr = w.stderr ++ errs ∧
        ∀ line ∈ errs, line = lib.json e.level message fields lay stamp ∨
          line = lib.console e.level message fields lay stamp) ∧
      (∃ lines, (l.write w e stamp).file = w.file ++ lines ∧
        ∀ line ∈ lines, line = lib.json e.level message fields lay stamp) := by
  obtain ⟨-, redactor, library⟩ := Logger.open_redactor opened
  have message : l.redactor.text e.message = o.redaction.scrubText e.message := by
    rw [redactor, ofSettings_text on]
  have shown : List.Forall₂ (Shows o.redaction) (l.staticFields ++ e.fields)
      ((l.staticFields ++ e.fields).map (l.redactor.field lib.reach)) := by
    rw [List.forall₂_map_right_iff, redactor]
    exact List.forall₂_same.2 fun f _ => Redactor.shows_field on lawful f
  have adds := l.write_adds w e stamp
  rw [message, library] at adds
  exact ⟨_, _, shown, adds⟩

/-- Set-up that hides the field `pin` and does not scrub. -/
def pinOptions : Options := { redaction := { fields := ["pin"], scrub := false } }

/-- An entry with the number 1234 under the name `pin`. -/
def pinEntry : Entry := { level := .info, message := "m", fields := [⟨"pin", .int 1234⟩] }

theorem write_redacts_pin :
    ∃ l tree', Logger.open pinOptions false ⟨[]⟩ = .ok (l, tree') ∧
      pinOptions.redaction.enabled = true ∧
      ∃ fields lay, List.Forall₂ (Shows pinOptions.redaction) (l.staticFields ++ pinEntry.fields) fields ∧
        let message := pinOptions.redaction.scrubText pinEntry.message
        (∃ errs, (l.write {} pinEntry ⟨"t", "c", "s"⟩).stderr = ({} : Written).stderr ++ errs ∧
          ∀ line ∈ errs, line = jsonLine pinEntry.level message fields lay ⟨"t", "c", "s"⟩ ∨
            line = consoleLine pinEntry.level message fields lay ⟨"t", "c", "s"⟩) ∧
        (∃ lines, (l.write {} pinEntry ⟨"t", "c", "s"⟩).file = ({} : Written).file ++ lines ∧
          ∀ line ∈ lines, line = jsonLine pinEntry.level message fields lay ⟨"t", "c", "s"⟩) := by
  have opened : Logger.open pinOptions false ⟨[]⟩ =
      .ok ({ options := pinOptions, redactor := Redactor.ofSettings pinOptions.redaction }, ⟨[]⟩) := rfl
  exact ⟨_, _, opened, rfl,
    Logger.write_redacts Library.standard_lawful opened rfl {} pinEntry ⟨"t", "c", "s"⟩⟩

/-- A number under a sensitive name is written as it is: the logger hides `pin`, and the
line it writes for an entry with `pin` set to 1234 holds `"pin":1234`. -/
theorem sensitive_number_written_in_clear :
    pinOptions.redaction.enabled = true ∧ pinOptions.redaction.sensitive "pin" ∧
    (Logger.open pinOptions false ⟨[]⟩).map (fun opened =>
        (opened.1.write {} pinEntry ⟨"t", "c", "s"⟩).stderr) =
      .ok ["\x7b\"level\":\"info\",\"ts\":\"t\",\"caller\":\"c\",\"msg\":\"m\",\"service\":\"ralph-memory\",\"pin\":1234\x7d"] :=
  ⟨rfl, ⟨"pin", by simp [pinOptions], rfl⟩, by decide +kernel⟩

end Logging
end AgentMemory
