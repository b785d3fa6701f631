namespace AgentMemory

/-!
# Failures

Every operation of the memory that can go wrong answers a `Failure`: a cause, which
callers may test, and a message.  An operation that passes a failure on from a step
below it puts the name of its own task in front of the message (`writing fact:
loading facts: ...`) and keeps the cause, so that the cause is always that of the
first thing that went wrong.
-/

/-- What went wrong, as far as callers distinguish it. -/
inductive Cause where
  | emptyTrigger
  | emptyBehavior
  | invalidConfidence
  | invalidDecayRate
  | emptyContent
  | invalidCategory
  | invalidImportance
  | invalidTtl
  | invalidEpisodeId
  | emptyTask
  | invalidAgent
  | emptyReasoning
  | unknownMemoryType
  | unknownHook
  | lockTimeout
  | documentTooLarge
  /-- A text that is not a well-formed document. -/
  | malformedDocument
  /-- A document value of the wrong kind for what it is read into. -/
  | mismatchedValue
  /-- A document value of the wrong kind, found by the reader of one entry of a
  larger document; unlike a plain mismatch it stops the reading at once. -/
  | mismatchedEntry
  /-- A timestamp that does not read as a time. -/
  | malformedTime
  | other
deriving Inhabited, Repr, BEq, DecidableEq, Ord

/-- A cause and its message. -/
structure Failure where
  cause : Cause
  message : String
deriving Inhabited, Repr, DecidableEq

namespace Failure

def plain (message : String) : Failure := ⟨.other, message⟩

/-- Put the name of a task in front of the message, keeping the cause. -/
def within (task : String) (f : Failure) : Failure :=
  { f with message := task ++ ": " ++ f.message }

/-- A failure read from a document that did not fit, rather than a broken rule. -/
def isMismatch (f : Failure) : Bool := f.cause == .mismatchedValue

/-- The failure as reported by a reader of its own: a mismatch stops the reading of
the enclosing document. -/
def stopping (f : Failure) : Failure :=
  if f.isMismatch then { f with cause := .mismatchedEntry } else f

/-- Several failures reported as one: their messages one a line after a heading.  The
cause is the first of theirs in the order of causes, so that a caller testing for a
cause finds it whichever failure carries it. -/
def joined (heading : String) (fs : List Failure) : Failure :=
  let cause := fs.foldl (fun (c : Cause) f => if compare f.cause c == .lt then f.cause else c) .other
  ⟨cause, heading ++ "\n".intercalate (fs.map (·.message))⟩

end Failure

/-- The stable code of a cause, as reported to callers of the program's interface. -/
def Cause.code : Cause → String
  | .emptyTrigger => "empty_trigger"
  | .emptyBehavior => "empty_behavior"
  | .invalidConfidence => "invalid_confidence"
  | .invalidDecayRate => "invalid_decay_rate"
  | .emptyContent => "empty_content"
  | .invalidCategory => "invalid_category"
  | .invalidImportance => "invalid_importance"
  | .invalidTtl => "invalid_ttl"
  | .invalidEpisodeId => "invalid_episode_id"
  | .emptyTask => "empty_task"
  | .invalidAgent => "invalid_agent"
  | .emptyReasoning => "empty_reasoning"
  | .unknownMemoryType => "unknown_memory_type"
  | .unknownHook => "unknown_hook"
  | .lockTimeout => "lock_timeout"
  | .documentTooLarge => "document_too_large"
  | .malformedDocument => "json_syntax"
  | .mismatchedValue => "json_type"
  | .mismatchedEntry => "json_type"
  | .malformedTime => "time_syntax"
  | .other => "error"

end AgentMemory
