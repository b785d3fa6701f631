import AgentMemory.Storage.Document

namespace AgentMemory
namespace Storage

/-!
# Many processes updating one document

Any number of processes may update the same document at once, each with its own change.
A process runs `update` as a sequence of steps, each atomic: it takes the lock, reads the
document, runs its change, and writes the document back, the write replacing the file
whole.  It releases the lock as it finishes.  A process waiting for the lock may give up
when its timeout runs out.  Any process may take its next step at any time, so a run is
any interleaving of the processes' steps; the lock gives mutual exclusion, so it is taken
only while no process holds it.

Making the document's directory and its lock file is part of taking the lock here.  A
process makes them just before it waits for the lock; while any process holds the lock
both stand already, so making them again changes nothing.
-/

/-- Taking the lock of a document: what `withLock` does before the guarded action.  It
makes the document's directory and its lock file, and fails if someone else holds the
lock. -/
def takeLock (path : String) : Act Unit := withLock path (pure ())

/-- One process's change of the document: the reader of the document, the value of a
missing or empty one, the encoding of a value to write (or why it has none), and the
change, which is told whether the document existed and says whether to write. -/
structure Call (σ : Type) where
  read : Json → Except Failure σ
  empty : σ
  encode : σ → Except String Json
  change : Bool → σ → Except Failure (Bool × σ)

/-- Where a process is in its update. -/
inductive Phase (σ : Type) where
  /-- It has not taken the lock. -/
  | waiting
  /-- It holds the lock and has read nothing yet. -/
  | holding
  /-- It holds the lock and has read the document (the value of a missing one if there
  was none). -/
  | loaded (existed : Bool) (doc : σ)
  /-- It holds the lock, and its change asked to write this value. -/
  | changed (doc : σ)
  /-- It has finished with this result; it holds no lock. -/
  | finished (result : Except Failure σ)

variable {σ : Type}

/-- Whether a process in this phase holds the lock. -/
def Phase.holds : Phase σ → Bool
  | .holding | .loaded _ _ | .changed _ => true
  | .waiting | .finished _ => false

namespace Call

/-- The whole update, run by a process alone. -/
def run (c : Call σ) (path : String) : Act σ := update path c.read c.empty c.encode c.change

/-- The step a process holding the lock takes next, from its phase and the world, and
where it leaves both: it reads the document, runs its change, or writes. -/
def next (c : Call σ) (path : String) (w : World) : Phase σ → Phase σ × World
  | .holding =>
    match (readJson path c.read).run.run w with
    | (.ok loaded, w') => (.loaded loaded.isSome (loaded.getD c.empty), w')
    | (.error e, w') => (.finished (.error e), w')
  | .loaded existed doc =>
    match c.change existed doc with
    | .ok (true, doc') => (.changed doc', w)
    | .ok (false, doc') => (.finished (.ok doc'), w)
    | .error e => (.finished (.error e), w)
  | .changed doc =>
    match (writeEncoded path (c.encode doc)).run.run w with
    | (.ok (), w') => (.finished (.ok doc), w')
    | (.error e, w') => (.finished (.error e), w')
  | .waiting => (.waiting, w)
  | .finished r => (.finished r, w)

end Call

/-- Processes updating one document: the world they share, the process holding the
document's lock, and where each process is in its update. -/
structure System (σ : Type) where
  world : World
  holder : Option Nat
  phase : Nat → Phase σ

namespace System

def start (w : World) : System σ := { world := w, holder := none, phase := fun _ => .waiting }

def setPhase (s : System σ) (p : Nat) (ph : Phase σ) : System σ :=
  { s with phase := fun q => if q = p then ph else s.phase q }

/-- The state after process `p` tried to take the lock, which no process held, with what
taking it gave: the process holds the lock, or it has failed. -/
def took (s : System σ) (p : Nat) : Except Failure Unit × World → System σ
  | (.ok (), w) => { s.setPhase p .holding with world := w, holder := some p }
  | (.error e, w) => { s.setPhase p (.finished (.error e)) with world := w }

/-- The state after the holder `p` took its next step.  A process that finishes
releases the lock. -/
def advanced (s : System σ) (calls : Nat → Call σ) (path : String) (p : Nat) : System σ :=
  let (ph, w) := (calls p).next path s.world (s.phase p)
  { s.setPhase p ph with world := w, holder := if ph.holds then some p else none }

end System

/-- One step of one process updating the document at `path`, process `p` running the
change `calls p`. -/
inductive Step (path : String) (calls : Nat → Call σ) : System σ → System σ → Prop
  /-- A waiting process tries to take the lock, which no process holds. -/
  | take {s : System σ} {p : Nat} (waiting : s.phase p = .waiting) (free : s.holder = none) :
      Step path calls s (s.took p ((takeLock path).run.run s.world))
  /-- A waiting process gives up, its timeout run out. -/
  | giveUp {s : System σ} {p : Nat} (waiting : s.phase p = .waiting) :
      Step path calls s (s.setPhase p (.finished (.error (lockTimeoutFailure path))))
  /-- The process holding the lock takes its next step. -/
  | advance {s : System σ} {p : Nat} (holds : s.holder = some p) :
      Step path calls s (s.advanced calls path p)

/-- The states that processes updating the document at `path` reach, in any
interleaving of their steps, from a world where none has started. -/
inductive Reachable (path : String) (calls : Nat → Call σ) (w : World) : System σ → Prop
  | start : Reachable path calls w (System.start w)
  | step {s t : System σ} : Reachable path calls w s → Step path calls s t → Reachable path calls w t

end Storage
end AgentMemory
