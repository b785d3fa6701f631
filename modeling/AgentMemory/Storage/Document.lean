import AgentMemory.Storage.World
import AgentMemory.Json.Decode
import AgentMemory.Json.Write

namespace AgentMemory
namespace Storage

/-!
# Locked documents

Each store keeps its state in JSON documents.  A change to a document is a cycle
under the document's lock (the file `<path>.lock`): reload the document, change
it, and replace it whole.  A lock held by someone else is waited for until the
configured timeout, and here that means the operation fails with a lock timeout.

Reading a document: a missing file, or an empty one, is no document; a file over
64 MiB is refused; a text that does not read as the document fails with
`failed to decode <path>: ...`.  Writing a document: it is written indented by two
blanks with a final line feed, its directory made first; a directory standing in
the document's place refuses the replacement.
-/

def maxDocumentBytes : Nat := 64 * 1024 * 1024

def lockPath (path : String) : String := path ++ ".lock"

/-- The failure of waiting for a document's lock until the timeout. -/
def lockTimeoutFailure (path : String) : Failure :=
  ⟨.lockTimeout, "timed out waiting for file lock: " ++ path⟩

/-- Run an operation holding the lock of a document.  The document's directory is
made first. -/
def withLock {α : Type} (path : String) (body : Act α) : Act α := do
  let dir := Disk.parent path
  match (← files).mkdirAll dir with
  | .error e => fail (Failure.plain ("failed to create directory for " ++ path ++ ": " ++ e.message))
  | .ok t => setFiles t
  let lock := lockPath path
  let t ← files
  match t.get? lock with
  | some .dir =>
    fail (Failure.plain ("failed to lock " ++ path ++ ": open " ++ lock ++ ": is a directory"))
  | some (.file _) => pure ()
  | none => setFiles (t.put lock (.file ⟨"", 0⟩))
  if (← get).held.contains path then
    fail (lockTimeoutFailure path)
  body

/-- What reading a file gives: an error that is not "missing", a missing file, or
its text.  Files over the document limit are refused. -/
def fetch (t : Disk.Tree) (path : String) : Except Failure (Option String) :=
  match t.stat path with
  | .error e =>
    match e.reason with
    | .notFound => .ok none
    | _ => .error e.toFailure
  | .ok .dir => .error (Failure.plain ("read " ++ Disk.clean path ++ ": is a directory"))
  | .ok (.file d) =>
    if d.size > maxDocumentBytes then
      .error ⟨.documentTooLarge, "document too large: " ++ path ++ " is " ++ toString d.size ++ " bytes"⟩
    else .ok (some d.contents)

/-- Read a file's text, `none` when it is missing. -/
def readText (path : String) : Act (Option String) := do
  match fetch (← files) path with
  | .ok r => return r
  | .error e => fail e

/-- Read a document with a reader; `none` when the file is missing or empty. -/
def readJson {σ : Type} (path : String) (read : Json → Except Failure σ) : Act (Option σ) := do
  match ← readText path with
  | none => return none
  | some text =>
    if text.isEmpty then return none
    match (Json.parseDocument text).bind read with
    | .ok v => return some v
    | .error e => fail (e.within ("failed to decode " ++ path))

/-- The text a document is written as: indented by two blanks, with a final line
feed. -/
def documentText (j : Json) : String := Json.indented j ++ "\n"

def writeText (path : String) (text : String) : Act Unit := do
  match (← files).replaceFile path text with
  | .ok t => setFiles t
  | .error e => fail e

def writeJson (path : String) (j : Json) : Act Unit := writeText path (documentText j)

/-- Why a value of the named type could not be encoded, given what its own encoder said. -/
def marshalFailureText (type problem : String) : String :=
  "json: error calling MarshalJSON for type " ++ type ++ ": " ++ problem

/-- Why an instant with no written form could not be encoded as a document value. -/
def instantEncodingText (problem : String) : String := marshalFailureText "time.Time" problem

/-- The failure of encoding a document that holds an instant with no written form. -/
def encodeFailure (path : String) (problem : String) : Failure :=
  Failure.plain ("failed to encode " ++ path ++ ": " ++ instantEncodingText problem)

/-- Replace a document holding the instants `times`, in the order they are written: the
first of them with no written form refuses the whole document, and nothing is written. -/
def writeJsonTimed (path : String) (times : List Clock.Instant) (j : Json) : Act Unit :=
  match times.findSome? Clock.Instant.encodingProblem? with
  | some problem => fail (encodeFailure path problem)
  | none => writeJson path j

/-- Replace a document given by its encoding, or the reason it could not be encoded: a
document that could not be encoded is refused, and nothing is written. -/
def writeEncoded (path : String) : Except String Json → Act Unit
  | .ok j => writeJson path j
  | .error why => fail (Failure.plain ("failed to encode " ++ path ++ ": " ++ why))

/-- What a locked change does once the document is read: run the change on it (told
whether the document existed), and write back the value it returns when it says so. -/
def applyChange {σ : Type} (path : String) (encode : σ → Except String Json)
    (change : Bool → σ → Except Failure (Bool × σ)) (existed : Bool) (doc : σ) : Act σ :=
  match change existed doc with
  | .error e => fail e
  | .ok (changed, doc) => do
    if changed then writeEncoded path (encode doc)
    return doc

/-- A locked change of a document: read it (its reader gives the value of a missing
document), change it, and write it back when the change says so.  A failing change
writes nothing, and neither does a value that cannot be encoded. -/
def update {σ : Type} (path : String) (read : Json → Except Failure σ) (empty : σ)
    (encode : σ → Except String Json) (change : Bool → σ → Except Failure (Bool × σ)) : Act σ :=
  withLock path do
    let loaded ← readJson path read
    applyChange path encode change loaded.isSome (loaded.getD empty)

end Storage
end AgentMemory
