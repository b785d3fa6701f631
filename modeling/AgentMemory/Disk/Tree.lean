import AgentMemory.Disk.Path
import AgentMemory.Failure

namespace AgentMemory
namespace Disk

/-!
# A tree of files

The memory lives in files under one root directory.  A `Tree` holds every directory
and file by its absolute path; a file holds text, possibly followed by zero bytes (a
file can be made longer than its text).  The tree keeps its entries consistent: the
parent of every entry is a directory in the tree.

Operations fail as file systems do, naming the operation and the path:
`open p: no such file or directory`, `mkdir p: not a directory`,
`read p: is a directory`.  Looking a path up goes through its ancestors: a missing
ancestor makes the path missing, an ancestor that is a file makes it "not a
directory".
-/

/-- The contents of a file: text followed by `zeros` zero bytes. -/
structure FileData where
  text : String
  zeros : Nat := 0
deriving Inhabited, Repr

def FileData.size (d : FileData) : Nat := d.text.utf8ByteSize + d.zeros

/-- The contents read as text, zero bytes included. -/
def FileData.contents (d : FileData) : String :=
  if d.zeros == 0 then d.text else d.text ++ String.ofList (List.replicate d.zeros (Char.ofNat 0))

/-- An entry of the tree. -/
inductive Entry where
  | dir
  | file (data : FileData)
deriving Inhabited, Repr

/-- Why a file operation failed. -/
inductive Reason where
  | notFound
  | notDirectory
  | isDirectory
  | notEmpty
  | alreadyExists
deriving Inhabited, Repr, BEq

/-- The words of a reason. -/
def Reason.text : Reason → String
  | .notFound => "no such file or directory"
  | .notDirectory => "not a directory"
  | .isDirectory => "is a directory"
  | .notEmpty => "directory not empty"
  | .alreadyExists => "file exists"

/-- A failed file operation. -/
structure IoError where
  op : String
  path : String
  reason : Reason
deriving Inhabited, Repr

/-- The message of a failed file operation. -/
def IoError.message (e : IoError) : String := e.op ++ " " ++ e.path ++ ": " ++ e.reason.text

def IoError.toFailure (e : IoError) : Failure := Failure.plain e.message

/-- All directories and files by absolute path. -/
structure Tree where
  entries : List (String × Entry)
deriving Inhabited, Repr

namespace Tree

/-- The prefixes of a path's elements, shortest first, in the path's own form
(absolute or not); the absolute root `/` comes first for an absolute path. -/
def prefixes (p : String) : List String :=
  let parts := elements p
  let lead := if isAbsolute p then "/" else ""
  let inner := (List.range parts.length).map fun i => lead ++ "/".intercalate (parts.take (i + 1))
  if isAbsolute p then "/" :: inner else inner

/-- A tree holding the directories on the way to `root`, and `root` itself. -/
def withRoot (root : String) : Tree :=
  ⟨(prefixes (clean root)).map (fun d => (d, .dir))⟩

def get? (t : Tree) (p : String) : Option Entry :=
  (t.entries.find? (fun e => e.1 == p)).map Prod.snd

def ancestors (p : String) : List String :=
  (prefixes p).dropLast

/-- What stands in the way of reaching a path through its ancestors. -/
def blocked? (t : Tree) (p : String) : Option Reason :=
  (ancestors p).findSome? fun a =>
    match t.get? a with
    | none => some Reason.notFound
    | some (.file _) => some Reason.notDirectory
    | some .dir => none

/-- Look a path up as `op` would: the entry, or why there is none. -/
def look (t : Tree) (op : String) (p : String) : Except IoError Entry :=
  let p := clean p
  match t.blocked? p with
  | some r => .error ⟨op, p, r⟩
  | none =>
    match t.get? p with
    | some e => .ok e
    | none => .error ⟨op, p, .notFound⟩

def stat (t : Tree) (p : String) : Except IoError Entry := t.look "stat" p

/-- Replace or add an entry. -/
def put (t : Tree) (p : String) (e : Entry) : Tree :=
  if t.entries.any (fun x => x.1 == p) then
    ⟨t.entries.map (fun x => if x.1 == p then (p, e) else x)⟩
  else ⟨t.entries ++ [(p, e)]⟩

/-- Remove an entry. -/
def drop (t : Tree) (p : String) : Tree := ⟨t.entries.filter (fun x => x.1 != p)⟩

/-- The names of the entries directly inside a directory, sorted. -/
def childNames (t : Tree) (dir : String) : List String :=
  let pfx := if dir == "/" then "/" else dir ++ "/"
  let names := t.entries.filterMap fun e =>
    if pfx.isPrefixOf e.1 && e.1 != dir then
      let rest := String.ofList (e.1.toList.drop pfx.length)
      if rest.toList.contains '/' || rest.isEmpty then none else some rest
    else none
  names.mergeSort (fun a b => decide (a ≤ b))

/-- Every entry below a directory, with its path. -/
def below (t : Tree) (dir : String) : List (String × Entry) :=
  let pfx := if dir == "/" then "/" else dir ++ "/"
  t.entries.filter (fun e => pfx.isPrefixOf e.1 && e.1 != dir)

/-- Make a directory and the missing ones above it.  A file on the way stops it. -/
def mkdirAll (t : Tree) (p : String) : Except IoError Tree :=
  let p := clean p
  let chain := ancestors p ++ [p]
  let rec go (t : Tree) : List String → Except IoError Tree
    | [] => .ok t
    | d :: rest =>
      match t.get? d with
      | some .dir => go t rest
      | some (.file _) => .error ⟨"mkdir", d, .notDirectory⟩
      | none => go (t.put d .dir) rest
  go t chain

/-- Read a whole file. -/
def readFile (t : Tree) (p : String) : Except IoError FileData :=
  match t.look "open" p with
  | .error e => .error e
  | .ok .dir => .error ⟨"read", clean p, .isDirectory⟩
  | .ok (.file d) => .ok d

/-- Where a new file can be created: its parent is a directory, and the path is not a
directory. -/
def creatable (t : Tree) (p : String) : Except IoError Unit :=
  let p := clean p
  match t.blocked? p with
  | some r => .error ⟨"open", p, r⟩
  | none =>
    match t.get? p with
    | some .dir => .error ⟨"open", p, .isDirectory⟩
    | _ => .ok ()

def writeFile (t : Tree) (p : String) (d : FileData) : Except IoError Tree :=
  match t.creatable p with
  | .error e => .error e
  | .ok () => .ok (t.put (clean p) (.file d))

/-- Create a file if missing and add text to its end. -/
def appendFile (t : Tree) (p : String) (text : String) : Except IoError Tree :=
  match t.creatable p with
  | .error e => .error e
  | .ok () =>
    let p := clean p
    match t.get? p with
    | some (.file d) => .ok (t.put p (.file { d with text := d.contents ++ text, zeros := 0 }))
    | _ => .ok (t.put p (.file ⟨text, 0⟩))

/-- Remove a file or an empty directory. -/
def remove (t : Tree) (p : String) : Except IoError Tree :=
  match t.look "remove" p with
  | .error e => .error e
  | .ok .dir =>
    let p := clean p
    if (t.childNames p).isEmpty then .ok (t.drop p) else .error ⟨"remove", p, .notEmpty⟩
  | .ok (.file _) => .ok (t.drop (clean p))

/-- Remove a path and everything below it; a missing path is no error. -/
def removeAll (t : Tree) (p : String) : Tree :=
  let p := clean p
  let pfx := p ++ "/"
  ⟨t.entries.filter (fun e => e.1 != p && !pfx.isPrefixOf e.1)⟩

/-- Replace a file by writing it in full through a temporary file beside it: the
directory is made first, and a directory in the file's place refuses the rename. -/
def replaceFile (t : Tree) (p : String) (text : String) : Except Failure Tree :=
  let p := clean p
  let dir := parent p
  match t.mkdirAll dir with
  | .error e => .error (Failure.plain ("failed to create directory " ++ dir ++ ": " ++ e.message))
  | .ok t =>
    match t.get? p with
    | some .dir =>
      let tmp := join dir ("." ++ base p ++ ".0.tmp")
      .error (Failure.plain ("failed to rename " ++ p ++ ": rename " ++ tmp ++ " " ++ p ++ ": " ++
        Reason.alreadyExists.text))
    | _ => .ok (t.put p (.file ⟨text, 0⟩))

/-- Paths of files and directories directly inside `dir` whose names match a
wildcard pattern, sorted. -/
def glob (t : Tree) (dir : String) (pattern : String) : List String :=
  match t.get? (clean dir) with
  | some .dir => ((t.childNames (clean dir)).filter (wildcardMatch pattern)).map (join (clean dir))
  | _ => []

end Tree
end Disk
end AgentMemory
