import AgentMemory.CommandLine.Places
import AgentMemory.CommandLine.Memory
import AgentMemory.CommandLine.Reflect
import Std.Time.DateTime.Timestamp

namespace AgentMemory
namespace CommandLine

/-!
# The command line

One executable carries both programs: a first argument `ralph-reflect` runs the
reflection program, `ralph-memory` or anything else the memory program, so that a
link under either name can pass its own name on.  The run reads the places of
`CommandLine.places` from the disk, the variables of `CommandLine.variableNames` from the
environment and, for `hook`, the event from standard input; it writes back what it
changed, prints what the program printed and exits with its code.  A watched
directory is not followed for new files here.
-/

/-- The program a command line asks for, and its own arguments. -/
def toolFor (args : List String) : Tool × List String :=
  match args with
  | "ralph-reflect" :: rest => (reflectTool, rest)
  | "ralph-memory" :: rest => (memoryTool, rest)
  | _ => (memoryTool, args)

end CommandLine
end AgentMemory

open AgentMemory

/-- Add a file of the disk to a tree when it can be read. -/
def loadInto (t : Disk.Tree) (p : String) : IO Disk.Tree := do
  match ← (IO.FS.readFile p).toBaseIO with
  | .ok text => return ((t.mkdirAll (Disk.parent p)).bind fun t => t.writeFile p ⟨text, 0⟩).toOption.getD t
  | .error _ => return t

/-- Carry out one change of a run on the disk. -/
def applyChange (change : String × Option String) : IO Unit := do
  match change with
  | (p, some text) =>
    IO.FS.createDirAll (Disk.parent p)
    IO.FS.writeFile p text
  | (p, none) =>
    match ← (IO.FS.removeFile p).toBaseIO with
    | _ => pure ()

/-- Run one of the programs on the disk. -/
def main (args : List String) : IO UInt32 := do
  let (tool, args) := CommandLine.toolFor args
  let cwd := (← IO.getEnv "PWD").getD "/"
  let env ← CommandLine.variableNames.filterMapM fun n => do return (← IO.getEnv n).map fun v => (n, v)
  let root := CommandLine.rootOf args env cwd
  let tree ← (CommandLine.places root args cwd).foldlM loadInto (Disk.Tree.withRoot cwd)
  let tree ← (CommandLine.bodies root tree).foldlM loadInto tree
  let stdin ← if args.contains "hook" then (← IO.getStdin).readToEnd else pure ""
  let now ← Std.Time.Timestamp.now
  let world : Storage.World := { tree := tree, cwd := cwd, now := ⟨now.toNanosecondsSinceUnixEpoch.val, 0⟩ }
  let (r, w) := ((tool.launch { args := args, stdin := stdin, env := env }).run).run world
  let out : CommandLine.Outcome := match r with
    | .ok o => o
    | .error e => { code := 1, stderr := "Error: " ++ e.message ++ "\n" }
  for change in CommandLine.changes tree w.tree do
    applyChange change
  IO.print out.stdout
  IO.eprint out.stderr
  return out.code.toUInt32
