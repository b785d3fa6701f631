import AgentMemory.CommandLine.Line
import AgentMemory.CommandLine.Setup

namespace AgentMemory
namespace CommandLine

open Storage

/-!
# Running a program

A program run takes its command line, its standard input, its environment and the
files that appear in a watched directory while it runs, and gives back its exit
code and the text it wrote to standard output and standard error.

The run follows the command line's request: a text to show is written to standard
output with exit code 0; a refused command line writes `Error: ` and the message
(and perhaps a hint) to standard error with exit code 1.  A command to run first
starts the program; then the required flags are checked and the command runs.  What
the command printed stays printed when it fails.  Standard error holds, in order,
the log lines written while the program ran, the `Error: ` line of a failure and
the measurement lines printed when the program stops.
-/

/-- How a program is run. -/
structure Invocation where
  args : List String
  stdin : String := ""
  env : Config.Environment := []
  /-- The caller and stack texts log entries carry. -/
  caller : String := ""
  stack : String := ""
  /-- Files written, in order, into a watched directory while the program runs:
  their names below it and their contents. -/
  arrivals : List (String × String) := []
deriving Inhabited

/-- What a run gives back. -/
structure Outcome where
  code : Nat
  stdout : String := ""
  stderr : String := ""
deriving Inhabited

/-- What a command printed, and the message it failed with. -/
structure Reply where
  out : String := ""
  problem : Option String := none
deriving Inhabited

def Reply.result (j : Json) : Reply := { out := printed j }

/-- The reply to an operation on one record: whether it was found, and a failure
when it was not. -/
def Reply.found (id : String) (ok : Bool) : Reply :=
  { out := printed (.obj [("success", .bool ok), ("id", .str id)]),
    problem := if ok then none else some (id ++ ": not found") }

/-- A program with the way it starts and runs its commands. -/
structure Tool where
  program : Program
  /-- How the program starts for a command and its flags. -/
  options : Command → Given → Options
  /-- Run a command once the program has started. -/
  run : Invocation → Env → Command → Given → List String → Act Reply

/-- Run a command, turning a failure into the reply's problem. -/
def guarded (a : Act Reply) : Act Reply := do
  match ← attempt a with
  | .ok r => return r
  | .error e => return { problem := some e.message }

/-- The log lines the running program has written to standard error. -/
def loggedLines : Act String := do
  match (← get).sink with
  | some s => return String.join (s.written.stderr.map (· ++ "\n"))
  | none => return ""

/-- Run a program.  The program starts with no logger open and an empty meter. -/
def Tool.launch (t : Tool) (inv : Invocation) : Act Outcome := do
  modify fun w => { w with sink := none, meter := {} }
  match t.program.request inv.args with
  | .show text => return { code := 0, stdout := text }
  | .refuse m hint =>
    return { code := 1, stderr := "Error: " ++ m ++ "\n" ++ (hint.map (· ++ "\n")).getD "" }
  | .run c given args =>
    match ← attempt (start (t.options c given) inv.env inv.caller inv.stack) with
    | .error e => return { code := 1, stderr := (← loggedLines) ++ "Error: " ++ e.message ++ "\n" }
    | .ok env =>
      let reply : Reply ← match Program.missingFlags c given with
        | some m => pure { problem := some m }
        | none =>
          if c.path == ["help"] then pure { out := t.program.helpTopic args }
          else if c.path.head? == some "completion" then pure ({} : Reply)
          else guarded (t.run inv env c given args)
      let logged ← loggedLines
      let measured ← env.stop
      let failure := match reply.problem with
        | some m => "Error: " ++ m ++ "\n"
        | none => ""
      return { code := if reply.problem.isSome then 1 else 0, stdout := reply.out,
               stderr := logged ++ failure ++ measured }

/-- The global flags both programs accept. -/
def globalFlags : List Flag :=
  [{ name := "root", kind := .text, usage := "storage root directory (default $RALPH_DIR or ~/.ralph)" },
   { name := "config", kind := .text, usage := "config document (default <root>/config/memory-config.json)" },
   { name := "metrics", kind := .toggle, usage := "print collected metrics to stderr on exit" }]

def globalOptions (given : Given) : Options :=
  { root := given.text "root", configPath := given.text "config", metrics := given.toggle "metrics" }

/-- The name of the working directory, the project a command works for by default. -/
def currentProject : Act String := do
  return Disk.base (← get).cwd

end CommandLine
end AgentMemory
