import AgentMemory.CommandLine.Flag
import AgentMemory.Text.Case

namespace AgentMemory
namespace CommandLine

/-!
# Commands and their lines

A program is a tree of commands written as a flat list: each command has a path of
names below the program (the program itself has the empty path), a usage line, a
short and a long description, a rule for its positional arguments and its flags.
The program's persistent flags are accepted by every command.  Two commands come
with every program: `help`, which shows the help of any command, and `completion`,
which lists the shells completion scripts are written for.

Reading a command line goes in the order the command line has always used:

1. The command is found by walking the words that are not flags, skipping the
   value after a flag that takes one.  A word that names no command below the
   program is refused there (`unknown command "x" for "prog"`, followed by close
   names and a hint to ask for help); below a command that has subcommands an
   unknown word is left as an argument.  Flags for help and the version are not
   known yet at this stage, so `-h` or `-v` there takes the next word as its value.
2. The command's flags are read, with its persistent, help and (for the program)
   version flags.
3. `--help` shows the command's help; `--version` on the program shows its version;
   a command that does nothing by itself shows its help.
4. The positional arguments are checked against the command's rule.
5. Only then does the program start its work: set-up, the check of required flags,
   and the command itself.
-/

/-- How many positional arguments a command takes. -/
inductive Arity where
  /-- Any; an unknown word below the program is still refused as a command. -/
  | unchecked
  /-- None: an argument is refused as an unknown command. -/
  | none
  | exactly (n : Nat)
  | atMost (n : Nat)
deriving Inhabited, BEq, Repr

/-- A command of a program. -/
structure Command where
  /-- The names leading to the command below the program; empty for the program. -/
  path : List String
  /-- The usage line's words: the name, then what the arguments are. -/
  use : String
  short : String
  long : String := ""
  arity : Arity := .unchecked
  flags : List Flag := []
  /-- Whether the command does something by itself; otherwise it shows its help. -/
  runnable : Bool := true
  /-- The usage line leaves out `[flags]`. -/
  plainUse : Bool := false
deriving Inhabited, Repr

/-- A program: its name, version, persistent flags and commands. -/
structure Program where
  name : String
  version : String
  persistent : List Flag
  /-- The program's own commands, itself included, in the order they were added. -/
  commands : List Command
deriving Inhabited, Repr

/-- The name of a command: the first word of its usage line. -/
def Command.name (c : Command) : String := ((c.use.splitOn " ").headD "")

def helpFlag (name : String) : Flag :=
  { name := "help", short := some 'h', kind := .toggle, usage := "help for " ++ name }

def versionFlag (name : String) : Flag :=
  { name := "version", short := some 'v', kind := .toggle, usage := "version for " ++ name }

/-- The text about the shells completion scripts are written for. -/
def shellText (prog shell : String) : String :=
  match shell with
  | "bash" =>
    "Generate the autocompletion script for the bash shell.\n\n" ++
    "This script depends on the 'bash-completion' package.\n" ++
    "If it is not installed already, you can install it via your OS's package manager.\n\n" ++
    "To load completions in your current shell session:\n\n" ++
    "\tsource <(" ++ prog ++ " completion bash)\n\n" ++
    "To load completions for every new session, execute once:\n\n" ++
    "#### Linux:\n\n" ++
    "\t" ++ prog ++ " completion bash > /etc/bash_completion.d/" ++ prog ++ "\n\n" ++
    "#### macOS:\n\n" ++
    "\t" ++ prog ++ " completion bash > $(brew --prefix)/etc/bash_completion.d/" ++ prog ++ "\n\n" ++
    "You will need to start a new shell for this setup to take effect.\n"
  | "zsh" =>
    "Generate the autocompletion script for the zsh shell.\n\n" ++
    "If shell completion is not already enabled in your environment you will need\n" ++
    "to enable it.  You can execute the following once:\n\n" ++
    "\techo \"autoload -U compinit; compinit\" >> ~/.zshrc\n\n" ++
    "To load completions in your current shell session:\n\n" ++
    "\tsource <(" ++ prog ++ " completion zsh)\n\n" ++
    "To load completions for every new session, execute once:\n\n" ++
    "#### Linux:\n\n" ++
    "\t" ++ prog ++ " completion zsh > \"$\x7bfpath[1]\x7d/_" ++ prog ++ "\"\n\n" ++
    "#### macOS:\n\n" ++
    "\t" ++ prog ++ " completion zsh > $(brew --prefix)/share/zsh/site-functions/_" ++ prog ++ "\n\n" ++
    "You will need to start a new shell for this setup to take effect.\n"
  | "fish" =>
    "Generate the autocompletion script for the fish shell.\n\n" ++
    "To load completions in your current shell session:\n\n" ++
    "\t" ++ prog ++ " completion fish | source\n\n" ++
    "To load completions for every new session, execute once:\n\n" ++
    "\t" ++ prog ++ " completion fish > ~/.config/fish/completions/" ++ prog ++ ".fish\n\n" ++
    "You will need to start a new shell for this setup to take effect.\n"
  | _ =>
    "Generate the autocompletion script for powershell.\n\n" ++
    "To load completions in your current shell session:\n\n" ++
    "\t" ++ prog ++ " completion powershell | Out-String | Invoke-Expression\n\n" ++
    "To load completions for every new session, add the output of the above command\n" ++
    "to your powershell profile.\n"

/-- The commands every program has besides its own: `help` and `completion` with one
command per shell. -/
def builtins (prog : String) : List Command :=
  [{ path := ["help"], use := "help [command]", short := "Help about any command",
     long := "Help provides help for any command in the application.\nSimply type " ++ prog ++
       " help [path to command] for full details." },
   { path := ["completion"], use := "completion",
     short := "Generate the autocompletion script for the specified shell",
     long := "Generate the autocompletion script for " ++ prog ++ " for the specified shell.\n" ++
       "See each sub-command's help for details on how to use the generated script.\n",
     arity := .none, runnable := false }] ++
  (["bash", "zsh", "fish", "powershell"].map fun shell =>
    { path := ["completion", shell], use := shell,
      short := "Generate the autocompletion script for " ++ shell, long := shellText prog shell,
      arity := .none, plainUse := true,
      flags := [{ name := "no-descriptions", kind := .toggle, usage := "disable completion descriptions" }] })

namespace Program

/-- Every command, the built-in ones after the program's own. -/
def all (p : Program) : List Command := p.commands ++ builtins p.name

/-- The commands directly below a path, in the order they were added. -/
def children (p : Program) (path : List String) : List Command :=
  p.all.filter fun c => c.path.length == path.length + 1 && c.path.take path.length == path

def at? (p : Program) (path : List String) : Option Command :=
  p.all.find? (·.path == path)

/-- A command is listed and suggested when it does something or has such commands
below it; `help` is never suggested. -/
def available (p : Program) (c : Command) : Bool :=
  c.path != ["help"] && (c.runnable || (p.children c.path).any (·.runnable))

def commandPath (p : Program) (c : Command) : String := " ".intercalate (p.name :: c.path)

/-- The flags a command reads before its help and version flags are known: its own
and the persistent ones. -/
def knownFlags (p : Program) (c : Command) : List Flag := c.flags ++ p.persistent

/-- The flags a command reads: its own, the persistent ones, help and, for the
program itself, the version. -/
def readable (p : Program) (c : Command) : List Flag :=
  p.knownFlags c ++ [helpFlag (if c.path.isEmpty then p.name else c.name)] ++
    (if c.path.isEmpty then [versionFlag p.name] else [])

/-- Whether a flag word takes the next word as its value when finding commands. -/
def takesValue (flags : List Flag) (arg : String) : Bool :=
  if arg.contains '=' then false
  else
    match arg.toList with
    | '-' :: '-' :: name =>
      match lookupLong flags (String.ofList name) with
      | some f => f.kind != .toggle
      | none => true
    | ['-', c] =>
      match lookupShort flags c with
      | some f => f.kind != .toggle
      | none => true
    | _ => false

/-- The words of a command line that are not flags or flag values.  A flag taking a
value as the last or next-to-last word ends the search. -/
def commandWords (flags : List Flag) (args : List String) : List String :=
  let rec go (fuel : Nat) (args : List String) (acc : List String) : List String :=
    match fuel with
    | 0 => acc.reverse
    | fuel + 1 =>
      match args with
      | [] => acc.reverse
      | a :: rest =>
        if a == "--" then acc.reverse
        else if "-".isPrefixOf a && takesValue flags a then
          match rest with
          | _ :: more@(_ :: _) => go fuel more acc
          | _ => acc.reverse
        else if !a.isEmpty && !"-".isPrefixOf a then go fuel rest (a :: acc)
        else go fuel rest acc
  go (args.length + 1) args []

/-- The command line without the first word equal to `x` that is not a flag or a flag
value. -/
def withoutWord (flags : List Flag) (args : List String) (x : String) : List String :=
  let rec go (fuel : Nat) (before rest : List String) : List String :=
    match fuel with
    | 0 => before.reverse ++ rest
    | fuel + 1 =>
      match rest with
      | [] => before.reverse
      | a :: more =>
        if a == "--" then before.reverse ++ rest
        else if "-".isPrefixOf a && takesValue flags a then
          match more with
          | v :: after => go fuel (v :: a :: before) after
          | [] => before.reverse ++ rest
        else if !"-".isPrefixOf a && a == x then before.reverse ++ more
        else go fuel (a :: before) more
  go (args.length + 1) [] args

/-- The distance between two texts counted in bytes, in any case. -/
def distance (s t : String) : Nat :=
  let a := (Text.lower s).toUTF8.toList
  let b := (Text.lower t).toUTF8.toList
  let first := (List.range (b.length + 1))
  let row (prev : List Nat) (x : UInt8) (i : Nat) : List Nat :=
    let step (acc : List Nat × Nat) (pair : UInt8 × Nat × Nat) : List Nat × Nat :=
      let (out, left) := acc
      let (y, diag, up) := pair
      let v := if x == y then diag else min (min up left) diag + 1
      (v :: out, v)
    let (out, _) := (b.zip (prev.zip (prev.drop 1))).foldl step ([i], i)
    out.reverse
  let last := (a.zipIdx.foldl (fun prev (x, i) => row prev x (i + 1)) first)
  last.getLastD 0

/-- Commands close to a mistyped word: within two edits, or starting with it. -/
def suggestions (p : Program) (typed : String) : String :=
  let names := ((p.children []).filter p.available).filterMap fun c =>
    if distance typed c.name ≤ 2 || (Text.lower typed).isPrefixOf (Text.lower c.name) then some c.name
    else none
  if names.isEmpty then ""
  else "\n\nDid you mean this?\n" ++ String.join (names.map fun n => "\t" ++ n ++ "\n")

/-- Find the command a command line names, and the words left for it.  An unknown
word right below the program is an error. -/
def find (p : Program) (args : List String) : Except String (Command × List String) :=
  let root := (p.at? []).getD default
  let rec walk (fuel : Nat) (c : Command) (args : List String) : Command × List String :=
    match fuel with
    | 0 => (c, args)
    | fuel + 1 =>
      match commandWords (p.knownFlags c) args with
      | [] => (c, args)
      | next :: _ =>
        match (p.children c.path).find? (·.name == next) with
        | some sub => walk fuel sub (withoutWord (p.knownFlags c) args next)
        | none => (c, args)
  let (c, rest) := walk (args.length + 1) root args
  if c.arity == .unchecked && c.path.isEmpty && !(p.children c.path).isEmpty then
    match commandWords (p.knownFlags c) rest with
    | typed :: _ =>
      .error ("unknown command " ++ Text.quote typed ++ " for " ++ Text.quote (p.commandPath c) ++
        p.suggestions typed)
    | [] => .ok (c, rest)
  else .ok (c, rest)

/-! ## Help -/

/-- The usage line of a runnable command. -/
def useLine (p : Program) (c : Command) : String :=
  let parent := " ".intercalate (p.name :: c.path.dropLast)
  let line := if c.path.isEmpty then c.use else parent ++ " " ++ c.use
  if c.plainUse || (line.splitOn "[flags]").length > 1 then line else line ++ " [flags]"

/-- Text without its trailing blanks and line ends. -/
def trimEnd (s : String) : String :=
  String.ofList ((s.toList.reverse.dropWhile fun c => c == ' ' || c == '\n' || c == '\t' || c == '\r').reverse)

/-- The usage of a command: how to call it, its commands and its flags. -/
def usage (p : Program) (c : Command) : String :=
  let subs := (p.children c.path).mergeSort (fun a b => decide (a.name ≤ b.name))
  let listed := subs.filter fun s => p.available s || s.name == "help"
  let hasSubs := (subs.filter p.available).length > 0
  let width := max 11 (subs.foldl (fun m s => max m s.name.length) 0)
  let own := if c.path.isEmpty then p.readable c else c.flags ++ [helpFlag c.name]
  let inherited := if c.path.isEmpty then [] else p.persistent
  "Usage:" ++
  (if c.runnable then "\n  " ++ p.useLine c else "") ++
  (if hasSubs then "\n  " ++ p.commandPath c ++ " [command]" else "") ++
  (if hasSubs then
    "\n\nAvailable Commands:" ++ String.join (listed.map fun s =>
      "\n  " ++ s.name ++ String.ofList (List.replicate (width - s.name.length) ' ') ++ " " ++ s.short)
   else "") ++
  "\n\nFlags:\n" ++ trimEnd (flagUsages own) ++
  (if inherited.isEmpty then "" else "\n\nGlobal Flags:\n" ++ trimEnd (flagUsages inherited)) ++
  (if hasSubs then "\n\nUse \"" ++ p.commandPath c ++ " [command] --help\" for more information about a command."
   else "") ++ "\n"

/-- The help of a command: its description, then its usage. -/
def help (p : Program) (c : Command) : String :=
  let about := if c.long.isEmpty then c.short else c.long
  let hasSubs := ((p.children c.path).filter p.available).length > 0
  (if about.isEmpty then "" else trimEnd about ++ "\n\n") ++
    (if c.runnable || hasSubs then p.usage c else "")

/-- What `help` shows for the words after it. -/
def helpTopic (p : Program) (words : List String) : String :=
  match p.find words with
  | .ok (c, _) => p.help c
  | .error _ =>
    let shown := words.map fun w =>
      if w.toList.all (fun ch => ch != '\x60' && (ch.toNat ≥ 32 || ch == '\t') && ch.toNat != 127 && ch.toNat != 0xFEFF) then "\x60" ++ w ++ "\x60"
      else Text.quote w
    "Unknown help topic [" ++ " ".intercalate shown ++ "]\n" ++ p.usage ((p.at? []).getD default)

/-! ## Reading a whole command line -/

/-- What a command line asks of a program. -/
inductive Request where
  /-- Show a text and stop. -/
  | show (text : String)
  /-- Refuse the command line with a message, perhaps followed by a hint. -/
  | refuse (message : String) (hint : Option String)
  /-- Run a command with its flags and positional arguments. -/
  | run (c : Command) (given : Given) (args : List String)
deriving Inhabited

/-- Check positional arguments against a command's rule. -/
def checkArity (p : Program) (c : Command) (args : List String) : Option String :=
  match c.arity, args with
  | .none, a :: _ => some ("unknown command " ++ Text.quote a ++ " for " ++ Text.quote (p.commandPath c))
  | .exactly n, _ =>
    if args.length == n then none
    else some ("accepts " ++ toString n ++ " arg(s), received " ++ toString args.length)
  | .atMost n, _ =>
    if args.length ≤ n then none
    else some ("accepts at most " ++ toString n ++ " arg(s), received " ++ toString args.length)
  | _, _ => none

/-- Read a command line: the request it makes of the program. -/
def request (p : Program) (args : List String) : Request :=
  match p.find args with
  | .error m => .refuse m (some ("Run '" ++ p.name ++ " --help' for usage."))
  | .ok (c, rest) =>
    match readFlags (p.readable c) rest with
    | .error m => .refuse m none
    | .ok (given, positional) =>
      if given.toggle "help" then .show (p.help c)
      else if c.path.isEmpty && given.toggle "version" then
        .show (p.name ++ " version " ++ p.version ++ "\n")
      else if !c.runnable then .show (p.help c)
      else
        match p.checkArity c positional with
        | some m => .refuse m none
        | none => .run c given positional

/-- The required flags a command was not given, in the words of the refusal. -/
def missingFlags (c : Command) (given : Given) : Option String :=
  let missing := ((c.flags.filter (·.required)).filter (fun f => !given.changed f.name)).map (·.name)
  let missing := missing.mergeSort (fun a b => decide (a ≤ b))
  if missing.isEmpty then none
  else some ("required flag(s) \"" ++ "\", \"".intercalate missing ++ "\" not set")

end Program
end CommandLine
end AgentMemory
