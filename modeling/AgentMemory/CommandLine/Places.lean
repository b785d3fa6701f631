import AgentMemory.CommandLine.Run
import AgentMemory.Episodic.Store

namespace AgentMemory
namespace CommandLine

/-!
# The places a run reads

A program runs over a tree of files held in memory.  Before a run from the command
line, the tree is filled with the documents the run may read, found by name rather
than by listing directories:

* the storage root is the value of `--root`, else that of `RALPH_DIR`, else
  `.ralph` in the home directory, taken from the working directory when relative;
* under the root: the configuration, fact and rule documents, the episode index and
  the legacy index, the episode bodies the index names, the reflection log, and the
  reasoning log of the agent named by `--agent`;
* every argument that is not a flag, and the values of `--config`, as paths from the
  working directory (a transcript, a configuration document).

After the run, the files whose contents changed are written back and the files
removed are deleted.
-/

/-- The variables a run looks at: the home directory, the storage root and one
variable per setting, `RALPH_` and the section and key in upper case. -/
def variableNames : List String :=
  let settings := (Config.Settings.defaults "").toJson
  let perSetting := settings.members.flatMap fun (part, body) =>
    body.members.map fun (key, _) => Config.variablePrefix ++ (part ++ "_" ++ key).map Char.toUpper
  ["HOME", Config.rootVariable] ++ perSetting

/-- The value given to a flag on a command line, in either of its forms
`--name value` and `--name=value`; the last one when given twice. -/
def flagValue (name : String) (args : List String) : Option String :=
  let long := "--" ++ name
  let rec scan : List String → Option String → Option String
    | [], found => found
    | [a], found =>
      if (long ++ "=").isPrefixOf a then some (String.ofList (a.toList.drop (long.length + 1))) else found
    | a :: b :: rest, found =>
      if a == long then scan rest (some b)
      else if (long ++ "=").isPrefixOf a then scan (b :: rest) (some (String.ofList (a.toList.drop (long.length + 1))))
      else scan (b :: rest) found
  scan args none

def fromDir (cwd p : String) : String :=
  if Disk.isAbsolute p then Disk.clean p else Disk.clean (Disk.join cwd p)

def rootOf (args : List String) (env : Config.Environment) (cwd : String) : String :=
  fromDir cwd ((flagValue "root" args).getD (Config.defaultRootDir env))

/-- The documents under a root and on a command line that a run may read. -/
def places (root : String) (args : List String) (cwd : String) : List String :=
  let c := Config.Settings.defaults root
  let episodes : Episodic.Store := { dir := c.episodesDir }
  let agent := (flagValue "agent" args).toList.map fun a =>
    Disk.joinAll c.agentMemoryDir [a, "episodic", "episodes.jsonl"]
  let named := (args.filter fun a => !a.isEmpty && !"-".isPrefixOf a).map (fromDir cwd)
  [c.configPath, c.semanticPath, c.proceduralPath, episodes.indexPath, episodes.legacyIndexPath,
    c.reflectionLogPath] ++ agent ++ (flagValue "config" args).toList.map (fromDir cwd) ++ named

/-- The episode bodies that the index in a tree names. -/
def bodies (root : String) (t : Disk.Tree) : List String :=
  let episodes : Episodic.Store := { dir := (Config.Settings.defaults root).episodesDir }
  match t.readFile episodes.indexPath with
  | .error _ => []
  | .ok d =>
    match Episodic.Index.decode d.contents with
    | .ok (idx, _) => idx.episodes.map fun s => episodes.bodyPath s.id s.timestamp
    | .error _ => []

/-- The files of a tree, with their contents. -/
def fileContents (t : Disk.Tree) : List (String × String) :=
  t.entries.filterMap fun (p, e) =>
    match e with
    | .file d => some (p, d.contents)
    | .dir => none

/-- What a run changed: each file written, with its new contents, and each file
removed, with none. -/
def changes (before after : Disk.Tree) : List (String × Option String) :=
  let old := fileContents before
  let new := fileContents after
  let written := new.filterMap fun (p, text) =>
    if old.contains (p, text) then none else some (p, some text)
  let removed := old.filterMap fun (p, _) =>
    if new.any (·.1 == p) then none else some (p, none)
  written ++ removed

end CommandLine
end AgentMemory
