import AgentMemory.Regex.Program

namespace AgentMemory
namespace Regex

/-!
# Regular expressions: searching

Matches are leftmost-first: of the matches that start earliest, the one that the
program's order of alternatives reaches first.  The machine walks the program depth
first and never enters the same step at the same position twice within one search,
which keeps the walk linear in the size of program times text and does not change
which match is found first.

Listing all matches goes left to right: each search starts where the last match
ended, and an empty match right after the previous match is skipped (the search then
moves one character on).  Positions reported to callers are UTF-8 byte offsets.
-/

/-- A compiled regular expression and the text it was compiled from. -/
structure Compiled where
  source : String
  program : Program
deriving Inhabited

def compile (pattern : String) : Except SyntaxError Compiled :=
  match parse pattern with
  | .ok parsed => .ok ⟨pattern, Program.ofParsed parsed⟩
  | .error e => .error e

def inRanges (n : Nat) (ranges : List (Nat × Nat)) : Bool :=
  ranges.any (fun r => r.1 ≤ n && n ≤ r.2)

/-- The case class of a character as code points, quickly for ASCII. -/
def foldCodes (c : Char) : List Nat :=
  let n := c.toNat
  if n < 0x80 then
    if 'a' ≤ c && c ≤ 'z' then
      let up := n - 32
      if c == 'k' then [n, up, 0x212A] else if c == 's' then [n, up, 0x17F] else [n, up]
    else if 'A' ≤ c && c ≤ 'Z' then
      let low := n + 32
      if c == 'K' then [n, low, 0x212A] else if c == 'S' then [n, low, 0x17F] else [n, low]
    else [n]
  else (Text.foldClass c).map Char.toNat

/-- A character belongs to a class. -/
def CharClass.test (cls : CharClass) (c : Char) : Bool :=
  let codes := if cls.fold then foldCodes c else [c.toNat]
  let hit := cls.items.any (fun item =>
    match item with
    | .range lo hi => codes.any (fun x => lo ≤ x && x ≤ hi)
    | .outside rs => codes.all (fun x => !inRanges x rs))
  hit != cls.negated

/-- An ASCII word character: letter, digit or underscore. -/
def isWordChar (c : Char) : Bool :=
  c.isAlphanum || c == '_'

/-- The condition holds at a position of the text. -/
def Assertion.holds (a : Assertion) (text : Array Char) (pos : Nat) : Bool :=
  let before := if pos == 0 then none else text[pos - 1]?
  let after := text[pos]?
  let wordBefore := match before with | some c => isWordChar c | none => false
  let wordAfter := match after with | some c => isWordChar c | none => false
  match a with
  | .beginText => pos == 0
  | .endText => pos == text.size
  | .beginLine => pos == 0 || before == some '\n'
  | .endLine => pos == text.size || after == some '\n'
  | .wordBoundary => wordBefore != wordAfter
  | .notWordBoundary => wordBefore == wordAfter

/-- Pending work of the machine. -/
inductive Job where
  /-- Try a step at a position, unless it was tried before. -/
  | tryAt (pc pos : Nat)
  /-- Put a slot back to its earlier value. -/
  | restore (slot : Nat) (old : Int)

/-- The machine's state: which steps were tried at which positions (marked with the
number of the current search), the slots, and the pending work. -/
structure Machine where
  seen : Array Nat
  stamp : Nat
  slots : Array Int
  jobs : List Job

/-- Run the machine until the program accepts or no work is left.  `current` is a
step to try now.  Each round marks a new step and position or removes pending work,
so `fuel` of a few times the program size times the text length suffices. -/
def Machine.run (prog : Program) (text : Array Char) :
    Nat → Machine → Option (Nat × Nat) → Option (Array Int) × Machine
  | 0, m, _ => (none, m)
  | fuel + 1, m, none =>
    match m.jobs with
    | [] => (none, m)
    | .restore slot old :: rest =>
      Machine.run prog text fuel { m with jobs := rest, slots := m.slots.set! slot old } none
    | .tryAt pc pos :: rest => Machine.run prog text fuel { m with jobs := rest } (some (pc, pos))
  | fuel + 1, m, some (pc, pos) =>
    let index := pc * (text.size + 1) + pos
    if m.seen[index]! == m.stamp then Machine.run prog text fuel m none
    else
      let m := { m with seen := m.seen.set! index m.stamp }
      match prog.insts[pc]? with
      | some (.consume cls next) =>
        match text[pos]? with
        | some c =>
          if cls.test c then Machine.run prog text fuel m (some (next, pos + 1))
          else Machine.run prog text fuel m none
        | none => Machine.run prog text fuel m none
      | some (.split first second) =>
        Machine.run prog text fuel { m with jobs := .tryAt second pos :: m.jobs } (some (first, pos))
      | some (.save slot next) =>
        let old := m.slots[slot]!
        Machine.run prog text fuel
          { m with jobs := .restore slot old :: m.jobs, slots := m.slots.set! slot pos }
          (some (next, pos))
      | some (.check a next) =>
        if a.holds text pos then Machine.run prog text fuel m (some (next, pos))
        else Machine.run prog text fuel m none
      | some .accept => (some (m.slots.set! 1 pos), m)
      | some .fail => Machine.run prog text fuel m none
      | none => Machine.run prog text fuel m none

/-- A fresh machine for a program over a text. -/
def Machine.fresh (prog : Program) (text : Array Char) : Machine :=
  { seen := Array.replicate (prog.insts.size * (text.size + 1)) 0, stamp := 0,
    slots := Array.replicate prog.slots (-1), jobs := [] }

/-- The leftmost-first match starting at or after `origin`: its slots (character
positions, `-1` for a group that took no part).  The machine is reused across calls
with a new mark each time. -/
def Compiled.searchFrom (re : Compiled) (text : Array Char) (origin : Nat) (m : Machine) :
    Option (Array Int) × Machine :=
  let prog := re.program
  let m := { m with stamp := m.stamp + 1, jobs := [], slots := Array.replicate prog.slots (-1) }
  let budget := 6 * prog.insts.size * (text.size + 2) + 16
  let rec attempt (k : Nat) (pos : Nat) (m : Machine) : Option (Array Int) × Machine :=
    match k with
    | 0 => (none, m)
    | k + 1 =>
      match Machine.run prog text budget m (some (prog.start, pos)) with
      | (some slots, m') => (some slots, m')
      | (none, m') =>
        if pos < text.size then attempt k (pos + 1) { m' with jobs := [] } else (none, m')
  attempt (text.size + 1 - origin) origin m

/-- All matches, left to right, as slot arrays over character positions. -/
def Compiled.allSlots (re : Compiled) (text : Array Char) : List (Array Int) :=
  let rec loop (fuel : Nat) (pos : Nat) (prevEnd : Int) (m : Machine) (acc : List (Array Int)) :
      List (Array Int) :=
    match fuel with
    | 0 => acc.reverse
    | fuel + 1 =>
      if pos > text.size then acc.reverse
      else
        match re.searchFrom text pos m with
        | (none, _) => acc.reverse
        | (some slots, m') =>
          let s := slots[0]!
          let e := slots[1]!
          let empty := e == (pos : Int)
          let accept := !(empty && s == prevEnd)
          let next := if empty then pos + 1 else e.toNat
          loop fuel next e m' (if accept then slots :: acc else acc)
  loop (text.size + 2) 0 (-1) (Machine.fresh re.program text) []

/-- Byte offsets of each character position of a text. -/
def byteOffsets (text : Array Char) : Array Nat :=
  (text.foldl (fun (acc : Array Nat × Nat) c => (acc.1.push acc.2, acc.2 + c.utf8Size)) (#[], 0)) |>
    fun (offs, total) => offs.push total

/-- The text of a group from its slots, empty when it took no part. -/
def groupText (text : Array Char) (slots : Array Int) (g : Nat) : String :=
  let s := slots[2 * g]!
  let e := slots[2 * g + 1]!
  if s < 0 || e < 0 then "" else String.ofList ((text.extract s.toNat e.toNat).toList)

/-- Where a match lies: character positions and UTF-8 byte offsets. -/
structure Span where
  first : Nat
  last : Nat
  startByte : Nat
  endByte : Nat
deriving Inhabited, Repr

/-- All matches of a text as spans. -/
def Compiled.findAll (re : Compiled) (text : Array Char) : List Span :=
  let offs := byteOffsets text
  (re.allSlots text).map (fun slots =>
    let a := slots[0]!.toNat
    let b := slots[1]!.toNat
    ⟨a, b, offs[a]!, offs[b]!⟩)

def Compiled.findAllSpans (re : Compiled) (s : String) : List (Nat × Nat) :=
  (re.findAll s.toList.toArray).map (fun sp => (sp.startByte, sp.endByte))

/-- The groups of all matches, group 0 first; a group that took no part is empty. -/
def Compiled.findAllGroups (re : Compiled) (s : String) : List (List String) :=
  let text := s.toList.toArray
  let groups := re.program.slots / 2
  (re.allSlots text).map (fun slots => (List.range groups).map (groupText text slots))

/-- The groups of the first match. -/
def Compiled.findGroups? (re : Compiled) (s : String) : Option (List String) :=
  let text := s.toList.toArray
  let groups := re.program.slots / 2
  match (re.searchFrom text 0 (Machine.fresh re.program text)).1 with
  | some slots => some ((List.range groups).map (groupText text slots))
  | none => none

/-- The pattern matches somewhere in the text. -/
def Compiled.test (re : Compiled) (s : String) : Bool :=
  let text := s.toList.toArray
  (re.searchFrom text 0 (Machine.fresh re.program text)).1.isSome

/-- Escape every character that has a meaning in patterns, so that the result matches
the text literally. -/
def quoteMeta (s : String) : String :=
  String.ofList (s.toList.flatMap (fun c =>
    if "\\.+*?()|[]^$".toList.contains c || c == '\x7b' || c == '\x7d' then ['\\', c] else [c]))

end Regex
end AgentMemory
