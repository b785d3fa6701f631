import AgentMemory.Text.Number
import AgentMemory.Text.Csv

namespace AgentMemory
namespace CommandLine

/-!
# Flags of a command line

A flag has a long name, perhaps a one-letter short name, a kind and a line of help.
Its value is read from text by its kind:

* text is taken as it is;
* a toggle reads `1 t T TRUE true True` or `0 f F FALSE false False`, and stands
  alone for `true`;
* a whole number reads a sign, a base prefix and digits, within 64 bits;
* a double reads a decimal number, an infinity or not-a-number;
* a list of texts reads one record of comma-separated values; the first time the
  flag is given it replaces the default, later times add to the list.

Reading a command line goes argument by argument: `--` ends the flags; `--name=v`,
`--name v`, `-n v`, `-nv` and `-n=v` give a value; toggles stand alone and short
toggles may be run together (`-ab`); every other argument is positional.  The
first problem stops reading, with the words the command line is known by:
`unknown flag: --x`, `unknown shorthand flag: 'x' in -x`, `flag needs an argument:
--x`, `bad flag syntax: ---x`, and `invalid argument "v" for "-n, --name" flag: ...`
for a value that does not read.
-/

/-- What a flag holds. -/
inductive FlagKind where
  | text
  | toggle
  | whole
  | real
  | texts
deriving Inhabited, BEq, Repr

/-- The word the help shows after a flag for its value; empty for a toggle. -/
def FlagKind.word : FlagKind → String
  | .text => "string"
  | .toggle => ""
  | .whole => "int"
  | .real => "float"
  | .texts => "strings"

/-- A flag a command accepts. -/
structure Flag where
  name : String
  short : Option Char := none
  kind : FlagKind
  usage : String
  /-- The default as the help shows it; empty when it is the kind's zero value. -/
  shown : String := ""
  /-- The command refuses to run without it. -/
  required : Bool := false
deriving Inhabited, Repr

/-- The value a flag was given. -/
inductive FlagValue where
  | text (s : String)
  | toggle (b : Bool)
  | whole (n : Int)
  | real (x : Float)
  | texts (xs : List String)
deriving Inhabited

/-- The flags given on a command line with their values, in the order first given. -/
structure Given where
  values : List (String × FlagValue) := []
deriving Inhabited

namespace Given

def find? (g : Given) (name : String) : Option FlagValue :=
  (g.values.find? (·.1 == name)).map Prod.snd

def changed (g : Given) (name : String) : Bool := g.values.any (·.1 == name)

/-- Record a value: a list adds to the list given before, anything else replaces. -/
def set (g : Given) (name : String) (v : FlagValue) : Given :=
  match g.find? name, v with
  | some (.texts old), .texts new => ⟨g.values.map fun kv => if kv.1 == name then (name, .texts (old ++ new)) else kv⟩
  | some _, _ => ⟨g.values.map fun kv => if kv.1 == name then (name, v) else kv⟩
  | none, _ => ⟨g.values ++ [(name, v)]⟩

/-- A text flag, or its default. -/
def text (g : Given) (name : String) (dflt : String := "") : String :=
  match g.find? name with
  | some (.text s) => s
  | _ => dflt

def toggle (g : Given) (name : String) (dflt : Bool := false) : Bool :=
  match g.find? name with
  | some (.toggle b) => b
  | _ => dflt

/-- A whole-number flag, or its default. -/
def whole (g : Given) (name : String) (dflt : Int := 0) : Int :=
  match g.find? name with
  | some (.whole n) => n
  | _ => dflt

def real (g : Given) (name : String) (dflt : Float := 0) : Float :=
  match g.find? name with
  | some (.real x) => x
  | _ => dflt

def texts (g : Given) (name : String) (dflt : List String := []) : List String :=
  match g.find? name with
  | some (.texts xs) => xs
  | _ => dflt

end Given

/-- The words of a number that does not read, as the reading function reports it. -/
def numberProblem (fn : String) (s : String) (e : Text.NumberError) : String :=
  "strconv." ++ fn ++ ": parsing " ++ Text.quote s ++ ": " ++ e.text

/-- Read a flag's value from text. -/
def FlagKind.read (k : FlagKind) (s : String) : Except String FlagValue :=
  match k with
  | .text => .ok (.text s)
  | .toggle =>
    match Text.parseBool s with
    | .ok b => .ok (.toggle b)
    | .error e => .error (numberProblem "ParseBool" s e)
  | .whole =>
    match Text.parseInt s with
    | .ok n => .ok (.whole n)
    | .error e => .error (numberProblem "ParseInt" s e)
  | .real =>
    match Text.parseFloat s with
    | .ok x => .ok (.real x)
    | .error e => .error (numberProblem "ParseFloat" s e)
  | .texts =>
    if s.isEmpty then .ok (.texts [])
    else (Text.csvRecord s).map FlagValue.texts

/-- How a flag is named in messages: both names when it has a short one. -/
def Flag.title (f : Flag) : String :=
  match f.short with
  | some c => "-" ++ String.singleton c ++ ", --" ++ f.name
  | none => "--" ++ f.name

/-- Give a flag a value read from text. -/
def Flag.assign (f : Flag) (g : Given) (s : String) : Except String Given :=
  match f.kind.read s with
  | .ok v => .ok (g.set f.name v)
  | .error e => .error ("invalid argument " ++ Text.quote s ++ " for " ++ Text.quote f.title ++ " flag: " ++ e)

/-- A character between single quotes, as messages show one. -/
def quoteChar (c : Char) : String :=
  if c == '\'' then "'\\''"
  else if c == '"' then "'\"'"
  else
    let inner := (Text.quote (String.singleton c)).toList
    "'" ++ String.ofList ((inner.drop 1).dropLast) ++ "'"

def lookupLong (flags : List Flag) (name : String) : Option Flag := flags.find? (·.name == name)

def lookupShort (flags : List Flag) (c : Char) : Option Flag := flags.find? (·.short == some c)

/-- Read a `--name` argument; `rest` are the arguments after it. -/
def readLong (flags : List Flag) (arg : String) (rest : List String) (g : Given) :
    Except String (Given × List String) :=
  let body := String.ofList (arg.toList.drop 2)
  match body.toList with
  | [] | '-' :: _ | '=' :: _ => .error ("bad flag syntax: " ++ arg)
  | cs =>
    let name := String.ofList (cs.takeWhile (· != '='))
    let inline : Option String :=
      if cs.contains '=' then some (String.ofList ((cs.dropWhile (· != '=')).drop 1)) else none
    match lookupLong flags name with
    | none => .error ("unknown flag: --" ++ name)
    | some f =>
      match inline with
      | some v => (f.assign g v).map fun g => (g, rest)
      | none =>
        if f.kind == .toggle then (f.assign g "true").map fun g => (g, rest)
        else
          match rest with
          | v :: more => (f.assign g v).map fun g => (g, more)
          | [] => .error ("flag needs an argument: " ++ arg)

/-- Read the letters of a `-abc` argument, one flag each; `rest` are the arguments
after it, from which a letter that wants a value takes one.  As the command line
has always done, each letter looks for its value in the arguments after the whole
group, and the last letter decides what is left. -/
def readShorts (flags : List Flag) (group : String) (letters : List Char) (rest : List String)
    (g : Given) (left : List String) : Except String (Given × List String) :=
  match letters with
  | [] => .ok (g, left)
  | c :: more =>
    match lookupShort flags c with
    | none => .error ("unknown shorthand flag: " ++ quoteChar c ++ " in -" ++ String.ofList letters)
    | some f =>
      match more with
      | '=' :: v :: vs =>
        (f.assign g (String.ofList (v :: vs))).map fun g => (g, rest)
      | _ =>
        if f.kind == .toggle then
          match f.assign g "true" with
          | .ok g => readShorts flags group more rest g rest
          | .error e => .error e
        else if !more.isEmpty then
          (f.assign g (String.ofList more)).map fun g => (g, rest)
        else
          match rest with
          | v :: vs => (f.assign g v).map fun g => (g, vs)
          | [] => .error ("flag needs an argument: " ++ quoteChar c ++ " in -" ++ String.ofList letters)

/-- Read a command line against the flags a command accepts: the flags given and
the positional arguments. -/
def readFlags (flags : List Flag) (args : List String) : Except String (Given × List String) :=
  let rec go (fuel : Nat) (args : List String) (g : Given) (pos : List String) :
      Except String (Given × List String) :=
    match fuel with
    | 0 => .ok (g, pos ++ args)
    | fuel + 1 =>
      match args with
      | [] => .ok (g, pos)
      | a :: rest =>
        match a.toList with
        | '-' :: '-' :: [] => .ok (g, pos ++ rest)
        | '-' :: '-' :: _ =>
          match readLong flags a rest g with
          | .ok (g, rest) => go fuel rest g pos
          | .error e => .error e
        | '-' :: c :: cs =>
          match readShorts flags a (c :: cs) rest g rest with
          | .ok (g, rest) => go fuel rest g pos
          | .error e => .error e
        | _ => go fuel rest g (pos ++ [a])
  go (args.length + 1) args {} []

/-! ## Help lines -/

/-- The help lines of some flags, sorted by name, their help texts aligned. -/
def flagUsages (flags : List Flag) : String :=
  let sorted := flags.mergeSort (fun a b => decide (a.name ≤ b.name))
  let heads := sorted.map fun f =>
    let names := match f.short with
      | some c => "  -" ++ String.singleton c ++ ", --" ++ f.name
      | none => "      --" ++ f.name
    if f.kind.word.isEmpty then names else names ++ " " ++ f.kind.word
  let width := heads.foldl (fun m h => max m h.length) 0
  let lines := (sorted.zip heads).map fun (f, h) =>
    let dflt := if f.shown.isEmpty then ""
      else if f.kind == .text then " (default " ++ Text.quote f.shown ++ ")"
      else " (default " ++ f.shown ++ ")"
    h ++ String.ofList (List.replicate (width - h.length + 3) ' ') ++ f.usage ++ dflt
  String.join (lines.map (· ++ "\n"))

end CommandLine
end AgentMemory
