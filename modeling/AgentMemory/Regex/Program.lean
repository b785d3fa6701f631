import AgentMemory.Regex.Syntax

namespace AgentMemory
namespace Regex

/-!
# Regular expressions: programs

A parsed pattern becomes a program for a backtracking machine.  The shapes fix the
order in which the machine tries alternatives, and so which match is found first:

* `x|y` tries `x` first;
* `x*` loops through `x` before leaving (the lazy form leaves first); when `x` can
  match the empty text, `x*` is built as `(x+)?`, so that an empty turn of the loop
  never takes priority over leaving it;
* `x{n,m}` is `n` copies of `x` followed by `m - n` nested optional copies,
  `x{n,}` is `n - 1` copies followed by `x+`;
* a group records the positions where it starts and ends in two slots.
-/

/-- One step of a program. -/
inductive Inst where
  /-- Consume one character of the class and go on. -/
  | consume (cls : CharClass) (next : Nat)
  /-- Try `first`, and `second` when `first` fails. -/
  | split (first second : Nat)
  /-- Record the position in a slot and go on. -/
  | save (slot : Nat) (next : Nat)
  /-- Go on only where the condition holds. -/
  | check (a : Assertion) (next : Nat)
  /-- Never succeeds. -/
  | fail
  /-- The whole pattern matched. -/
  | accept
deriving Inhabited

/-- A compiled pattern: the steps, where to start and how many slots. -/
structure Program where
  insts : Array Inst
  start : Nat
  slots : Nat
deriving Inhabited

/-- A node can match the empty text (as the machine sees it: assertions count as
empty). -/
def Node.nullable : Node → Bool
  | .empty => true
  | .noMatch => false
  | .chars _ => false
  | .assert _ => true
  | .capture _ body => body.nullable
  | .concat parts => allNullable parts
  | .alt options => anyNullable options
  | .star _ _ => true
  | .plus body _ => body.nullable
  | .quest _ _ => true
  | .rep body min _ _ => min == 0 || body.nullable
where
  allNullable : List Node → Bool
    | [] => true
    | p :: ps => p.nullable && allNullable ps
  anyNullable : List Node → Bool
    | [] => false
    | p :: ps => p.nullable || anyNullable ps

/-- Rewrite counted repetitions into copies and optional copies, and collapse a
repetition of a repetition of the same kind. -/
def Node.expand : Node → Node
  | .capture i body => .capture i body.expand
  | .concat parts => .concat (expandAll parts)
  | .alt options => .alt (expandAll options)
  | .star body g => starOf body.expand g
  | .plus body g => plusOf body.expand g
  | .quest body g => questOf body.expand g
  | .rep body min max g =>
    let x := body.expand
    match max with
    | none =>
      if min == 0 then starOf x g
      else if min == 1 then plusOf x g
      else .concat (List.replicate (min - 1) x ++ [plusOf x g])
    | some hi =>
      if min == 0 && hi == 0 then .empty
      else if min == 1 && hi == 1 then x
      else if hi < min then .noMatch
      else
        let leading := List.replicate min x
        if hi > min then
          let suffix := nested x g (hi - min - 1) (questOf x g)
          if min == 0 then suffix else .concat (leading ++ [suffix])
        else .concat leading
  | n => n
where
  expandAll : List Node → List Node
    | [] => []
    | p :: ps => p.expand :: expandAll ps
  starOf (x : Node) (g : Bool) : Node :=
    match x with
    | .empty => .empty
    | .star _ g' => if g == g' then x else .star x g
    | _ => .star x g
  plusOf (x : Node) (g : Bool) : Node :=
    match x with
    | .empty => .empty
    | .plus _ g' => if g == g' then x else .plus x g
    | _ => .plus x g
  questOf (x : Node) (g : Bool) : Node :=
    match x with
    | .empty => .empty
    | .quest _ g' => if g == g' then x else .quest x g
    | _ => .quest x g
  /-- `k` more levels of `(x(x…)?)?` around `inner`. -/
  nested (x : Node) (g : Bool) : Nat → Node → Node
    | 0, inner => inner
    | k + 1, inner => nested x g k (questOf (.concat [x, inner]) g)

abbrev Emit := StateM (Array Inst)

/-- Append a step and return its address. -/
def emit (i : Inst) : Emit Nat := do
  let insts ← get
  set (insts.push i)
  pure insts.size

def patch (pc : Nat) (i : Inst) : Emit Unit :=
  modify (fun insts => insts.set! pc i)

/-- Splits that try the entries in order. -/
def chain : List Nat → Emit Nat
  | [] => emit .fail
  | [e] => pure e
  | e :: es => do
    let rest ← chain es
    emit (.split e rest)

mutual
/-- Compile a node to run before the continuation `k`; the entry address. -/
def compileNode (node : Node) (k : Nat) : Emit Nat :=
  match node with
  | .empty => pure k
  | .noMatch => emit .fail
  | .chars cls => emit (.consume cls k)
  | .assert a => emit (.check a k)
  | .capture i body => do
    let close ← emit (.save (2 * i + 1) k)
    let b ← compileNode body close
    emit (.save (2 * i) b)
  | .concat parts => compileSeq parts k
  | .alt options => do
    let entries ← compileOptions options k
    chain entries
  | .star body greedy =>
    if body.nullable then do
      -- (x+)?
      let loop ← emit .fail
      let b ← compileNode body loop
      patch loop (if greedy then .split b k else .split k b)
      emit (if greedy then .split b k else .split k b)
    else do
      let loop ← emit .fail
      let b ← compileNode body loop
      patch loop (if greedy then .split b k else .split k b)
      pure loop
  | .plus body greedy => do
    let loop ← emit .fail
    let b ← compileNode body loop
    patch loop (if greedy then .split b k else .split k b)
    pure b
  | .quest body greedy => do
    let b ← compileNode body k
    emit (if greedy then .split b k else .split k b)
  | .rep body _ _ _ => compileNode body k

/-- Compile a sequence: the later parts first, each before the next. -/
def compileSeq (parts : List Node) (k : Nat) : Emit Nat :=
  match parts with
  | [] => pure k
  | p :: ps => do
    let e ← compileSeq ps k
    compileNode p e

/-- Compile each alternative before the same continuation. -/
def compileOptions (options : List Node) (k : Nat) : Emit (List Nat) :=
  match options with
  | [] => pure []
  | o :: os => do
    let e ← compileNode o k
    let es ← compileOptions os k
    pure (e :: es)
end

/-- Compile a parsed pattern: the whole match is group 0. -/
def Program.ofParsed (p : Parsed) : Program :=
  let body := Node.capture 0 p.node.expand
  let (start, insts) := (do
    let acc ← emit .accept
    compileNode body acc : Emit Nat).run #[]
  ⟨insts, start, 2 * (p.groups + 1)⟩

end Regex
end AgentMemory
