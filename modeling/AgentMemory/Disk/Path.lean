namespace AgentMemory
namespace Disk

/-!
# Paths

Paths are texts of elements separated by `/`.  The operations here are the lexical
ones: the directory part of a path, its last element, the extension of the last
element, and joining.  Cleaning a path removes empty and `.` elements and resolves
`..` against the element before it, so that `a//b/./c/../d` is `a/b/d`.
-/

/-- The pieces of a text between the occurrences of a separator, empty ones kept. -/
def piecesOf (sep : Char) (s : String) : List String :=
  (s.toList.splitOn sep).map String.ofList

def elements (p : String) : List String :=
  (piecesOf '/' p).filter (fun e => !e.isEmpty)

def isAbsolute (p : String) : Bool := "/".isPrefixOf p

/-- Remove `.` elements and resolve `..` lexically. -/
def clean (p : String) : String :=
  let abs := isAbsolute p
  let step (acc : List String) (e : String) : List String :=
    if e == "." then acc
    else if e == ".." then
      match acc with
      | x :: rest => if x == ".." then e :: acc else rest
      | [] => if abs then [] else [e]
    else e :: acc
  let parts := ((elements p).foldl step []).reverse
  let body := "/".intercalate parts
  if abs then "/" ++ body else if body.isEmpty then "." else body

/-- Join two paths with one separator. -/
def join (a b : String) : String :=
  if a.isEmpty then b
  else if b.isEmpty then a
  else if a.endsWith "/" then a ++ b else a ++ "/" ++ b

/-- Join several elements to a base. -/
def joinAll (base : String) (parts : List String) : String :=
  parts.foldl join base

/-- The directory part of a path: everything before the last separator, cleaned;
`.` when there is none. -/
def parent (p : String) : String :=
  let cs := p.toList
  let rec lastSlash (i : Nat) (xs : List Char) (best : Option Nat) : Option Nat :=
    match xs with
    | [] => best
    | c :: rest => lastSlash (i + 1) rest (if c == '/' then some i else best)
  match lastSlash 0 cs none with
  | none => "."
  | some i => clean (String.ofList (cs.take (i + 1)))

/-- The last element of a path; `.` for an empty path and `/` for the root. -/
def base (p : String) : String :=
  let trimmed := String.ofList (p.toList.reverse.dropWhile (· == '/')).reverse
  if p.isEmpty then "."
  else if trimmed.isEmpty then "/"
  else ((piecesOf '/' trimmed).getLast?).getD trimmed

/-- The extension of the last element, from its last dot; empty without a dot. -/
def extension (p : String) : String :=
  let name := ((piecesOf '/' p).getLast?).getD p
  match piecesOf '.' name with
  | [] | [_] => ""
  | parts => "." ++ parts.getLast!

/-- The last element without its extension. -/
def stem (p : String) : String :=
  let b := base p
  let e := extension p
  String.ofList (b.toList.take (b.length - e.length))

/-- A name matches a pattern in which `*` stands for any run of characters. -/
def wildcardMatch (pattern name : String) : Bool :=
  let rec go (ps cs : List Char) (fuel : Nat) : Bool :=
    match fuel with
    | 0 => false
    | fuel + 1 =>
      match ps with
      | [] => cs.isEmpty
      | '*' :: rest =>
        -- try every split of the name
        let rec tryFrom (xs : List Char) : Bool :=
          if go rest xs fuel then true
          else match xs with
            | [] => false
            | _ :: more => tryFrom more
        tryFrom cs
      | p :: rest =>
        match cs with
        | c :: more => p == c && go rest more fuel
        | [] => false
  go pattern.toList name.toList (pattern.length + 1)

end Disk
end AgentMemory
