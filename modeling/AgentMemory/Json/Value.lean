namespace AgentMemory

/-!
# JSON documents

Every store of the memory keeps its state as a JSON document, and every answer of
the program is one.  A document here is a plain tree: objects keep their members in
written order, repeated keys included, and numbers keep the text they were written
with, so that a member the program does not interpret is written back exactly as it
was read.

Lookups follow the rule of the document reader the stores are defined against: a
member name matches a field name case-insensitively, and when a name occurs twice
the last occurrence wins.
-/

/-- A JSON document tree. -/
inductive Json where
  | null
  | bool (value : Bool)
  | num (literal : String)
  | str (value : String)
  | arr (items : List Json)
  | obj (fields : List (String × Json))
deriving Inhabited

namespace Json

/-- The member of an object under exactly this name, the last one when repeated. -/
def get? (j : Json) (key : String) : Option Json :=
  match j with
  | .obj fields => (fields.filter (fun kv => kv.1 == key)).getLast?.map Prod.snd
  | _ => none

/-- Object members, empty for any other value. -/
def members : Json → List (String × Json)
  | .obj fields => fields
  | _ => []

/-- Array items, empty for any other value. -/
def items : Json → List Json
  | .arr xs => xs
  | _ => []

def str? : Json → Option String
  | .str s => some s
  | _ => none

def bool? : Json → Option Bool
  | .bool b => some b
  | _ => none

/-- The value is `null`. -/
def isNull : Json → Bool
  | .null => true
  | _ => false

def ofNat (n : Nat) : Json := .num (toString n)

def ofInt (n : Int) : Json := .num (toString n)

def ofStrings (xs : List String) : Json := .arr (xs.map .str)

/-- A list that may be absent: `null` when absent. -/
def ofStrings? (xs : Option (List String)) : Json :=
  match xs with
  | none => .null
  | some xs => ofStrings xs

/-- Replace or append a member of an object, keeping the position of the first. -/
def set (j : Json) (key : String) (v : Json) : Json :=
  match j with
  | .obj fields =>
    if fields.any (fun kv => kv.1 == key) then
      .obj (fields.map (fun kv => if kv.1 == key then (key, v) else kv))
    else .obj (fields ++ [(key, v)])
  | _ => .obj [(key, v)]

end Json

/-- Case folding of member names: ASCII letters, the Kelvin sign and the long s fold
to the lower-case ASCII letter they stand for.  Field names are ASCII, so no other
character can make two names match. -/
def foldNameChar (c : Char) : Char :=
  if c.toNat == 0x212A then 'k'
  else if c.toNat == 0x17F then 's'
  else c.toLower

/-- Member names compare equal under `foldNameChar`. -/
def namesMatch (a b : String) : Bool :=
  a.toList.map foldNameChar == b.toList.map foldNameChar

namespace Json

/-- The member of an object whose name matches `key` case-insensitively; of several
the last one is taken. -/
def field? (j : Json) (key : String) : Option Json :=
  match j with
  | .obj fields =>
    (fields.filter (fun kv => namesMatch kv.1 key)).getLast?.map Prod.snd
  | _ => none

end Json

end AgentMemory
