import AgentMemory.Json.Decode
import AgentMemory.Text.Case
import AgentMemory.Text.Number

namespace AgentMemory
namespace Config

/-!
# Loosely typed configuration trees

A configuration document, JSON or YAML, is first read into a loose tree: maps,
lists and scalars, as the document's own reader types them.  JSON numbers are all
doubles; YAML scalars are typed by their form: `~`, `null` and an empty value are
null, `true`/`false` (also capitalised or upper case) are truth values, numbers
with a base prefix or without point are whole numbers, decimal numbers with a point
or exponent are doubles, and everything else is text.  Quoted YAML scalars are
always text.

The YAML reader covers block mappings and sequences by indentation, flow
collections (`[a, b]`, `{k: v}`) that may span lines, plain and quoted scalars and
comments.
-/

/-- A configuration value as its document's reader types it. -/
inductive Loose where
  | null
  | bool (b : Bool)
  | int (n : Int)
  | float (x : Float)
  | text (s : String)
  | list (items : List Loose)
  | map (fields : List (String × Loose))
deriving Inhabited

namespace Loose

/-- The kind of a value, as the decoder's messages name kinds. -/
def kindName : Loose → String
  | .null => "invalid"
  | .bool _ => "bool"
  | .int _ => "int"
  | .float _ => "float64"
  | .text _ => "string"
  | .list _ => "slice"
  | .map _ => "map"

/-- The type of a value, as the decoder's messages name types. -/
def typeName : Loose → String
  | .null => "<nil>"
  | .bool _ => "bool"
  | .int _ => "int"
  | .float _ => "float64"
  | .text _ => "string"
  | .list _ => "[]interface {}"
  | .map _ => "map[string]interface {}"

/-- The member under a key, the last one when repeated. -/
def get? (v : Loose) (key : String) : Option Loose :=
  match v with
  | .map fields => (fields.filter (fun kv => kv.1 == key)).getLast?.map Prod.snd
  | _ => none

/-- One entry per key, the last value of each, in order of first appearance. -/
def dedupe (fields : List (String × Loose)) : List (String × Loose) :=
  fields.foldl (fun acc kv =>
    if acc.any (fun x => x.1 == kv.1) then acc.map (fun x => if x.1 == kv.1 then kv else x)
    else acc ++ [kv]) []

/-- Merge `src` into `dst`: maps merge key by key, anything else replaces. -/
def merge (src dst : Loose) : Loose :=
  match src, dst with
  | .map s, .map d =>
    let step (acc : List (String × Loose)) (kv : String × Loose) : List (String × Loose) :=
      match acc.find? (fun x => x.1 == kv.1) with
      | none => acc ++ [kv]
      | some (_, old) =>
        let merged := match kv.2, old with
          | .map _, .map _ => mergeMaps kv.2 old
          | v, _ => v
        acc.map (fun x => if x.1 == kv.1 then (kv.1, merged) else x)
    .map (s.foldl step d)
  | s, _ => s
where
  /-- Merge two maps one level down. -/
  mergeMaps (src dst : Loose) : Loose :=
    match src, dst with
    | .map s, .map d =>
      .map (s.foldl (fun acc kv =>
        match acc.find? (fun x => x.1 == kv.1) with
        | none => acc ++ [kv]
        | some _ => acc.map (fun x => if x.1 == kv.1 then kv else x)) d)
    | s, _ => s

end Loose

/-- The loose tree of a JSON value: numbers become doubles. -/
def ofJson : Json → Except Failure Loose
  | .null => .ok .null
  | .bool b => .ok (.bool b)
  | .num lit =>
    let x := Json.literalFloat lit
    if x.isInf then .error (Json.mismatch ("number " ++ lit) "float64") else .ok (.float x)
  | .str s => .ok (.text s)
  | .arr xs => (ofJsonItems xs).map Loose.list
  | .obj fields => (ofJsonFields fields).map fun fs => Loose.map (Loose.dedupe fs)
where
  ofJsonItems : List Json → Except Failure (List Loose)
    | [] => .ok []
    | x :: xs => do
      let v ← ofJson x
      let vs ← ofJsonItems xs
      return v :: vs
  ofJsonFields : List (String × Json) → Except Failure (List (String × Loose))
    | [] => .ok []
    | (k, x) :: xs => do
      let v ← ofJson x
      let vs ← ofJsonFields xs
      return (k, v) :: vs

/-- Read a JSON configuration document: an object, or `null` for none. -/
def readJsonDocument (text : String) : Except Failure Loose := do
  let j ← Json.parseDocument text
  match j with
  | .obj _ | .null => ofJson j
  | other => .error (Json.mismatch (Json.kindName other) "map[string]interface {}")

/-! ## YAML -/

/-- Type a plain YAML scalar by its form. -/
def plainScalar (s : String) : Loose :=
  if s.isEmpty || s == "~" || s == "null" || s == "Null" || s == "NULL" then .null
  else if s == "true" || s == "True" || s == "TRUE" then .bool true
  else if s == "false" || s == "False" || s == "FALSE" then .bool false
  else if [".inf", ".Inf", ".INF", "+.inf", "+.Inf", "+.INF"].contains s then .float (1 / 0)
  else if ["-.inf", "-.Inf", "-.INF"].contains s then .float (-(1 / 0))
  else if [".nan", ".NaN", ".NAN"].contains s then .float (0 / 0)
  else
    let first := s.toList.headD ' '
    if first.isDigit || first == '-' || first == '+' || first == '.' then
      let plain := String.ofList (s.toList.filter (· != '_'))
      match Text.parseInt plain with
      | .ok n => .int n
      | .error _ =>
        let body := match plain.toList with
          | '-' :: r => r
          | '+' :: r => r
          | r => r
        let floaty := !body.isEmpty && body.all (fun c => c.isDigit || c == '.' || c == 'e' || c == 'E' || c == '-' || c == '+')
          && (body.head?.map (fun c => c.isDigit || c == '.')).getD false
        if floaty then
          match Text.parseFloat plain with
          | .ok x => .float x
          | .error _ => .text s
        else .text s
    else .text s

/-- A YAML reading failure: the message, and the line it is reported at (none when
the reader gives no line). -/
structure YamlError where
  line : Option Nat
  problem : String
deriving Inhabited

/-- The message of a YAML failure. -/
def YamlError.message (e : YamlError) : String :=
  match e.line with
  | some n => "yaml: line " ++ toString n ++ ": " ++ e.problem
  | none => "yaml: " ++ e.problem

/-- A line of a YAML text: its number, its indentation and its content without
comment. -/
structure Line where
  number : Nat
  indent : Nat
  content : String
deriving Inhabited

/-- Drop a comment: `#` at the start or after a blank, outside quotes. -/
def stripComment (s : String) : String :=
  let rec go (cs : List Char) (prev : Char) (quote : Option Char) (acc : List Char) : List Char :=
    match cs with
    | [] => acc.reverse
    | c :: rest =>
      match quote with
      | some q => go rest c (if c == q then none else some q) (c :: acc)
      | none =>
        if c == '#' && (prev == ' ' || prev == '\t') then acc.reverse
        else if c == '"' || c == '\'' then go rest c (some c) (c :: acc)
        else go rest c none (c :: acc)
  let cs := s.toList
  match cs with
  | '#' :: _ => ""
  | _ => String.ofList ((go cs ' ' none []).reverse.dropWhile (fun c => c == ' ' || c == '\t')).reverse

/-- The content lines of a text, blank and comment lines and document markers
dropped. -/
def contentLines (text : String) : List Line :=
  let raw := text.splitOn "\n"
  (raw.zipIdx.filterMap fun (l, i) =>
    let l := if l.endsWith "\r" then String.ofList l.toList.dropLast else l
    let indent := (l.toList.takeWhile (· == ' ')).length
    let content := stripComment (String.ofList (l.toList.drop indent))
    if content.isEmpty || content == "---" || content == "..." then none
    else some ⟨i, indent, content⟩)

/-- The number of line feeds in a text: the line of its end. -/
def endLine (text : String) : Nat := (text.toList.filter (· == '\n')).length

/-- A line number as the reader reports it: none for the first line. -/
def reported (n : Nat) : Option Nat := if n == 0 then none else some n

/-- Read a double-quoted scalar body; the closing quote ends it. -/
def readDoubleQuoted (cs : List Char) (acc : List Char) : Option (String × List Char) :=
  match cs with
  | [] => none
  | '"' :: rest => some (String.ofList acc.reverse, rest)
  | '\\' :: c :: rest =>
    let e := match c with
      | 'n' => '\n' | 't' => '\t' | 'r' => '\r' | '0' => Char.ofNat 0 | '"' => '"'
      | '\\' => '\\' | '/' => '/' | ' ' => ' ' | _ => c
    readDoubleQuoted rest (e :: acc)
  | c :: rest => readDoubleQuoted rest (c :: acc)

/-- Read a single-quoted scalar body; a doubled quote is a quote. -/
def readSingleQuoted (cs : List Char) (acc : List Char) : Option (String × List Char) :=
  match cs with
  | [] => none
  | '\'' :: '\'' :: rest => readSingleQuoted rest ('\'' :: acc)
  | '\'' :: rest => some (String.ofList acc.reverse, rest)
  | c :: rest => readSingleQuoted rest (c :: acc)

/-- Tokens of flow collections. -/
inductive FlowToken where
  | openList
  | closeList
  | openMap
  | closeMap
  | comma
  | colon
  | scalar (value : Loose) (keyText : String)
deriving Inhabited

/-- Split flow text into tokens. -/
def flowTokens (cs : List Char) (fuel : Nat) : Option (List FlowToken) :=
  match fuel with
  | 0 => some []
  | fuel + 1 =>
    match cs with
    | [] => some []
    | c :: rest =>
      if c == ' ' || c == '\t' || c == '\n' then flowTokens rest fuel
      else if c == '[' then (flowTokens rest fuel).map (.openList :: ·)
      else if c == ']' then (flowTokens rest fuel).map (.closeList :: ·)
      else if c == '\x7b' then (flowTokens rest fuel).map (.openMap :: ·)
      else if c == '\x7d' then (flowTokens rest fuel).map (.closeMap :: ·)
      else if c == ',' then (flowTokens rest fuel).map (.comma :: ·)
      else if c == ':' && (rest.head?.map (fun d => d == ' ' || d == ',' || d == ']' || d == '\x7d' || d == '\n')).getD true then
        (flowTokens rest fuel).map (.colon :: ·)
      else if c == '"' then
        (readDoubleQuoted rest []).bind fun (s, more) =>
          (flowTokens more fuel).map (.scalar (.text s) s :: ·)
      else if c == '\'' then
        (readSingleQuoted rest []).bind fun (s, more) =>
          (flowTokens more fuel).map (.scalar (.text s) s :: ·)
      else
        let stop (xs : List Char) : Bool :=
          match xs with
          | d :: more => d == ',' || d == ']' || d == '[' || d == '\x7b' || d == '\x7d' || d == '\n' ||
            (d == ':' && (more.head?.map (fun e => e == ' ' || e == ',' || e == ']' || e == '\x7d' || e == '\n')).getD true)
          | [] => true
        let rec word (xs : List Char) (acc : List Char) (n : Nat) : List Char × List Char :=
          match n with
          | 0 => (acc.reverse, xs)
          | n + 1 => if stop xs then (acc.reverse, xs) else
            match xs with
            | d :: more => word more (d :: acc) n
            | [] => (acc.reverse, [])
        let (w, more) := word cs [] cs.length
        let w := String.ofList (w.reverse.dropWhile (fun d => d == ' ' || d == '\t')).reverse
        (flowTokens more fuel).map (.scalar (plainScalar w) w :: ·)

/-- The outcome of reading a flow value: the value and the tokens after it, or a
failure with the place it is reported at. -/
inductive FlowResult where
  | done (v : Loose) (rest : List FlowToken)
  /-- The text ended where a value was expected. -/
  | needNode
  /-- The text ended inside a list (`true`) or a map (`false`). -/
  | unclosed (list : Bool)
  | bad

/-- Read one flow value from tokens. -/
def flowValue (ts : List FlowToken) (fuel : Nat) : FlowResult :=
  match fuel with
  | 0 => .bad
  | fuel + 1 =>
    match ts with
    | [] => .needNode
    | .scalar v _ :: rest => .done v rest
    | .openList :: rest => flowList rest [] true fuel
    | .openMap :: rest => flowMap rest [] true fuel
    | _ => .bad
where
  /-- Items of a list after its opening bracket. -/
  flowList (ts : List FlowToken) (acc : List Loose) (first : Bool) (fuel : Nat) : FlowResult :=
    match fuel with
    | 0 => .bad
    | fuel + 1 =>
      match ts with
      | .closeList :: rest => .done (.list acc.reverse) rest
      | [] => if first then .needNode else .unclosed true
      | .comma :: rest => if first then .bad else
          match rest with
          | .closeList :: more => .done (.list acc.reverse) more
          | [] => .needNode
          | _ =>
            match flowValue rest fuel with
            | .done v more => flowList more (v :: acc) false fuel
            | other => other
      | _ => if !first then .bad else
          match flowValue ts fuel with
          | .done v more => flowList more (v :: acc) false fuel
          | other => other
  /-- Entries of a map after its opening brace. -/
  flowMap (ts : List FlowToken) (acc : List (String × Loose)) (first : Bool) (fuel : Nat) : FlowResult :=
    match fuel with
    | 0 => .bad
    | fuel + 1 =>
      let entry (ts : List FlowToken) : FlowResult :=
        match ts with
        | .scalar _ k :: .colon :: rest =>
          match rest with
          | .comma :: _ | .closeMap :: _ => flowMap rest ((k, .null) :: acc) false fuel
          | [] => .needNode
          | _ =>
            match flowValue rest fuel with
            | .done v more => flowMap more ((k, v) :: acc) false fuel
            | other => other
        | .scalar _ k :: rest => flowMap rest ((k, .null) :: acc) false fuel
        | [] => .unclosed false
        | _ => .bad
      match ts with
      | .closeMap :: rest => .done (.map (Loose.dedupe acc.reverse)) rest
      | [] => if first then .unclosed false else .unclosed false
      | .comma :: rest => if first then .bad else
          match rest with
          | .closeMap :: more => .done (.map (Loose.dedupe acc.reverse)) more
          | _ => entry rest
      | _ => if !first then .bad else entry ts

/-- The brackets still open at the end of a text, outside quotes. -/
def openBrackets (s : String) : Int :=
  let rec go (cs : List Char) (quote : Option Char) (depth : Int) : Int :=
    match cs with
    | [] => depth
    | c :: rest =>
      match quote with
      | some q => go rest (if c == q then none else some q) depth
      | none =>
        if c == '"' || c == '\'' then go rest (some c) depth
        else if c == '[' || c == '\x7b' then go rest none (depth + 1)
        else if c == ']' || c == '\x7d' then go rest none (depth - 1)
        else go rest none depth
  go s.toList none 0

/-- Where a mapping key ends in a line: the position of `:` followed by a blank or
the end, outside quotes and brackets. -/
def keyEnd? (s : String) : Option Nat :=
  let cs := s.toList
  let rec go (xs : List Char) (i : Nat) (quote : Option Char) (depth : Nat) : Option Nat :=
    match xs with
    | [] => none
    | c :: rest =>
      match quote with
      | some q => go rest (i + 1) (if c == q then none else some q) depth
      | none =>
        if (c == '"' || c == '\'') && i == 0 then go rest (i + 1) (some c) depth
        else if c == '[' || c == '\x7b' then go rest (i + 1) none (depth + 1)
        else if c == ']' || c == '\x7d' then go rest (i + 1) none (depth - 1)
        else if c == ':' && depth == 0 && (rest.isEmpty || rest.head? == some ' ' || rest.head? == some '\t') then some i
        else go rest (i + 1) none depth
  match cs with
  | '[' :: _ | '\x7b' :: _ => none
  | _ => go cs 0 none 0

/-- The text of a key, unquoted. -/
def keyText (s : String) : String :=
  let t := Text.trimBlank s
  match t.toList with
  | '"' :: rest => ((readDoubleQuoted rest []).map Prod.fst).getD t
  | '\'' :: rest => ((readSingleQuoted rest []).map Prod.fst).getD t
  | _ => t

/-- Join following lines to a flow text until its brackets close. -/
def gatherFlow (acc : String) (ls : List Line) : String × List Line :=
  if openBrackets acc ≤ 0 then (acc, ls)
  else match ls with
    | [] => (acc, [])
    | l :: more => gatherFlow (acc ++ "\n" ++ l.content) more

/-- Read an inline value: a quoted or plain scalar, or a flow collection whose
text continues on the following lines. -/
def inlineValue (text : String) (start : String) (following : List Line) :
    Except YamlError (Loose × List Line) :=
  let s := Text.trimBlank start
  match s.toList with
  | '[' :: _ | '\x7b' :: _ =>
    let (flow, rest) := gatherFlow s following
    let ts := (flowTokens flow.toList (flow.length + 1)).getD []
    match flowValue ts (ts.length * 4 + 4) with
    | .done v [] => .ok (v, rest)
    | .done _ _ => .error ⟨reported (endLine text), "did not find expected <document start>"⟩
    | .needNode => .error ⟨reported (endLine text), "did not find expected node content"⟩
    | .unclosed true => .error ⟨reported (endLine text), "did not find expected ',' or ']'"⟩
    | .unclosed false => .error ⟨reported (endLine text), "did not find expected ',' or '\x7d'"⟩
    | .bad => .error ⟨reported (endLine text), "did not find expected node content"⟩
  | '"' :: rest =>
    match readDoubleQuoted rest [] with
    | some (v, _) => .ok (.text v, following)
    | none => .error ⟨reported (endLine text), "found unexpected end of stream"⟩
  | '\'' :: rest =>
    match readSingleQuoted rest [] with
    | some (v, _) => .ok (.text v, following)
    | none => .error ⟨reported (endLine text), "found unexpected end of stream"⟩
  | _ => .ok (plainScalar s, following)

mutual

/-- Read the block node starting at the first line, at its indentation. -/
def blockNode (text : String) (ls : List Line) (fuel : Nat) : Except YamlError (Loose × List Line) :=
  match fuel with
  | 0 => .ok (.null, ls)
  | fuel + 1 =>
    match ls with
    | [] => .ok (.null, [])
    | l :: rest =>
      if l.content == "-" || "- ".isPrefixOf l.content then blockList text l.indent ls [] fuel
      else match keyEnd? l.content with
        | some _ => blockMap text l.indent ls [] fuel
        | none => inlineValue text l.content rest

/-- The items of a block list at an indentation. -/
def blockList (text : String) (indent : Nat) (ls : List Line) (acc : List Loose) (fuel : Nat) :
    Except YamlError (Loose × List Line) :=
  match fuel with
  | 0 => .ok (.list acc.reverse, ls)
  | fuel + 1 =>
    match ls with
    | l :: rest =>
      if l.indent == indent && (l.content == "-" || "- ".isPrefixOf l.content) then
        let item := Text.trimBlank (String.ofList (l.content.toList.drop 1))
        if item.isEmpty then
          match rest with
          | n :: _ =>
            if n.indent > indent then do
              let (v, more) ← blockNode text rest fuel
              blockList text indent more (v :: acc) fuel
            else blockList text indent rest (.null :: acc) fuel
          | [] => blockList text indent rest (.null :: acc) fuel
        else do
          let inner : Line := ⟨l.number, indent + 2, item⟩
          let (v, more) ← blockNode text (inner :: rest) fuel
          blockList text indent more (v :: acc) fuel
      else .ok (.list acc.reverse, ls)
    | [] => .ok (.list acc.reverse, [])

/-- The entries of a block map at an indentation. -/
def blockMap (text : String) (indent : Nat) (ls : List Line) (acc : List (String × Loose)) (fuel : Nat) :
    Except YamlError (Loose × List Line) :=
  match fuel with
  | 0 => .ok (.map (Loose.dedupe acc.reverse), ls)
  | fuel + 1 =>
    match ls with
    | l :: rest =>
      if l.indent == indent then
        match keyEnd? l.content with
        | none => .error ⟨some (l.number + 1), "could not find expected ':'"⟩
        | some i =>
          let key := keyText (String.ofList (l.content.toList.take i))
          let value := Text.trimBlank (String.ofList (l.content.toList.drop (i + 1)))
          if value.isEmpty then
            match rest with
            | n :: _ =>
              if n.indent > indent || (n.indent == indent && (n.content == "-" || "- ".isPrefixOf n.content)) then do
                let (v, more) ← blockNode text rest fuel
                blockMap text indent more ((key, v) :: acc) fuel
              else blockMap text indent rest ((key, .null) :: acc) fuel
            | [] => blockMap text indent rest ((key, .null) :: acc) fuel
          else do
            let (v, more) ← inlineValue text value rest
            blockMap text indent more ((key, v) :: acc) fuel
      else if l.indent > indent then
        .error ⟨some (l.number + 1), "mapping values are not allowed in this context"⟩
      else .ok (.map (Loose.dedupe acc.reverse), ls)
    | [] => .ok (.map (Loose.dedupe acc.reverse), [])

end

/-- Read a YAML configuration document: a map, or nothing for an empty one. -/
def readYamlDocument (text : String) : Except YamlError Loose := do
  let ls := contentLines text
  let (v, rest) ← blockNode text ls (ls.length * 2 + 2)
  match rest with
  | l :: _ => .error ⟨some (l.number + 1), "did not find expected key"⟩
  | [] =>
    match v with
    | .map _ | .null => .ok v
    | other => .error ⟨none, "unmarshal errors:\n  line 1: cannot unmarshal !!" ++
        (match other with
         | .list _ => "seq"
         | .text _ => "str"
         | .int _ => "int"
         | .float _ => "float"
         | .bool _ => "bool"
         | _ => "str") ++ " into map[string]interface {}"⟩

end Config
end AgentMemory
