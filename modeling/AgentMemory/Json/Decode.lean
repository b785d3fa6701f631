import AgentMemory.Json.Read
import AgentMemory.Failure
import AgentMemory.Clock.Instant
import AgentMemory.Text.Number

namespace AgentMemory
namespace Json

/-!
# Reading records out of documents

A record is read from an object member by member, in written order.  A member
whose name matches a field case-insensitively sets that field; other members are
ignored; a member written twice is read twice, so the last one wins.  `null` leaves a
field as it was (a list or an optional value becomes absent).

A member of the wrong kind (a number where text is expected) does not stop the
reading: the field keeps its value, the other members are still read, and at the end
the record is refused as mismatched.  A failure of another kind, such as a timestamp
that does not read as a time, stops the reading at once and is the one reported.
-/

/-- A mismatch between a document value and the kind of value it is read into. -/
def mismatch (what : String) (into : String) : Failure :=
  ⟨.mismatchedValue, "json: cannot unmarshal " ++ what ++ " into Go value of type " ++ into⟩

/-- The kind of a value as the mismatch message names it. -/
def kindName : Json → String
  | .null => "null"
  | .bool _ => "bool"
  | .num _ => "number"
  | .str _ => "string"
  | .arr _ => "array"
  | .obj _ => "object"

/-- Read a text; `null` keeps the current one. -/
def readString (j : Json) (current : String) : Except Failure String :=
  match j with
  | .null => .ok current
  | .str s => .ok s
  | other => .error (mismatch (kindName other) "string")

/-- Read a truth value; `null` keeps the current one. -/
def readBool (j : Json) (current : Bool) : Except Failure Bool :=
  match j with
  | .null => .ok current
  | .bool b => .ok b
  | other => .error (mismatch (kindName other) "bool")

/-- The parts of a number literal: sign, digits without the point, and the power of
ten they are scaled by. -/
def numberParts (lit : String) : Bool × Nat × Int :=
  let cs := lit.toList
  let (neg, cs) := match cs with
    | '-' :: rest => (true, rest)
    | _ => (false, cs)
  let intDigits := cs.takeWhile Char.isDigit
  let cs := cs.drop intDigits.length
  let (fracDigits, cs) := match cs with
    | '.' :: rest => (rest.takeWhile Char.isDigit, rest.dropWhile Char.isDigit)
    | _ => ([], cs)
  let expo : Int := match cs with
    | e :: rest =>
      if e == 'e' || e == 'E' then
        let (sgn, ds) := match rest with
          | '-' :: ds => (-1, ds)
          | '+' :: ds => (1, ds)
          | ds => (1, ds)
        sgn * ((ds.foldl (fun acc c => acc * 10 + (c.toNat - 48)) 0 : Nat) : Int)
      else 0
    | [] => 0
  let digits := intDigits ++ fracDigits
  (neg, digits.foldl (fun acc c => acc * 10 + (c.toNat - 48)) 0, expo - fracDigits.length)

/-- The double nearest to a number literal. -/
def literalFloat (lit : String) : Float :=
  let (neg, m, e) := numberParts lit
  let x := Decimal.nearest m e
  if neg then -x else x

/-- The integer of a literal written without point or exponent. -/
def literalInt? (lit : String) : Option Int :=
  if lit.toList.any (fun c => c == '.' || c == 'e' || c == 'E') then none
  else
    let (neg, m, _) := numberParts lit
    some (if neg then -(m : Int) else m)

/-- Read a 64-bit integer; `null` keeps the current one. -/
def readInt (j : Json) (current : Int) : Except Failure Int :=
  match j with
  | .null => .ok current
  | .num lit =>
    match literalInt? lit with
    | some n => if n < -9223372036854775808 || n ≥ 9223372036854775808 then .error (mismatch ("number " ++ lit) "int") else .ok n
    | none => .error (mismatch ("number " ++ lit) "int")
  | other => .error (mismatch (kindName other) "int")

/-- Read a double; `null` keeps the current one.  A literal beyond the largest
double does not fit. -/
def readFloat (j : Json) (current : Float) : Except Failure Float :=
  match j with
  | .null => .ok current
  | .num lit =>
    let x := literalFloat lit
    if x.isInf then .error (mismatch ("number " ++ lit) "float64") else .ok x
  | other => .error (mismatch (kindName other) "float64")

/-- Read an optional integer: `null` makes it absent. -/
def readOptInt (j : Json) : Except Failure (Option Int) :=
  match j with
  | .null => .ok none
  | other => (readInt other 0).map some

/-- Read a list of texts: `null` makes it absent, `null` items are empty texts, and an
item of the wrong kind is a mismatch once all items are read. -/
def readStrings (j : Json) : Except Failure (Option (List String)) :=
  match j with
  | .null => .ok none
  | .arr xs =>
    let results := xs.map (fun x => readString x "")
    match results.find? (fun r => match r with | .error _ => true | .ok _ => false) with
    | some (.error e) => .error e
    | _ => .ok (some (results.filterMap (fun r => match r with | .ok s => some s | .error _ => none)))
  | other => .error (mismatch (kindName other) "[]string")

/-- Read a timestamp written as RFC 3339 text; `null` keeps the current one. -/
def readInstant (j : Json) (current : Clock.Instant) : Except Failure Clock.Instant :=
  match j with
  | .null => .ok current
  | .str s =>
    match Clock.Instant.parseRfc3339 s with
    | some t => .ok t
    | none => .error ⟨.malformedTime, "parsing time " ++ s ++ " as RFC 3339"⟩
  | _ => .error (Failure.plain "Time.UnmarshalJSON: input is not a JSON string")

/-- How one field of a record is read. -/
structure Field (σ : Type) where
  name : String
  read : Json → σ → Except Failure σ

/-- Read a record from an object: members in order, mismatches remembered until the
end, other failures at once.  `null` leaves the record as it was; a value that is not
an object is a mismatch. -/
def readRecord {σ : Type} (fields : List (Field σ)) (init : σ) (what : String) (j : Json) :
    Except Failure σ :=
  match j with
  | .null => .ok init
  | .obj members =>
    let step (acc : Except Failure (σ × Option Failure)) (kv : String × Json) :
        Except Failure (σ × Option Failure) :=
      match acc with
      | .error e => .error e
      | .ok (s, soft) =>
        match fields.find? (fun f => namesMatch kv.1 f.name) with
        | none => .ok (s, soft)
        | some f =>
          match f.read kv.2 s with
          | .ok s' => .ok (s', soft)
          | .error e => if e.isMismatch then .ok (s, soft.orElse (fun _ => some e)) else .error e
    match members.foldl step (.ok (init, none)) with
    | .error e => .error e
    | .ok (s, none) => .ok s
    | .ok (_, some e) => .error e
  | other => .error (mismatch (kindName other) what)

/-- Read a list of records: `null` makes it absent, items are read like a record from
its zero value, and a mismatch in one item is reported once all items are read. -/
def readList {α : Type} (item : Json → Except Failure α) (what : String) (j : Json) :
    Except Failure (Option (List α)) :=
  match j with
  | .null => .ok none
  | .arr xs =>
    let step (acc : Except Failure (List α × Option Failure)) (x : Json) :
        Except Failure (List α × Option Failure) :=
      match acc with
      | .error e => .error e
      | .ok (out, soft) =>
        match item x with
        | .ok v => .ok (v :: out, soft)
        | .error e => if e.isMismatch then .ok (out, soft.orElse (fun _ => some e)) else .error e
    match xs.foldl step (.ok ([], none)) with
    | .error e => .error e
    | .ok (out, none) => .ok (some out.reverse)
    | .ok (_, some e) => .error e
  | other => .error (mismatch (kindName other) what)

/-- Read a whole text as a document, a malformed text failing with the reader's
message. -/
def parseDocument (text : String) : Except Failure Json :=
  match parse text with
  | .ok j => .ok j
  | .error e => .error ⟨.malformedDocument, e.message⟩

end Json
end AgentMemory
