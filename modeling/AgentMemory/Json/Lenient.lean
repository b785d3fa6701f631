import AgentMemory.Json.Read
import AgentMemory.Json.Decode

namespace AgentMemory
namespace Json

/-!
# Lenient reading

Requests made of documents are read leniently: a member that is missing, `null` or
of the wrong kind reads as the zero of its kind, the empty text, `false`, zero or
the empty list.  Numbers are read as the strict decoder reads them, so a number
that does not fit reads as zero too.
-/

/-- A member that is present and not `null`. -/
def present? (j : Json) (key : String) : Option Json :=
  match j.get? key with
  | none | some .null => none
  | some v => some v

def memberAt (j : Json) (key : String) : Json := (j.get? key).getD .null

def textAt (j : Json) (key : String) : String := ((j.get? key).bind str?).getD ""

def flagAt (j : Json) (key : String) : Bool := ((j.get? key).bind bool?).getD false

/-- The texts of a list member; items of another kind are skipped. -/
def textsAt (j : Json) (key : String) : List String := (memberAt j key).items.filterMap str?

def wholeOf (v : Json) : Int := (readInt v 0).toOption.getD 0

def wholeAt (j : Json) (key : String) : Int := ((j.get? key).map wholeOf).getD 0

def realAt (j : Json) (key : String) : Float :=
  ((j.get? key).map fun v => (readFloat v 0).toOption.getD 0).getD 0

/-- The members of an object member whose values are texts. -/
def textMembersAt (j : Json) (key : String) : List (String × String) :=
  (memberAt j key).members.filterMap fun kv => kv.2.str?.map fun v => (kv.1, v)

/-- The last value of each key, keys sorted. -/
def lastOfEach (fs : List (String × Json)) : List (String × Json) :=
  let last := fs.foldl (fun acc kv => (acc.filter (·.1 != kv.1)) ++ [kv]) []
  last.mergeSort (fun a b => decide (a.1 ≤ b.1))

mutual
/-- A document with the keys of every object sorted, the last of equal keys kept:
the form in which two documents that differ only in member order are equal. -/
def sortKeys : Json → Json
  | .arr xs => .arr (sortKeysItems xs)
  | .obj fs => .obj (lastOfEach (sortKeysMembers fs))
  | j => j

/-- `sortKeys` over items. -/
def sortKeysItems : List Json → List Json
  | [] => []
  | x :: xs => sortKeys x :: sortKeysItems xs

/-- `sortKeys` over members. -/
def sortKeysMembers : List (String × Json) → List (String × Json)
  | [] => []
  | (k, v) :: fs => (k, sortKeys v) :: sortKeysMembers fs
end

/-- The documents of a text made of documents one after another, blanks between
them; `none` when the text holds none or is not such a sequence.  Every document
read takes at least one character, so the text's length bounds the reads. -/
def parseStream (text : String) : Option (List Json) :=
  let rec go (fuel : Nat) (cs : List Char) (acc : List Json) : Option (List Json) :=
    match skipBlanks cs with
    | [] => if acc.isEmpty then none else some acc.reverse
    | rest =>
      match fuel with
      | 0 => none
      | fuel + 1 =>
        match parsePrefix (String.ofList rest) with
        | .ok (v, more) => go fuel more (v :: acc)
        | .error _ => none
  go (text.length + 1) text.toList []

end Json
end AgentMemory
