import AgentMemory.Json.Value

namespace AgentMemory
namespace Json

/-!
# Reading JSON text

The reader accepts exactly the JSON grammar: blanks are space, tab, line feed and
carriage return; numbers are `-? (0 | [1-9][0-9]*) (. [0-9]+)? ([eE] [+-]? [0-9]+)?`;
strings hold no raw control character.  A `\u` escape of a lone surrogate reads as
U+FFFD, and a surrogate pair as the character it encodes.

On malformed text it reports the first character at which no document can continue,
with what was expected there, or that the text ended too soon.  The reported
character is the first byte of its UTF-8 encoding, as a reader of bytes sees it.
-/

/-- Why a text is not a JSON document. -/
inductive ReadError where
  | unexpectedEnd
  | invalid (c : Char) (context : String)
deriving Inhabited

/-- The first byte of a character's UTF-8 encoding, read as a code point. -/
def leadByte (c : Char) : Nat :=
  let n := c.toNat
  if n < 0x80 then n
  else if n < 0x800 then 0xC0 + n / 64
  else if n < 0x10000 then 0xE0 + n / 4096
  else 0xF0 + n / 262144

/-- A character is printable in quoted character text: ASCII graphic characters and
the space, and the Latin-1 letters and signs from U+00A1 on, soft hyphen excepted. -/
def printableByte (n : Nat) : Bool :=
  (0x20 ≤ n && n < 0x7F) || (0xA1 ≤ n && n ≤ 0xFF && n != 0xAD)

/-- The quoted form of an offending byte, `'x'`, with escapes for the unprintable. -/
def quoteByte (n : Nat) : String :=
  let body : List Char :=
    if n == 0x27 then ['\\', '\'']
    else if n == 0x5C then ['\\', '\\']
    else if n == 7 then ['\\', 'a']
    else if n == 8 then ['\\', 'b']
    else if n == 12 then ['\\', 'f']
    else if n == 10 then ['\\', 'n']
    else if n == 13 then ['\\', 'r']
    else if n == 9 then ['\\', 't']
    else if n == 11 then ['\\', 'v']
    else if printableByte n then [Char.ofNat n]
    else if n < 0x80 then ['\\', 'x', hexLower (n / 16), hexLower (n % 16)]
    else ['\\', 'u', '0', '0', hexLower (n / 16), hexLower (n % 16)]
  String.ofList ('\'' :: body ++ ['\''])
where
  hexLower (d : Nat) : Char :=
    if d < 10 then Char.ofNat ('0'.toNat + d) else Char.ofNat ('a'.toNat + d - 10)

/-- The message of a reading error. -/
def ReadError.message : ReadError → String
  | .unexpectedEnd => "unexpected end of JSON input"
  | .invalid c ctx => "invalid character " ++ quoteByte (leadByte c) ++ " " ++ ctx

/-- A blank between tokens. -/
def isBlank (c : Char) : Bool :=
  c == ' ' || c == '\t' || c == '\n' || c == '\r'

def skipBlanks : List Char → List Char
  | [] => []
  | c :: rest => if isBlank c then skipBlanks rest else c :: rest

/-- The value of a hexadecimal digit. -/
def hexValue? (c : Char) : Option Nat :=
  if '0' ≤ c && c ≤ '9' then some (c.toNat - '0'.toNat)
  else if 'a' ≤ c && c ≤ 'f' then some (c.toNat - 'a'.toNat + 10)
  else if 'A' ≤ c && c ≤ 'F' then some (c.toNat - 'A'.toNat + 10)
  else none

/-- Four hex digits after `\u`: their value and the rest of the text. -/
def readHex4 (cs : List Char) : Except ReadError (Nat × List Char) :=
  let rec go : Nat → Nat → List Char → Except ReadError (Nat × List Char)
    | 0, acc, rest => .ok (acc, rest)
    | _ + 1, _, [] => .error .unexpectedEnd
    | k + 1, acc, c :: rest =>
      match hexValue? c with
      | some d => go k (acc * 16 + d) rest
      | none => .error (.invalid c "in \\u hexadecimal character escape")
  go 4 0 cs

/-- A surrogate half: the code unit lies in `D800..DFFF`. -/
def isSurrogate (n : Nat) : Bool := 0xD800 ≤ n && n < 0xE000

/-- Read a `\u` escape pair `\uD8xx\uDCxx` if the text continues with a low
surrogate; the combined code point and the rest. -/
def lowSurrogate? (high : Nat) (cs : List Char) : Option (Nat × List Char) :=
  match cs with
  | '\\' :: 'u' :: rest =>
    match readHex4 rest with
    | .ok (low, rest') =>
      if high < 0xDC00 && 0xDC00 ≤ low && low < 0xE000 then
        some (0x10000 + (high - 0xD800) * 1024 + (low - 0xDC00), rest')
      else none
    | .error _ => none
  | _ => none

/-- The body of a string after its opening quote: the text and what follows the
closing quote.  Every step consumes at least one character. -/
def readStringBody (cs : List Char) (acc : List Char) : Except ReadError (String × List Char) :=
  match cs with
  | [] => .error .unexpectedEnd
  | '"' :: rest => .ok (String.ofList acc.reverse, rest)
  | '\\' :: rest =>
    match rest with
    | [] => .error .unexpectedEnd
    | e :: rest' =>
      if e == 'u' then
        match readHex4 rest' with
        | .error err => .error err
        | .ok (n, rest'') =>
          if isSurrogate n then
            match lowSurrogate? n rest'' with
            | some (cp, after) =>
              if after.length ≤ rest'.length then readStringBody after (Char.ofNat cp :: acc)
              else .error .unexpectedEnd
            | none =>
              if rest''.length ≤ rest'.length then readStringBody rest'' ('�' :: acc)
              else .error .unexpectedEnd
          else if rest''.length ≤ rest'.length then readStringBody rest'' (Char.ofNat n :: acc)
          else .error .unexpectedEnd
      else
        let decoded? : Option Char :=
          if e == '"' then some '"' else if e == '\\' then some '\\'
          else if e == '/' then some '/' else if e == 'b' then some (Char.ofNat 8)
          else if e == 'f' then some (Char.ofNat 12) else if e == 'n' then some '\n'
          else if e == 'r' then some '\r' else if e == 't' then some '\t' else none
        match decoded? with
        | some d => readStringBody rest' (d :: acc)
        | none => .error (.invalid e "in string escape code")
  | c :: rest =>
    if c.toNat < 0x20 then .error (.invalid c "in string literal")
    else readStringBody rest (c :: acc)
termination_by cs.length
decreasing_by all_goals (simp_all <;> omega)

def spanDigits (cs : List Char) : List Char × List Char :=
  (cs.takeWhile Char.isDigit, cs.dropWhile Char.isDigit)

/-- The integer part of a number literal: `0` alone, or a digit and the digits after it. -/
def readIntegerPart (cs : List Char) : Except ReadError (List Char × List Char) :=
  match cs with
  | [] => .error (.invalid ' ' "in numeric literal")
  | '0' :: rest => .ok (['0'], rest)
  | c :: rest =>
    if c.isDigit then
      let (ds, rest') := spanDigits rest
      .ok (c :: ds, rest')
    else .error (.invalid c "in numeric literal")

/-- The fraction of a number literal: a point and at least one digit, or nothing when no
point follows. -/
def readFraction (cs : List Char) : Except ReadError (List Char × List Char) :=
  match cs with
  | '.' :: rest =>
    match rest with
    | [] => .error (.invalid ' ' "after decimal point in numeric literal")
    | c :: _ =>
      if c.isDigit then
        let (ds, rest') := spanDigits rest
        .ok ('.' :: ds, rest')
      else .error (.invalid c "after decimal point in numeric literal")
  | _ => .ok ([], cs)

/-- The sign of an exponent, if any, and the rest. -/
def exponentSign (cs : List Char) : List Char × List Char :=
  match cs with
  | '+' :: r => (['+'], r)
  | '-' :: r => (['-'], r)
  | r => ([], r)

/-- The exponent of a number literal: `e` or `E`, an optional sign and at least one
digit, or nothing when no exponent follows. -/
def readExponent (cs : List Char) : Except ReadError (List Char × List Char) :=
  match cs with
  | e :: rest =>
    if e == 'e' || e == 'E' then
      let (sgn, rest) := exponentSign rest
      match rest with
      | [] => .error (.invalid ' ' "in exponent of numeric literal")
      | c :: _ =>
        if c.isDigit then
          let (ds, rest') := spanDigits rest
          .ok (e :: sgn ++ ds, rest')
        else .error (.invalid c "in exponent of numeric literal")
    else .ok ([], e :: rest)
  | [] => .ok ([], [])

/-- The sign of a number literal, if any, and the rest. -/
def numberSign (cs : List Char) : List Char × List Char :=
  match cs with
  | '-' :: rest => (['-'], rest)
  | _ => ([], cs)

/-- A number literal: its text and the rest.  The text starts at `-` or a digit. -/
def readNumber (cs : List Char) : Except ReadError (String × List Char) := do
  let (sign, cs) := numberSign cs
  let (intPart, cs) ← readIntegerPart cs
  let (frac, cs) ← readFraction cs
  let (expo, cs) ← readExponent cs
  pure (String.ofList (sign ++ intPart ++ frac ++ expo), cs)

/-- The rest of a literal word after its first letter.  A text that ends inside a
number or a word is refused as if a blank followed. -/
def readWord (word : String) (expect : List Char) (cs : List Char) :
    Except ReadError (List Char) :=
  match expect, cs with
  | [], rest => .ok rest
  | e :: _, [] => .error (.invalid ' ' ("in literal " ++ word ++ " (expecting " ++ quoteByte e.toNat ++ ")"))
  | e :: es, c :: rest =>
    if c == e then readWord word es rest
    else .error (.invalid c ("in literal " ++ word ++ " (expecting " ++ quoteByte e.toNat ++ ")"))

mutual
/-- One value after optional blanks, and the rest.  `fuel` bounds the nesting. -/
def readValue (fuel : Nat) (cs : List Char) : Except ReadError (Json × List Char) :=
  match fuel with
  | 0 => .error .unexpectedEnd
  | fuel + 1 =>
    match skipBlanks cs with
    | [] => .error .unexpectedEnd
    | c :: rest =>
      if c == '\x7b' then readObject fuel (skipBlanks rest)
      else if c == '[' then readArray fuel (skipBlanks rest)
      else if c == '"' then
        match readStringBody rest [] with
        | .ok (s, rest') => .ok (.str s, rest')
        | .error e => .error e
      else if c == '-' || c.isDigit then
        match readNumber (c :: rest) with
        | .ok (n, rest') => .ok (.num n, rest')
        | .error e => .error e
      else if c == 't' then
        match readWord "true" ['r', 'u', 'e'] rest with
        | .ok rest' => .ok (.bool true, rest')
        | .error e => .error e
      else if c == 'f' then
        match readWord "false" ['a', 'l', 's', 'e'] rest with
        | .ok rest' => .ok (.bool false, rest')
        | .error e => .error e
      else if c == 'n' then
        match readWord "null" ['u', 'l', 'l'] rest with
        | .ok rest' => .ok (.null, rest')
        | .error e => .error e
      else .error (.invalid c "looking for beginning of value")

/-- Array items after `[` and blanks. -/
def readArray (fuel : Nat) (cs : List Char) : Except ReadError (Json × List Char) :=
  match cs with
  | ']' :: rest => .ok (.arr [], rest)
  | _ =>
    match readItems fuel cs [] with
    | .ok (xs, rest) => .ok (.arr xs, rest)
    | .error e => .error e

/-- Items of a non-empty array, accumulated in reverse. -/
def readItems (fuel : Nat) (cs : List Char) (acc : List Json) :
    Except ReadError (List Json × List Char) :=
  match fuel with
  | 0 => .error .unexpectedEnd
  | fuel + 1 =>
    match readValue fuel cs with
    | .error e => .error e
    | .ok (v, rest) =>
      match skipBlanks rest with
      | [] => .error .unexpectedEnd
      | ',' :: rest' => readItems fuel rest' (v :: acc)
      | ']' :: rest' => .ok ((v :: acc).reverse, rest')
      | c :: _ => .error (.invalid c "after array element")

/-- Object members after `{` and blanks. -/
def readObject (fuel : Nat) (cs : List Char) : Except ReadError (Json × List Char) :=
  match cs with
  | '\x7d' :: rest => .ok (.obj [], rest)
  | _ =>
    match readMembers fuel cs [] with
    | .ok (fs, rest) => .ok (.obj fs, rest)
    | .error e => .error e

/-- Members of a non-empty object, accumulated in reverse; the text starts at the
blank-free position where a member name must begin. -/
def readMembers (fuel : Nat) (cs : List Char) (acc : List (String × Json)) :
    Except ReadError (List (String × Json) × List Char) :=
  match fuel with
  | 0 => .error .unexpectedEnd
  | fuel + 1 =>
    match cs with
    | [] => .error .unexpectedEnd
    | '"' :: rest =>
      match readStringBody rest [] with
      | .error e => .error e
      | .ok (key, rest') =>
        match skipBlanks rest' with
        | [] => .error .unexpectedEnd
        | ':' :: rest'' =>
          match readValue fuel rest'' with
          | .error e => .error e
          | .ok (v, after) =>
            match skipBlanks after with
            | [] => .error .unexpectedEnd
            | ',' :: more => readMembers fuel (skipBlanks more) ((key, v) :: acc)
            | '\x7d' :: more => .ok (((key, v) :: acc).reverse, more)
            | c :: _ => .error (.invalid c "after object key:value pair")
        | c :: _ => .error (.invalid c "after object key")
    | c :: _ => .error (.invalid c "looking for beginning of object key string")
end

/-- Read a whole text as one document; only blanks may follow it. -/
def parse (s : String) : Except ReadError Json :=
  let cs := s.toList
  match readValue (3 * cs.length + 3) cs with
  | .error e => .error e
  | .ok (v, rest) =>
    match skipBlanks rest with
    | [] => .ok v
    | c :: _ => .error (.invalid c "after top-level value")

/-- Read the first document of a text, ignoring what follows it. -/
def parsePrefix (s : String) : Except ReadError (Json × List Char) :=
  let cs := s.toList
  readValue (3 * cs.length + 3) cs

end Json
end AgentMemory
