namespace AgentMemory

/-!
# Numbers written as text

Settings given as text (environment variables, quoted values) are read as numbers
and truth values the way the program's standard library reads them:

* whole numbers: an optional sign, then decimal digits, or `0x`/`0o`/`0b` and hex,
  octal or binary digits, or a leading `0` and octal digits; an underscore may stand
  only between two digits or between a base prefix and a digit; the value must fit
  in 64 signed bits;
* doubles: an optional sign, decimal digits with an optional point and exponent,
  or `inf`, `infinity`, `nan` in any case; a value beyond the largest double is out
  of range;
* truth values: `1 t T TRUE true True` and `0 f F FALSE false False`.

A text that is not of the form is a syntax error; a well-formed value that does not
fit is a range error.
-/

namespace Decimal

/-! ## The double nearest to a decimal

A decimal `m · 10^e` is read as the double nearest to it, a tie going to the double
with an even mantissa, as every correct reader of decimal numbers does.  The value
is held as an exact fraction `num / den`; the binary exponent `k` is chosen so that
the quotient `num / (den · 2^k)` has 53 bits (or fewer, for the smallest values,
where `k` stops at -1074); the remainder decides the rounding.  Values beyond the
largest double are infinite.
-/

def fraction (m : Nat) (e : Int) : Nat × Nat :=
  if e ≥ 0 then (m * Nat.pow 10 e.toNat, 1) else (m, Nat.pow 10 e.natAbs)

/-- The quotient and remainder of `num / (den · 2^k)`, and the divisor. -/
def divideScaled (num den : Nat) (k : Int) : Nat × Nat × Nat :=
  if k ≥ 0 then
    let d := den * Nat.pow 2 k.toNat
    (num / d, num % d, d)
  else
    let n := num * Nat.pow 2 k.natAbs
    (n / den, n % den, den)

/-- The binary exponent for which the quotient has 53 bits, at least -1074. -/
def binaryExponent (num den : Nat) : Int :=
  let guess : Int := (Nat.log2 num : Int) - (Nat.log2 den : Int) - 52
  -- the guess is off by at most one
  let k := if (divideScaled num den guess).1 ≥ Nat.pow 2 53 then guess + 1
    else if (divideScaled num den guess).1 < Nat.pow 2 52 then guess - 1 else guess
  if k < -1074 then -1074 else k

/-- The bits of the positive double `q · 2^k`, where `q < 2^53`, and `q ≥ 2^52` unless
`k` is the least exponent: the biased exponent above the 52 bits of the fraction, or the
subnormal fraction alone. -/
def packBits (q : Nat) (k : Int) : UInt64 :=
  if q < Nat.pow 2 52 then q.toUInt64
  else ((k + 1075).toNat * Nat.pow 2 52 + (q - Nat.pow 2 52)).toUInt64

/-- The double nearest to `m · 10^e`, ties to even. -/
def nearest (m : Nat) (e : Int) : Float :=
  if m == 0 then 0
  else if e > 400 then Float.ofScientific 1 false 400
  else if e < -400 - (Nat.log2 m : Int) then 0
  else
    let (num, den) := fraction m e
    let k := binaryExponent num den
    let (q, r, d) := divideScaled num den k
    let q := if 2 * r > d || (2 * r == d && q % 2 == 1) then q + 1 else q
    let (q, k) := if q == Nat.pow 2 53 then (Nat.pow 2 52, k + 1) else (q, k)
    if k + 52 > 1023 then Float.ofScientific 1 false 400
    else Float.ofBits (packBits q k)

end Decimal

namespace Text

/-- Why a number could not be read. -/
inductive NumberError where
  | malformed
  | outOfRange
deriving Inhabited, BEq, Repr

/-- The words of a number error. -/
def NumberError.text : NumberError → String
  | .malformed => "invalid syntax"
  | .outOfRange => "value out of range"

/-- The value of a digit in a base. -/
def digitValue (base : Nat) (c : Char) : Option Nat :=
  let v := if c ≥ '0' && c ≤ '9' then some (c.toNat - 48)
    else if c ≥ 'a' && c ≤ 'z' then some (c.toNat - 87)
    else if c ≥ 'A' && c ≤ 'Z' then some (c.toNat - 55)
    else none
  v.bind fun d => if d < base then some d else none

/-- Underscores stand only between digits, or between a base prefix and a digit.
The text is the number without its sign. -/
def underscoresFit (cs : List Char) : Bool :=
  let isPrefix (c : Char) : Bool := c == 'b' || c == 'B' || c == 'o' || c == 'O' || c == 'x' || c == 'X'
  let (start, hex, body) := match cs with
    | '0' :: c :: rest => if isPrefix c then ('0', c == 'x' || c == 'X', rest) else ('^', false, cs)
    | _ => ('^', false, cs)
  let digit (c : Char) : Bool :=
    c.isDigit || (hex && ((c ≥ 'a' && c ≤ 'f') || (c ≥ 'A' && c ≤ 'F')))
  let rec go (saw : Char) : List Char → Bool
    | [] => saw != '_'
    | c :: rest =>
      if digit c then go '0' rest
      else if c == '_' then saw == '0' && go '_' rest
      else saw != '_' && go '!' rest
  go start body

/-- Read digits of a base into a number; underscores are skipped. -/
def readDigits (base : Nat) (cs : List Char) : Option Nat :=
  let ds := cs.filter (· != '_')
  if ds.isEmpty then none
  else ds.foldl (fun acc c => acc.bind fun a => (digitValue base c).map fun d => a * base + d) (some 0)

/-- Read a whole number in 64 signed bits, its base given by its prefix. -/
def parseInt (s : String) : Except NumberError Int :=
  let (neg, body) := match s.toList with
    | '-' :: rest => (true, rest)
    | '+' :: rest => (false, rest)
    | cs => (false, cs)
  let (base, digits) := match body with
    | '0' :: c :: rest =>
      if c == 'x' || c == 'X' then (16, rest)
      else if c == 'o' || c == 'O' then (8, rest)
      else if c == 'b' || c == 'B' then (2, rest)
      else (8, c :: rest)
    | cs => (10, cs)
  if body.isEmpty then .error .malformed
  else if digits.contains '_' && !underscoresFit body then .error .malformed
  else
    match readDigits base digits with
    | none => .error .malformed
    | some v =>
      let n : Int := if neg then -(v : Int) else v
      if n ≥ 9223372036854775808 || n < -9223372036854775808 then .error .outOfRange else .ok n

/-- Read a double: decimal, or an infinity, or not a number. -/
def parseFloat (s : String) : Except NumberError Float :=
  let (neg, body) := match s.toList with
    | '-' :: rest => (true, rest)
    | '+' :: rest => (false, rest)
    | cs => (false, cs)
  let word := String.ofList (body.map Char.toLower)
  let signed (x : Float) : Float := if neg then -x else x
  if word == "inf" || word == "infinity" then .ok (signed (1 / 0))
  else if word == "nan" then .ok (0 / 0)
  else
    let intPart := body.takeWhile Char.isDigit
    let rest := body.drop intPart.length
    let (fracPart, rest) := match rest with
      | '.' :: more => (more.takeWhile Char.isDigit, more.dropWhile Char.isDigit)
      | _ => ([], rest)
    if intPart.isEmpty && fracPart.isEmpty then .error .malformed
    else
      let expo : Option Int := match rest with
        | [] => some 0
        | e :: more =>
          if e == 'e' || e == 'E' then
            let (sgn, ds) := match more with
              | '-' :: ds => (-1, ds)
              | '+' :: ds => (1, ds)
              | ds => (1, ds)
            if !ds.isEmpty && ds.all Char.isDigit then
              some (sgn * ((ds.foldl (fun acc c => acc * 10 + (c.toNat - 48)) 0 : Nat) : Int))
            else none
          else none
      match expo with
      | none => .error .malformed
      | some ex =>
        let digits := intPart ++ fracPart
        let m := digits.foldl (fun acc c => acc * 10 + (c.toNat - 48)) 0
        let x := Decimal.nearest m (ex - fracPart.length)
        if x.isInf then .error .outOfRange else .ok (signed x)

def parseBool (s : String) : Except NumberError Bool :=
  if ["1", "t", "T", "TRUE", "true", "True"].contains s then .ok true
  else if ["0", "f", "F", "FALSE", "false", "False"].contains s then .ok false
  else .error .malformed

end Text
end AgentMemory
