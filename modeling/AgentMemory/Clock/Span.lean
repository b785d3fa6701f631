namespace AgentMemory
namespace Clock

/-!
# Spans of time

A span is a signed number of nanoseconds held in 64 bits: products that leave the
range wrap around, as the program's arithmetic on spans does.

Spans are written with hours, minutes and seconds, the seconds with their fraction
(`1h30m0s`, `2.5s`); spans under a second use the largest of milliseconds,
microseconds (`µs`) or nanoseconds that keeps an integer part (`250ms`, `1µs`); the
zero span is `0s`.

Spans are read as a sequence of decimal numbers, each with an optional fraction and
a unit among `ns`, `us`, `µs`, `μs`, `ms`, `s`, `m` and `h`, with an optional sign
in front; the lone `0` needs no unit.
-/

/-- Nanoseconds in a microsecond, millisecond, second, minute and hour. -/
def microsecond : Int := 1000
def millisecond : Int := 1000000
def second : Int := 1000000000
def minute : Int := 60 * second
def hour : Int := 60 * minute

/-- Wrap an integer into the signed 64-bit range. -/
def wrap64 (n : Int) : Int :=
  let m := n % 18446744073709551616
  if m ≥ 9223372036854775808 then m - 18446744073709551616 else m

/-- The span of a number of days: the count times 24 hours, each product wrapping
into 64 bits. -/
def daysSpan (days : Int) : Int := wrap64 (wrap64 (days * 24) * hour)

/-- Clamp an integer into the signed 64-bit range. -/
def clamp64 (n : Int) : Int :=
  if n > 9223372036854775807 then 9223372036854775807
  else if n < -9223372036854775808 then -9223372036854775808 else n

/-- A double truncated toward zero to a 64-bit whole number, as the machine converts
one: values out of range, and not-a-number, give the smallest whole number. -/
def truncate64 (x : Float) : Int :=
  if x.isNaN || x ≥ 9223372036854775808.0 || x < -9223372036854775808.0 then -9223372036854775808
  else if x < 0 then -((-x).toUInt64.toNat : Int)
  else (x.toUInt64.toNat : Int)

/-- The hours of a span, as a double: whole hours plus the fraction of the rest. -/
def spanHours (d : Int) : Float :=
  Float.ofInt (Int.tdiv d hour) + Float.ofInt (Int.tmod d hour) / (60 * 60 * 1e9)

def digitsOf (n : Nat) : String := String.ofList (Nat.toDigits 10 n)

/-- The fraction `v / 10^prec` after a point, trailing zeros dropped, nothing when it
is zero; and the integer part. -/
def fracText (v : Nat) (prec : Nat) : String × Nat :=
  let scale := Nat.pow 10 prec
  let frac := v % scale
  if frac == 0 then ("", v / scale)
  else
    let ds := Nat.toDigits 10 frac
    let padded := List.replicate (prec - ds.length) '0' ++ ds
    let trimmed := (padded.reverse.dropWhile (· == '0')).reverse
    ("." ++ String.ofList trimmed, v / scale)

/-- The written form of a span of nanoseconds. -/
def spanText (d : Int) : String :=
  let u := d.natAbs
  let sign := if d < 0 then "-" else ""
  if u == 0 then "0s"
  else if u < 1000000000 then
    let (unit, prec) :=
      if u < 1000 then ("ns", 0) else if u < 1000000 then ("µs", 3) else ("ms", 6)
    let (frac, whole) := fracText u prec
    sign ++ digitsOf whole ++ frac ++ unit
  else
    let (frac, secs) := fracText u 9
    let s := secs % 60
    let mins := secs / 60
    let body :=
      if mins == 0 then digitsOf s ++ frac ++ "s"
      else
        let m := mins % 60
        let hours := mins / 60
        (if hours == 0 then "" else digitsOf hours ++ "h") ++ digitsOf m ++ "m" ++
          digitsOf s ++ frac ++ "s"
    sign ++ body

/-- Why a span could not be read. -/
inductive SpanError where
  | invalid (text : String)
  | missingUnit (text : String)
  | unknownUnit (unit : String) (text : String)
deriving Inhabited

/-- Quote text for a message about a span: ASCII stays, with backslash and quote
escaped; control characters and every byte of other characters are written `\xNN`. -/
def quoteSpanText (s : String) : String :=
  let hex (n : Nat) : Char := if n < 10 then Char.ofNat (48 + n) else Char.ofNat (87 + n)
  let body := s.toList.flatMap fun c =>
    if c.toNat ≥ 0x80 || c.toNat < 0x20 then
      (String.singleton c).toUTF8.data.toList.flatMap fun b => ['\\', 'x', hex (b.toNat / 16), hex (b.toNat % 16)]
    else if c == '"' || c == '\\' then ['\\', c]
    else [c]
  String.ofList ('"' :: body ++ ['"'])

/-- The message of a span error. -/
def SpanError.message : SpanError → String
  | .invalid t => "time: invalid duration " ++ quoteSpanText t
  | .missingUnit t => "time: missing unit in duration " ++ quoteSpanText t
  | .unknownUnit u t => "time: unknown unit " ++ quoteSpanText u ++ " in duration " ++ quoteSpanText t

/-- Nanoseconds in one unit. -/
def unitValue? (u : String) : Option Nat :=
  match u with
  | "ns" => some 1
  | "us" => some 1000
  | "µs" => some 1000
  | "μs" => some 1000
  | "ms" => some 1000000
  | "s" => some 1000000000
  | "m" => some 60000000000
  | "h" => some 3600000000000
  | _ => none

/-- A limit of the magnitude of spans while reading: `2^63`. -/
def spanLimit : Nat := Nat.pow 2 63

/-- Leading digits as a number, refusing values past `2^63`. -/
def leadingInt (cs : List Char) : Option (Nat × List Char) :=
  let ds := cs.takeWhile Char.isDigit
  let rest := cs.drop ds.length
  let step (acc : Option Nat) (c : Char) : Option Nat :=
    match acc with
    | none => none
    | some x =>
      if x > spanLimit / 10 then none
      else
        let y := x * 10 + (c.toNat - 48)
        if y > spanLimit then none else some y
  (ds.foldl step (some 0)).map (fun v => (v, rest))

/-- Leading digits of a fraction: the digits as a number, the power of ten they are
over, and the rest; digits past the precision that fits are skipped. -/
def leadingFraction (cs : List Char) : Nat × Float × List Char :=
  let ds := cs.takeWhile Char.isDigit
  let rest := cs.drop ds.length
  let step (acc : Nat × Float × Bool) (c : Char) : Nat × Float × Bool :=
    let (x, scale, overflow) := acc
    if overflow then acc
    else if x > (spanLimit - 1) / 10 then (x, scale, true)
    else
      let y := x * 10 + (c.toNat - 48)
      if y > spanLimit then (x, scale, true) else (y, scale * 10, false)
  let (x, scale, _) := ds.foldl step (0, 1, false)
  (x, scale, rest)

/-- Read a span. -/
def parseSpan (text : String) : Except SpanError Int :=
  let orig := text
  let (neg, cs) := match text.toList with
    | '-' :: rest => (true, rest)
    | '+' :: rest => (false, rest)
    | cs => (false, cs)
  if cs == ['0'] then .ok 0
  else if cs.isEmpty then .error (.invalid orig)
  else
    let rec go (fuel : Nat) (cs : List Char) (total : Nat) : Except SpanError Nat :=
      match fuel with
      | 0 => .ok total
      | fuel + 1 =>
        match cs with
        | [] => .ok total
        | c :: _ =>
          if !(c == '.' || c.isDigit) then .error (.invalid orig)
          else
            match leadingInt cs with
            | none => .error (.invalid orig)
            | some (v, rest) =>
              let pre := rest.length != cs.length
              let (f, scale, rest, post) := match rest with
                | '.' :: more =>
                  let (f, scale, after) := leadingFraction more
                  (f, scale, after, after.length != more.length)
                | _ => (0, 1, rest, false)
              if !pre && !post then .error (.invalid orig)
              else
                let unit := rest.takeWhile (fun ch => !(ch == '.' || ch.isDigit))
                let rest := rest.drop unit.length
                if unit.isEmpty then .error (.missingUnit orig)
                else
                  match unitValue? (String.ofList unit) with
                  | none => .error (.unknownUnit (String.ofList unit) orig)
                  | some u =>
                    if v > spanLimit / u then .error (.invalid orig)
                    else
                      let v := v * u
                      let v := if f > 0 then v + (f.toFloat * (u.toFloat / scale)).toUInt64.toNat else v
                      if v > spanLimit then .error (.invalid orig)
                      else
                        let total := total + v
                        if total > spanLimit then .error (.invalid orig)
                        else go fuel rest total
    match go (cs.length + 1) cs 0 with
    | .error e => .error e
    | .ok total =>
      if neg then .ok (-(total : Int))
      else if total > spanLimit - 1 then .error (.invalid orig)
      else .ok total

end Clock
end AgentMemory
