import AgentMemory.Clock.Span

namespace AgentMemory
namespace Clock

/-!
# Instants

An instant is a number of nanoseconds since 1970-01-01T00:00:00Z, together with the
offset from UTC at which it was written, so that a time read with `+02:00` is written
back with `+02:00`.  Comparisons use the nanoseconds only.

The calendar is the proleptic Gregorian one.  The zero instant, which stands for "not
set", is 0001-01-01T00:00:00Z.

Instants are written as RFC 3339 text with the fraction of the second written only as
far as it is not zero (`2025-01-15T12:00:00Z`, `2024-06-01T00:00:00.5Z`).  They are
read by layouts: RFC 3339 with any fraction, and the forms without a zone
(`2006-01-02T15:04:05`, `2006-01-02 15:04:05`, `2006-01-02`), read as UTC.
-/

/-- A moment in time with the offset it is written at. -/
structure Instant where
  nanos : Int
  offset : Int := 0
deriving Inhabited, Repr, DecidableEq

namespace Instant

/-- Days since 1970-01-01 of a civil date. -/
def daysFromCivil (y : Int) (m d : Nat) : Int :=
  let y := if m ≤ 2 then y - 1 else y
  let era := y / 400
  let yoe := y - era * 400
  let mp : Int := if m > 2 then (m : Int) - 3 else (m : Int) + 9
  let doy := (153 * mp + 2) / 5 + (d : Int) - 1
  let doe := yoe * 365 + yoe / 4 - yoe / 100 + doy
  era * 146097 + doe - 719468

/-- The civil date of a day count since 1970-01-01. -/
def civilFromDays (z : Int) : Int × Nat × Nat :=
  let z := z + 719468
  let era := z / 146097
  let doe := z - era * 146097
  let yoe := (doe - doe / 1460 + doe / 36524 - doe / 146096) / 365
  let y := yoe + era * 400
  let doy := doe - (365 * yoe + yoe / 4 - yoe / 100)
  let mp := (5 * doy + 2) / 153
  let d := doy - (153 * mp + 2) / 5 + 1
  let m := if mp < 10 then mp + 3 else mp - 9
  ((if m ≤ 2 then y + 1 else y), m.toNat, d.toNat)

def isLeap (y : Int) : Bool := (y % 4 == 0 && y % 100 != 0) || y % 400 == 0

def daysIn (m : Nat) (y : Int) : Nat :=
  if m == 2 then (if isLeap y then 29 else 28)
  else if m == 4 || m == 6 || m == 9 || m == 11 then 30 else 31

def ofCivil (y : Int) (mo d h mi s : Nat) (ns : Nat := 0) : Instant :=
  ⟨(daysFromCivil y mo d * 86400 + (h : Int) * 3600 + (mi : Int) * 60 + s) * 1000000000 + ns, 0⟩

def zero : Instant := ofCivil 1 1 1 0 0 0

def isZero (t : Instant) : Bool := t.nanos == zero.nanos

def utc (t : Instant) : Instant := { t with offset := 0 }

def before (a b : Instant) : Bool := a.nanos < b.nanos

def after (a b : Instant) : Bool := a.nanos > b.nanos

def same (a b : Instant) : Bool := a.nanos == b.nanos

/-- Move by a span of nanoseconds. -/
def add (t : Instant) (d : Int) : Instant := { t with nanos := t.nanos + d }

/-- The span from `b` to `a`, held to the 64-bit range. -/
def sub (a b : Instant) : Int := clamp64 (a.nanos - b.nanos)

/-- The civil fields at the instant's own offset: year, month, day, hour, minute,
second and nanosecond. -/
def fields (t : Instant) : Int × Nat × Nat × Nat × Nat × Nat × Nat :=
  let shifted := t.nanos + t.offset * 1000000000
  let secs := shifted / 1000000000
  let ns := (shifted % 1000000000).toNat
  let days := secs / 86400
  let rem := (secs % 86400).toNat
  let (y, m, d) := civilFromDays days
  (y, m, d, rem / 3600, rem % 3600 / 60, rem % 60, ns)

def year (t : Instant) : Int := t.fields.1

/-- `n` as exactly `width` digits, zeros in front. -/
def pad (width : Nat) (n : Nat) : String :=
  let ds := Nat.toDigits 10 n
  String.ofList (List.replicate (width - ds.length) '0' ++ ds)

/-- A year as four digits, with a sign in front when negative. -/
def yearText (y : Int) : String :=
  if y < 0 then "-" ++ pad 4 y.natAbs else pad 4 y.toNat

/-- The zone part of RFC 3339 text: `Z` or `±hh:mm`. -/
def zoneText (offset : Int) : String :=
  if offset == 0 then "Z"
  else
    let mins := offset.natAbs / 60
    (if offset < 0 then "-" else "+") ++ pad 2 (mins / 60) ++ ":" ++ pad 2 (mins % 60)

/-- RFC 3339 text with the fraction of the second written as far as it is not zero. -/
def rfc3339 (t : Instant) : String :=
  let (y, mo, d, h, mi, s, ns) := t.fields
  let frac := if ns == 0 then "" else (fracText ns 9).1
  yearText y ++ "-" ++ pad 2 mo ++ "-" ++ pad 2 d ++ "T" ++ pad 2 h ++ ":" ++ pad 2 mi ++ ":" ++
    pad 2 s ++ frac ++ zoneText t.offset

/-- RFC 3339 text with exactly `digits` fraction digits (none for zero). -/
def rfc3339Fixed (t : Instant) (digits : Nat) : String :=
  let (y, mo, d, h, mi, s, ns) := t.fields
  let frac := if digits == 0 then "" else "." ++ pad digits (ns / Nat.pow 10 (9 - digits))
  yearText y ++ "-" ++ pad 2 mo ++ "-" ++ pad 2 d ++ "T" ++ pad 2 h ++ ":" ++ pad 2 mi ++ ":" ++
    pad 2 s ++ frac ++ zoneText t.offset

/-- The UTC date and time as `YYYYMMDD-HHMMSS`. -/
def compactStamp (t : Instant) : String :=
  let (y, mo, d, h, mi, s, _) := t.utc.fields
  yearText y ++ pad 2 mo ++ pad 2 d ++ "-" ++ pad 2 h ++ pad 2 mi ++ pad 2 s

/-- The UTC month as `YYYY-MM`. -/
def monthText (t : Instant) : String :=
  let (y, mo, _, _, _, _, _) := t.utc.fields
  yearText y ++ "-" ++ pad 2 mo

/-- Why the instant has no written form as a document value: its year, at its own
offset, lies outside 0..9999, or its offset from UTC is a day or more. -/
def encodingProblem? (t : Instant) : Option String :=
  let y := t.year
  if !(0 ≤ y && y ≤ 9999) then some "year outside of range [0,9999]"
  else if t.offset != 0 && t.offset.natAbs / 3600 ≥ 24 then some "timezone hour outside of range [0,23]"
  else none

/-- The instant can be written as a document value. -/
def writable (t : Instant) : Bool := t.encodingProblem?.isNone

/-! ## Reading instants -/

/-- The pieces of a layout. -/
inductive Piece where
  | year
  | month
  | day
  /-- The hour, one or two digits. -/
  | hour
  | minute
  | second
  /-- An optional fraction of the second after `.` or `,`. -/
  | fraction
  /-- `Z` or `±hh:mm`. -/
  | zone
  | lit (c : Char)
deriving Inhabited, BEq

/-- What has been read of a time. -/
structure Partial where
  year : Int := 1
  month : Nat := 1
  day : Nat := 1
  hour : Nat := 0
  minute : Nat := 0
  second : Nat := 0
  nanos : Nat := 0
  offset : Int := 0

/-- Exactly `n` digits. -/
def fixedDigits (n : Nat) (cs : List Char) : Option (Nat × List Char) :=
  let ds := cs.take n
  if ds.length == n && ds.all Char.isDigit then
    some (ds.foldl (fun acc c => acc * 10 + (c.toNat - 48)) 0, cs.drop n)
  else none

/-- One or two digits. -/
def shortDigits (cs : List Char) : Option (Nat × List Char) :=
  match cs with
  | a :: b :: rest =>
    if a.isDigit && b.isDigit then some ((a.toNat - 48) * 10 + (b.toNat - 48), rest)
    else if a.isDigit then some (a.toNat - 48, b :: rest) else none
  | [a] => if a.isDigit then some (a.toNat - 48, []) else none
  | [] => none

/-- Nanoseconds of fraction digits: at most nine are used, the rest are skipped. -/
def fractionNanos (ds : List Char) : Nat :=
  let used := ds.take 9
  let v := used.foldl (fun acc c => acc * 10 + (c.toNat - 48)) 0
  v * Nat.pow 10 (9 - used.length)

/-- A fraction of the second: `.` or `,` and digits, all of them consumed. -/
def readFraction (cs : List Char) : Option (Nat × List Char) :=
  match cs with
  | sep :: d :: _ =>
    if (sep == '.' || sep == ',') && d.isDigit then
      let ds := (cs.drop 1).takeWhile Char.isDigit
      some (fractionNanos ds, cs.drop (1 + ds.length))
    else none
  | _ => none

/-- What one piece of a layout reads: the rest of the text and what has been read, or
nothing when the piece does not fit.  `fractionNext` says whether the layout shows a
fraction right after this piece; a seconds piece reads one itself otherwise. -/
def Piece.step (piece : Piece) (fractionNext : Bool) (cs : List Char) (p : Partial) :
    Option (List Char × Partial) :=
  match piece with
  | .year => (fixedDigits 4 cs).map fun (v, cs') => (cs', { p with year := v })
  | .month =>
    (fixedDigits 2 cs).bind fun (v, cs') =>
      if v < 1 || v > 12 then none else some (cs', { p with month := v })
  | .day => (fixedDigits 2 cs).map fun (v, cs') => (cs', { p with day := v })
  | .hour =>
    (shortDigits cs).bind fun (v, cs') => if v > 23 then none else some (cs', { p with hour := v })
  | .minute =>
    (fixedDigits 2 cs).bind fun (v, cs') => if v > 59 then none else some (cs', { p with minute := v })
  | .second =>
    (fixedDigits 2 cs).bind fun (v, cs') =>
      if v > 59 then none
      else if fractionNext then some (cs', { p with second := v })
      else
        match readFraction cs' with
        | some (ns, cs'') => some (cs'', { p with second := v, nanos := ns })
        | none => some (cs', { p with second := v })
  | .fraction =>
    match readFraction cs with
    | some (ns, cs') => some (cs', { p with nanos := ns })
    | none => some (cs, p)
  | .zone =>
    match cs with
    | 'Z' :: cs' => some (cs', { p with offset := 0 })
    | s :: h1 :: h2 :: ':' :: m1 :: m2 :: cs' =>
      if (s == '+' || s == '-') && h1.isDigit && h2.isDigit && m1.isDigit && m2.isDigit then
        let hh := (h1.toNat - 48) * 10 + (h2.toNat - 48)
        let mm := (m1.toNat - 48) * 10 + (m2.toNat - 48)
        if hh > 24 || mm > 60 then none
        else
          let off : Int := ((hh * 60 + mm) * 60 : Nat)
          some (cs', { p with offset := if s == '-' then -off else off })
      else none
    | _ => none
  | .lit c =>
    if c == ' ' then
      match cs with
      | c' :: _ => if c' != ' ' then none else some (cs.dropWhile (· == ' '), p)
      | [] => some ([], p)
    else
      match cs with
      | c' :: cs' => if c' == c then some (cs', p) else none
      | [] => none

/-- Read a value by a layout, piece by piece; the whole text must be used. -/
def readLayout (layout : List Piece) (cs : List Char) (p : Partial) : Option Partial :=
  match layout with
  | [] => if cs.isEmpty then some p else none
  | piece :: rest =>
    (piece.step (rest.head? == some .fraction) cs p).bind fun (cs', p') => readLayout rest cs' p'

/-- The instant of what was read, if the day exists in its month. -/
def Partial.toInstant? (p : Partial) : Option Instant :=
  if p.day < 1 || p.day > daysIn p.month p.year then none
  else
    let base := ofCivil p.year p.month p.day p.hour p.minute p.second p.nanos
    some ⟨base.nanos - p.offset * 1000000000, p.offset⟩

def dateLayout : List Piece := [.year, .lit '-', .month, .lit '-', .day]

def clockLayout : List Piece := [.hour, .lit ':', .minute, .lit ':', .second]

def rfc3339Layout : List Piece := dateLayout ++ [.lit 'T'] ++ clockLayout ++ [.fraction, .zone]

/-- Date and time without a zone, `T` between them. -/
def naiveLayout : List Piece := dateLayout ++ [.lit 'T'] ++ clockLayout ++ [.fraction]

/-- Date and time without a zone, a blank between them. -/
def spacedLayout : List Piece := dateLayout ++ [.lit ' '] ++ clockLayout ++ [.fraction]

def parseLayout (layout : List Piece) (s : String) : Option Instant :=
  (readLayout layout s.toList {}).bind Partial.toInstant?

/-- The value of a non-empty run of decimal digits. -/
def digitsValue? (xs : List Char) : Option Nat :=
  if xs.all Char.isDigit && !xs.isEmpty then
    some (xs.foldl (fun acc c => acc * 10 + (c.toNat - 48)) 0) else none

/-- The fraction of strict RFC 3339 text: a point and the digits after it, all of them
consumed; no fraction is zero nanoseconds. -/
def strictFraction (rest : List Char) : Nat × List Char :=
  match rest with
  | '.' :: d1 :: _ =>
    if d1.isDigit then
      let ds := (rest.drop 1).takeWhile Char.isDigit
      (fractionNanos ds, rest.drop (1 + ds.length))
    else (0, rest)
  | _ => (0, rest)

/-- The zone of strict RFC 3339 text, all that is left of it: `Z`, or a sign and an offset
below 24 hours, in seconds. -/
def strictZone (rest : List Char) : Option Int :=
  match rest with
  | ['Z'] => some 0
  | [sign, h1, h2, ':', m1, m2] =>
    match digitsValue? [h1, h2], digitsValue? [m1, m2] with
    | some hh, some mm =>
      if (sign == '+' || sign == '-') && hh ≤ 23 && mm ≤ 59 then
        let off : Int := ((hh * 60 + mm) * 60 : Nat)
        some (if sign == '-' then -off else off)
      else none
    | _, _ => none
  | _ => none

/-- Read strict RFC 3339 text: four-digit year, two-digit fields, `T` and `Z` in
capitals, an optional fraction after a point, and a zone offset below 24 hours. -/
def parseStrict (s : String) : Option Instant :=
  let cs := s.toList
  if cs.length < 19 then none
  else
    let sl (a b : Nat) := (cs.drop a).take (b - a)
    match digitsValue? (sl 0 4), digitsValue? (sl 5 7), digitsValue? (sl 8 10), digitsValue? (sl 11 13),
      digitsValue? (sl 14 16), digitsValue? (sl 17 19) with
    | some y, some mo, some d, some h, some mi, some sec =>
      if !(cs[4]? == some '-' && cs[7]? == some '-' && cs[10]? == some 'T' &&
          cs[13]? == some ':' && cs[16]? == some ':') then none
      else if mo < 1 || mo > 12 || d < 1 || d > daysIn mo y || h > 23 || mi > 59 || sec > 59 then none
      else
        let (ns, rest) := strictFraction (cs.drop 19)
        let base := ofCivil y mo d h mi sec ns
        (strictZone rest).map fun off => ⟨base.nanos - off * 1000000000, off⟩
    | _, _, _, _, _, _ => none

/-- Read RFC 3339 text, first strictly, then by the layout. -/
def parseRfc3339 (s : String) : Option Instant :=
  match parseStrict s with
  | some t => some t
  | none => parseLayout rfc3339Layout s

/-- Read the first layout among `layouts` that fits, the result in UTC. -/
def parseFirst (layouts : List (List Piece)) (s : String) : Option Instant :=
  match layouts with
  | [] => none
  | l :: ls =>
    let attempt := if l == rfc3339Layout then parseRfc3339 s else parseLayout l s
    match attempt with
    | some t => some t.utc
    | none => parseFirst ls s

end Instant
end Clock
end AgentMemory
