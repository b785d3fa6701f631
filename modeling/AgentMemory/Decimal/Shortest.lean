namespace AgentMemory
namespace Decimal

/-!
# Shortest decimal digits of a binary64 value

A finite double stands for the interval of reals that round to it: from halfway to
the neighbour below to halfway to the neighbour above, both ends included exactly
when the mantissa is even.  The digits printed for a double are the fewest decimal
digits that land inside that interval; of two such decimals on the same grid the
nearer one wins, and an exact tie goes to the even last digit.

Everything here is exact arithmetic on `Nat` and `Int`: the value is decoded from
its bits, decimals are compared with the interval ends by cross-multiplication,
and the search over grids is bounded by seventeen digits.
-/

/-- A finite non-negative binary64 value `m * 2^q`. -/
structure Binary where
  m : Nat
  q : Int
  /-- The gap to the value below is half the gap to the value above. -/
  narrowBelow : Bool

/-- The value of the bits of a finite double, sign dropped. -/
def Binary.ofBits (b : UInt64) : Binary :=
  let e := ((b >>> 52) &&& 0x7FF).toNat
  let f := (b &&& 0xFFFFFFFFFFFFF).toNat
  if e == 0 then ⟨f, -1074, false⟩ else ⟨Nat.pow 2 52 + f, (e : Int) - 1075, f == 0 && e > 1⟩

def cmpScaled (a : Nat) (i : Int) (n : Nat) (j : Int) : Ordering :=
  compare (a * Nat.pow 10 i.toNat * Nat.pow 2 (-j).toNat) (n * Nat.pow 2 j.toNat * Nat.pow 10 (-i).toNat)

/-- The decimal `digits * 10^exp` lies among the reals that round to `x`. -/
def Binary.readsBack (x : Binary) (digits : Nat) (exp : Int) : Bool :=
  let lo := if x.narrowBelow then 4 * x.m - 1 else 4 * x.m - 2
  let hi := 4 * x.m + 2
  let incl := x.m % 2 == 0
  let cl := cmpScaled digits exp lo (x.q - 2)
  let ch := cmpScaled digits exp hi (x.q - 2)
  (cl == .gt || (incl && cl == .eq)) && (ch == .lt || (incl && ch == .eq))

/-- `⌊m * 2^q / 10^e⌋`, the value's neighbour from below on the grid `10^e`. -/
def Binary.floorOnGrid (x : Binary) (e : Int) : Nat :=
  (x.m * Nat.pow 2 x.q.toNat * Nat.pow 10 (-e).toNat) / (Nat.pow 2 (-x.q).toNat * Nat.pow 10 e.toNat)

/-- The number of decimal digits of a positive natural number. -/
def digitCount (n : Nat) : Nat :=
  (Nat.toDigits 10 n).length

/-- The least `k` with `m * 2^q < 10^k`, for a non-zero value, found from the
number of digits of the integer part, or, below one, by stepping down. -/
def Binary.scale (x : Binary) : Int :=
  let whole := x.floorOnGrid 0
  if whole > 0 then (digitCount whole : Int)
  else
    -- below one: the least k ≤ 0 with the value below 10^k
    let rec down (fuel : Nat) (k : Int) : Int :=
      match fuel with
      | 0 => k
      | fuel + 1 => if x.floorOnGrid (k - 1) == 0 then down fuel (k - 1) else k
    down 330 0

/-- Digits of a decimal, most significant first, with the position of the point:
the value is `0.d₁d₂…dₙ × 10^point`. -/
structure Digits where
  digits : List Nat
  point : Int
deriving Repr, DecidableEq, Inhabited

/-- Strip the trailing zeros of `c * 10^e` into the exponent. -/
def stripZeros (c : Nat) (e : Int) : Nat × Int :=
  let rec go (fuel c : Nat) (e : Int) : Nat × Int :=
    match fuel with
    | 0 => (c, e)
    | fuel + 1 => if c != 0 && c % 10 == 0 then go fuel (c / 10) (e + 1) else (c, e)
  go 20 c e

/-- The digits of `c * 10^e` in the `Digits` layout. -/
def Digits.ofScaled (c : Nat) (e : Int) : Digits :=
  let (c, e) := stripZeros c e
  let ds := (Nat.toDigits 10 c).map (fun ch => ch.toNat - '0'.toNat)
  ⟨ds, e + ds.length⟩

/-- The fewest-digit decimal that reads back as `x`; of two on one grid the nearer,
and an exact tie goes to the even one.  The search stops at seventeen digits, which
always suffice; past them the exact value is returned. -/
def Binary.shortest (x : Binary) : Digits :=
  let k := x.scale
  let rec search (n : Nat) (fuel : Nat) : Digits :=
    match fuel with
    | 0 => Digits.ofScaled (x.m * Nat.pow 2 x.q.toNat * Nat.pow 5 (-x.q).toNat) (if x.q < 0 then x.q else 0)
    | fuel + 1 =>
      let e := k - n
      let lo := x.floorOnGrid e
      let hi := lo + 1
      let okLo := lo != 0 && x.readsBack lo e
      let okHi := x.readsBack hi e
      if okLo && okHi then
        -- twice the value against the sum of the two neighbours
        match cmpScaled (2 * lo + 1) e x.m (x.q + 1) with
        | .lt => Digits.ofScaled hi e
        | .gt => Digits.ofScaled lo e
        | .eq => if lo % 2 == 0 then Digits.ofScaled lo e else Digits.ofScaled hi e
      else if okLo then Digits.ofScaled lo e
      else if okHi then Digits.ofScaled hi e
      else search (n + 1) fuel
  search 1 17

end Decimal
end AgentMemory
