import AgentMemory.Decimal.Shortest

namespace AgentMemory
namespace Decimal

/-!
# Writing doubles as text

Three layouts of the shortest digits are used by the program's outputs:

* `positional`: digits with a point where needed and no exponent (`0.000001`, `1e21`
  written out in full);
* `scientific`: one digit before the point and an exponent with a sign and at least
  two digits (`1e+06`, `1.5e-07`);
* the document layout, positional for magnitudes in `[1e-6, 1e21)` and scientific
  elsewhere, with a one-digit negative exponent written without its padding zero
  (`1e-7`, `1e+21`).

Zero has the digits `0`, and a negative zero keeps its sign.
-/

def digitChars (ds : List Nat) : List Char :=
  ds.map (fun d => Char.ofNat ('0'.toNat + d))

def zeros (n : Nat) : List Char :=
  List.replicate n '0'

/-- Positional layout of `0.d₁…dₙ × 10^point`. -/
def Digits.positional (d : Digits) : String :=
  let cs := digitChars d.digits
  let n := cs.length
  if d.point ≤ 0 then
    String.ofList (['0', '.'] ++ zeros d.point.natAbs ++ cs)
  else if d.point.toNat ≥ n then
    String.ofList (cs ++ zeros (d.point.toNat - n))
  else
    String.ofList (cs.take d.point.toNat ++ ['.'] ++ cs.drop d.point.toNat)

/-- The exponent of the scientific layout: a sign and at least `width` digits. -/
def exponentText (e : Int) (width : Nat) : String :=
  let ds := Nat.toDigits 10 e.natAbs
  let padded := zeros (width - ds.length) ++ ds
  String.ofList ((if e < 0 then '-' else '+') :: padded)

/-- Scientific layout `d₁.d₂…dₙe±XX`. -/
def Digits.scientific (d : Digits) (width : Nat := 2) : String :=
  let cs := digitChars d.digits
  let mant := match cs with
    | [] => ['0']
    | [c] => [c]
    | c :: rest => c :: '.' :: rest
  String.ofList mant ++ "e" ++ exponentText (d.point - 1) width

/-- The sign and shortest digits of a finite double; zero has the digit `0`. -/
def shortestOf (x : Float) : Bool × Digits :=
  let bits := x.toBits
  let negative := (bits >>> 63) == 1
  let b := Binary.ofBits bits
  if b.m == 0 then (negative, ⟨[0], 1⟩) else (negative, b.shortest)

/-- A double is finite: neither NaN nor an infinity. -/
def isFiniteValue (x : Float) : Bool :=
  !(x.isNaN || x.isInf)

/-- Shortest positional text, `NaN` and `+Inf`/`-Inf` for the values without digits. -/
def plainText (x : Float) : String :=
  if x.isNaN then "NaN"
  else if x.isInf then (if x > 0 then "+Inf" else "-Inf")
  else
    let (neg, d) := shortestOf x
    (if neg then "-" else "") ++ d.positional

/-- The general layout: scientific when the decimal exponent is below -4 or at least 21,
positional otherwise.  With `wide := false` the upper switch is at exponent 6. -/
def generalText (x : Float) (wide : Bool := false) : String :=
  if x.isNaN then "NaN"
  else if x.isInf then (if x > 0 then "+Inf" else "-Inf")
  else
    let (neg, d) := shortestOf x
    let exp := d.point - 1
    let top : Int := if wide then 21 else 6
    let body := if d.digits == [0] then "0"
      else if exp < -4 || exp ≥ top then d.scientific else d.positional
    (if neg then "-" else "") ++ body

/-- Document text of a finite double: positional for magnitudes in `[1e-6, 1e21)`,
scientific elsewhere, where a one-digit negative exponent loses its padding zero. -/
def documentText (x : Float) : String :=
  let (neg, d) := shortestOf x
  let a := x.abs
  let sign := if neg then "-" else ""
  if d.digits != [0] && (a < 1e-6 || a ≥ 1e21) then
    let e := d.point - 1
    let width := if e < 0 && e > -10 then 1 else 2
    sign ++ d.scientific width
  else sign ++ d.positional

end Decimal
end AgentMemory
