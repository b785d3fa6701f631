import AgentMemory.Json.Write

namespace AgentMemory
namespace Telemetry

/-!
# Measurements

Components count what they do through instruments of a meter: counters of whole
numbers and of doubles, histograms and gauges, each recorded with a name and a set
of text attributes.  A meter keeps one series per instrument name and attribute
set: a counter sums what was added, a histogram counts its recordings and sums
them, a gauge keeps the last value.

A snapshot lists the counters and histograms, sorted by name; gauges are not
reported.  Attributes are a set: a key given twice keeps its last value, and keys
are kept in order.
-/

/-- The kinds of instrument. -/
inductive Instrument where
  | counter
  | floatCounter
  | histogram
  | gauge
deriving Inhabited, BEq, Repr, DecidableEq

/-- The instrument a kind's name stands for: `counter`, `float_counter`, `histogram`
or `gauge`. -/
def Instrument.ofName? : String → Option Instrument
  | "counter" => some .counter
  | "float_counter" => some .floatCounter
  | "histogram" => some .histogram
  | "gauge" => some .gauge
  | _ => none

/-- Attributes as a set: the last value of each key, keys in order. -/
def normalize (attrs : List (String × String)) : List (String × String) :=
  let keep := attrs.foldl (fun acc kv => (acc.filter (fun x => x.1 != kv.1)) ++ [kv]) []
  keep.mergeSort (fun a b => decide (a.1 ≤ b.1))

/-- The state of one series. -/
structure Series where
  name : String
  kind : Instrument
  attributes : List (String × String)
  /-- The sum of a counter, the last value of a gauge. -/
  value : Float := 0
  /-- The number of recordings of a histogram. -/
  count : Nat := 0
  /-- The sum of a histogram's recordings. -/
  sum : Float := 0
deriving Inhabited

/-- One reported data point. -/
structure Measurement where
  name : String
  attributes : List (String × String)
  value : Float := 0
  count : Nat := 0
  sum : Float := 0
deriving Inhabited

/-- All series recorded so far, in the order they were first recorded. -/
structure Meter where
  series : List Series := []
deriving Inhabited

/-- A measurement as one document line: the name, then the attributes, value, count
and sum, each left out when empty or zero. -/
def Measurement.line (mm : Measurement) : String :=
  let attrs := if mm.attributes.isEmpty then []
    else [("attributes", Json.obj (mm.attributes.map fun kv => (kv.1, .str kv.2)))]
  let num (k : String) (x : Float) : List (String × Json) := if x == 0 then [] else [(k, Json.ofFloat x)]
  let count := if mm.count == 0 then [] else [("count", Json.ofNat mm.count)]
  Json.compact (.obj ([("name", .str mm.name)] ++ attrs ++ num "value" mm.value ++ count ++ num "sum" mm.sum))

/-- The attributes of a measurement as a document. -/
def Measurement.attributesJson (mm : Measurement) : Json :=
  .obj (mm.attributes.map fun kv => (kv.1, .str kv.2))

/-- The document form of a measurement: its name, its attributes when it has any, its
value, count and sum. -/
def Measurement.toJson (mm : Measurement) : Json :=
  .obj ([("name", .str mm.name)] ++
    (if mm.attributes.isEmpty then [] else [("attributes", mm.attributesJson)]) ++
    [("value", Json.ofFloat mm.value), ("count", Json.ofNat mm.count), ("sum", Json.ofFloat mm.sum)])

/-- Measurements ordered by name, then by the text of their attributes. -/
def ordered (ms : List Measurement) : List Measurement :=
  ms.mergeSort fun a b =>
    decide (a.name < b.name) || (a.name == b.name && decide (Json.compact a.attributesJson ≤ Json.compact b.attributesJson))

namespace Meter

/-- Record a value on an instrument. -/
def record (m : Meter) (kind : Instrument) (name : String) (attrs : List (String × String))
    (x : Float) : Meter :=
  let attrs := normalize attrs
  let same (s : Series) : Bool := s.name == name && s.kind == kind && s.attributes == attrs
  let bump (s : Series) : Series :=
    match kind with
    | .counter | .floatCounter => { s with value := s.value + x }
    | .histogram => { s with count := s.count + 1, sum := s.sum + x }
    | .gauge => { s with value := x }
  if m.series.any same then ⟨m.series.map fun s => if same s then bump s else s⟩
  else ⟨m.series ++ [bump { name := name, kind := kind, attributes := attrs }]⟩

/-- The counters and histograms, sorted by name; equal names keep their order. -/
def snapshot (m : Meter) : List Measurement :=
  let points := m.series.filterMap fun s =>
    match s.kind with
    | .counter | .floatCounter => some { name := s.name, attributes := s.attributes, value := s.value }
    | .histogram => some { name := s.name, attributes := s.attributes, count := s.count, sum := s.sum }
    | .gauge => none
  points.mergeSort (fun a b => decide (a.name ≤ b.name))

end Meter
end Telemetry
end AgentMemory
