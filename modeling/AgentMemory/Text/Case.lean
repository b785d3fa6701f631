namespace AgentMemory
namespace Text

/-!
# Letter case and blank characters beyond ASCII

Searches in the memory compare texts in lower case, tags are matched in lower case,
and texts are trimmed of blank characters before they are stored.  Both rules are
the Unicode ones, so they are tables over code points:

* `lowerChar` maps a capital letter to its small letter for the Latin, Greek,
  Cyrillic, Armenian and Georgian alphabets, the letter-like symbols (the Kelvin
  sign becomes `k`), the Roman numerals, the circled and full-width letters;
  everything else is kept.
* `foldClass` gives the letters that a case-insensitive pattern treats as one: the
  small letter, its capital, and the few letters with a third form (`k`, `K` and the
  Kelvin sign; `s`, `S` and the long s; the three sigmas; ...).
* `isBlank` is the Unicode white-space property: the ASCII blanks with vertical tab
  and form feed, the next-line control, the no-break space and the space separators.
-/

/-- How one run of code points maps to small letters. -/
inductive CaseRule where
  /-- Every code point in `lo..hi` moves by `delta`. -/
  | shift (lo hi : Nat) (delta : Int)
  /-- `lo, lo + 2, …, hi` are capitals of the code point after them. -/
  | pairs (lo hi : Nat)
  /-- One capital and its small letter. -/
  | single (capital small : Nat)

/-- The small letter the rule gives a code point, if the rule covers it. -/
def CaseRule.apply? (r : CaseRule) (n : Nat) : Option Nat :=
  match r with
  | .shift lo hi delta => if lo ≤ n && n ≤ hi then some (n + delta).toNat else none
  | .pairs lo hi => if lo ≤ n && n ≤ hi && (n - lo) % 2 == 0 then some (n + 1) else none
  | .single capital small => if n == capital then some small else none

/-- Capitals and their small letters beyond ASCII, run by run. -/
def caseRules : List CaseRule :=
  [.pairs 0x100 0x12E,
   .single 0x130 0x69,
   .pairs 0x132 0x136,
   .pairs 0x139 0x147,
   .pairs 0x14A 0x176,
   .single 0x178 0xFF,
   .pairs 0x179 0x17D,
   .single 0x181 0x253,
   .pairs 0x182 0x184,
   .single 0x186 0x254,
   .single 0x187 0x188,
   .single 0x189 0x256,
   .single 0x18A 0x257,
   .single 0x18B 0x18C,
   .single 0x18E 0x1DD,
   .single 0x18F 0x259,
   .single 0x190 0x25B,
   .single 0x191 0x192,
   .single 0x193 0x260,
   .single 0x194 0x263,
   .single 0x196 0x269,
   .single 0x197 0x268,
   .single 0x198 0x199,
   .single 0x19C 0x26F,
   .single 0x19D 0x272,
   .single 0x19F 0x275,
   .pairs 0x1A0 0x1A4,
   .single 0x1A7 0x1A8,
   .single 0x1A9 0x283,
   .single 0x1AC 0x1AD,
   .single 0x1AE 0x288,
   .single 0x1AF 0x1B0,
   .single 0x1B1 0x28A,
   .single 0x1B2 0x28B,
   .single 0x1B3 0x1B4,
   .single 0x1B5 0x1B6,
   .single 0x1B7 0x292,
   .single 0x1B8 0x1B9,
   .single 0x1BC 0x1BD,
   .shift 0x1C4 0x1C4 (2),
   .shift 0x1C7 0x1C7 (2),
   .shift 0x1CA 0x1CA (2),
   .shift 0x1F1 0x1F1 (2),
   .shift 0x1C5 0x1C5 (1),
   .shift 0x1C8 0x1C8 (1),
   .shift 0x1CB 0x1CB (1),
   .shift 0x1F2 0x1F2 (1),
   .pairs 0x1CD 0x1DB,
   .pairs 0x1DE 0x1EE,
   .single 0x1F4 0x1F5,
   .single 0x1F6 0x195,
   .single 0x1F7 0x1BF,
   .pairs 0x1F8 0x21E,
   .single 0x220 0x19E,
   .pairs 0x222 0x232,
   .single 0x23A 0x2C65,
   .single 0x23B 0x23C,
   .single 0x23D 0x19A,
   .single 0x23E 0x2C66,
   .single 0x241 0x242,
   .single 0x243 0x180,
   .single 0x244 0x289,
   .single 0x245 0x28C,
   .pairs 0x246 0x24E,
   .pairs 0x370 0x372,
   .single 0x376 0x377,
   .single 0x37F 0x3F3,
   .single 0x386 0x3AC,
   .shift 0x388 0x38A (37),
   .single 0x38C 0x3CC,
   .shift 0x38E 0x38E (63),
   .shift 0x38F 0x38F (63),
   .single 0x3CF 0x3D7,
   .pairs 0x3D8 0x3EE,
   .single 0x3F4 0x3B8,
   .single 0x3F7 0x3F8,
   .single 0x3F9 0x3F2,
   .single 0x3FA 0x3FB,
   .shift 0x3FD 0x3FF (-130),
   .shift 0x400 0x40F (80),
   .shift 0x410 0x42F (32),
   .pairs 0x460 0x480,
   .pairs 0x48A 0x4BE,
   .single 0x4C0 0x4CF,
   .pairs 0x4C1 0x4CD,
   .pairs 0x4D0 0x52E,
   .shift 0x531 0x556 (48),
   .shift 0x10A0 0x10C5 (7264),
   .shift 0x10C7 0x10C7 (7264),
   .shift 0x10CD 0x10CD (7264),
   .shift 0x13A0 0x13EF (38864),
   .shift 0x13F0 0x13F5 (8),
   .pairs 0x1E00 0x1E94,
   .single 0x1E9E 0xDF,
   .pairs 0x1EA0 0x1EFE,
   .shift 0x1FBA 0x1FBA (-74),
   .shift 0x1FBB 0x1FBB (-74),
   .single 0x1FBC 0x1FB3,
   .shift 0x1FC8 0x1FCB (-86),
   .single 0x1FCC 0x1FC3,
   .shift 0x1FDA 0x1FDA (-100),
   .shift 0x1FDB 0x1FDB (-100),
   .shift 0x1FEA 0x1FEA (-112),
   .shift 0x1FEB 0x1FEB (-112),
   .single 0x1FEC 0x1FE5,
   .shift 0x1FF8 0x1FF8 (-128),
   .shift 0x1FF9 0x1FF9 (-128),
   .shift 0x1FFA 0x1FFA (-126),
   .shift 0x1FFB 0x1FFB (-126),
   .single 0x1FFC 0x1FF3,
   .single 0x2126 0x3C9,
   .single 0x212A 0x6B,
   .single 0x212B 0xE5,
   .single 0x2132 0x214E,
   .shift 0x2160 0x216F (16),
   .single 0x2183 0x2184,
   .shift 0x24B6 0x24CF (26),
   .shift 0x2C00 0x2C2F (48),
   .single 0x2C60 0x2C61,
   .single 0x2C62 0x26B,
   .single 0x2C63 0x1D7D,
   .single 0x2C64 0x27D,
   .pairs 0x2C67 0x2C6B,
   .single 0x2C6D 0x251,
   .single 0x2C6E 0x271,
   .single 0x2C6F 0x250,
   .single 0x2C70 0x252,
   .single 0x2C72 0x2C73,
   .single 0x2C75 0x2C76,
   .shift 0x2C7E 0x2C7E (-10815),
   .shift 0x2C7F 0x2C7F (-10815),
   .pairs 0x2C80 0x2CE2,
   .pairs 0xA640 0xA66C,
   .pairs 0xA680 0xA69A,
   .pairs 0xA722 0xA72E,
   .pairs 0xA732 0xA76E,
   .pairs 0xA779 0xA77B,
   .pairs 0xA77E 0xA786,
   .single 0xA78B 0xA78C,
   .pairs 0xA790 0xA792,
   .pairs 0xA796 0xA7A8,
   .shift 0xFF21 0xFF3A (32),
   .shift 0x10400 0x10427 (40),
   .shift 0x104B0 0x104D3 (40),
   .shift 0x10C80 0x10CB2 (64),
   .shift 0x118A0 0x118BF (32),
   .shift 0x1E900 0x1E921 (34)
   ]

/-- Capitals of the extended Greek block that sit eight above their small letter. -/
def greekExtendedCapital (n : Nat) : Bool :=
  let within (lo hi : Nat) : Bool := lo ≤ n && n ≤ hi
  within 0x1F08 0x1F0F || within 0x1F18 0x1F1D || within 0x1F28 0x1F2F ||
    within 0x1F38 0x1F3F || within 0x1F48 0x1F4D || n == 0x1F59 || n == 0x1F5B ||
    n == 0x1F5D || n == 0x1F5F || within 0x1F68 0x1F6F || within 0x1F88 0x1F8F ||
    within 0x1F98 0x1F9F || within 0x1FA8 0x1FAF || within 0x1FB8 0x1FB9 ||
    within 0x1FD8 0x1FD9 || within 0x1FE8 0x1FE9

/-- The small letter of a capital, as a code point; other code points are kept. -/
def lowerCode (n : Nat) : Nat :=
  if n < 0x80 then (if 0x41 ≤ n && n ≤ 0x5A then n + 32 else n)
  else if 0xC0 ≤ n && n ≤ 0xDE && n != 0xD7 then n + 32
  else if greekExtendedCapital n then n - 8
  else if 0x391 ≤ n && n ≤ 0x3AB && n != 0x3A2 then n + 32
  else if 0x1C90 ≤ n && n ≤ 0x1CBF && n != 0x1CBB && n != 0x1CBC then n - 3008
  else
    match caseRules.findSome? (fun r => r.apply? n) with
    | some small => small
    | none => n

/-- The small letter of a character; other characters are kept. -/
def lowerChar (c : Char) : Char :=
  if c.toNat < 0x80 then c.toLower else Char.ofNat (lowerCode c.toNat)

def lower (s : String) : String :=
  String.ofList (s.toList.map lowerChar)

/-- Letters with a third case form, as pairs of that form and the small letter it
goes with. -/
def extraFolds : List (Nat × Nat) :=
  [(0x212A, 0x6B), (0x17F, 0x73), (0x212B, 0xE5), (0x2126, 0x3C9), (0xB5, 0x3BC),
   (0x3C2, 0x3C3), (0x3D0, 0x3B2), (0x3D1, 0x3B8), (0x3D5, 0x3C6), (0x3D6, 0x3C0),
   (0x3F0, 0x3BA), (0x3F1, 0x3C1), (0x3F5, 0x3B5), (0x345, 0x3B9), (0x1FBE, 0x3B9),
   (0x1E9E, 0xDF), (0x1E9B, 0x1E61), (0x1C80, 0x432), (0x1C81, 0x434), (0x1C82, 0x43E),
   (0x1C83, 0x441), (0x1C84, 0x442), (0x1C85, 0x442), (0x1C86, 0x44A), (0x1C87, 0x463),
   (0x1C88, 0xA64B)]

/-- The representative of a character's case class: its small letter, or for a third
form the small letter it goes with. -/
def foldKey (n : Nat) : Nat :=
  match extraFolds.find? (fun p => p.1 == n) with
  | some (_, small) => small
  | none => lowerCode n

/-- The capitals whose small letter is `small`, found among the ranges that
`lowerCode` maps. -/
def capitalsOf (small : Nat) : List Nat :=
  let candidates : List Nat :=
    [small - 32, small - 1, small - 2, small - 37, small - 63, small - 48, small - 80,
     small - 7264, small - 38864, small - 8, small + 3008, small + 8, small + 74,
     small + 86, small + 100, small + 112, small + 128, small + 126, small - 16, small - 26,
     small - 40, small - 64, small - 34, small + 130, small + 10815, 0x130, 0x178, 0x181,
     0x186, 0x189, 0x18A, 0x18E, 0x18F, 0x190, 0x193, 0x194, 0x196, 0x197, 0x19C, 0x19D,
     0x19F, 0x1A9, 0x1AE, 0x1B1, 0x1B2, 0x1B7, 0x1C4, 0x1C5, 0x1C7, 0x1C8, 0x1CA, 0x1CB,
     0x1F1, 0x1F2, 0x1F6, 0x1F7, 0x220, 0x23A, 0x23D, 0x23E, 0x243, 0x244, 0x245, 0x37F,
     0x386, 0x38C, 0x3CF, 0x3F4, 0x3F9, 0x4C0, 0x1E9E, 0x1FBC, 0x1FCC, 0x1FEC, 0x1FFC,
     0x2126, 0x212A, 0x212B, 0x2132, 0x2C62, 0x2C63, 0x2C64, 0x2C6D, 0x2C6E, 0x2C6F,
     0x2C70]
  (candidates.filter (fun c => c != small && c != 0x130 && lowerCode c == small &&
    (extraFolds.find? (fun p => p.1 == c)).isNone)).eraseDups

/-- The characters that a case-insensitive pattern treats as the same letter as `c`,
`c` included. -/
def foldClass (c : Char) : List Char :=
  let key := foldKey c.toNat
  let extras := (extraFolds.filter (fun p => p.2 == key)).map Prod.fst
  let members := (key :: capitalsOf key ++ extras).eraseDups
  let members := if members.contains c.toNat then members else c.toNat :: members
  members.map Char.ofNat

/-- Two texts are equal up to case: character by character in the same case class. -/
def equalFold (a b : String) : Bool :=
  a.length == b.length &&
    (a.toList.zip b.toList).all (fun p => foldKey p.1.toNat == foldKey p.2.toNat)

/-- The Unicode white-space property. -/
def isBlank (c : Char) : Bool :=
  let n := c.toNat
  n == 0x20 || (0x09 ≤ n && n ≤ 0x0D) || n == 0x85 || n == 0xA0 || n == 0x1680 ||
    (0x2000 ≤ n && n ≤ 0x200A) || n == 0x2028 || n == 0x2029 || n == 0x202F ||
    n == 0x205F || n == 0x3000

def trimBlank (s : String) : String :=
  String.ofList ((s.toList.dropWhile isBlank).reverse.dropWhile isBlank).reverse

def trimBlankStart (s : String) : String :=
  String.ofList (s.toList.dropWhile isBlank)

def isBlankText (s : String) : Bool :=
  s.toList.all isBlank

/-- A text contains another. -/
def containsText (s pat : String) : Bool :=
  let ps := pat.toList
  let rec go (cs : List Char) : Bool :=
    if ps.isPrefixOf cs then true
    else match cs with
      | [] => false
      | _ :: rest => go rest
  go s.toList

end Text
end AgentMemory
