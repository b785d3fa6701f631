import AgentMemory.Json.Value
import AgentMemory.Decimal.Text

namespace AgentMemory
namespace Json

/-!
# Writing JSON text

Two layouts are written: the compact one, with no blank at all, and the indented
one that the stores use for their files, two blanks per level, one member or item
per line, and empty containers kept on one line as `[]` and `{}`.

String escaping has three switches, since the program writes documents through
writers with different escaping: whether `<`, `>` and `&` are escaped (so that a
document can be embedded in markup), whether the line and paragraph separators
U+2028 and U+2029 are escaped, and whether backspace and form feed get their short
escapes `\b` and `\f` instead of `\u0008` and `\u000c`.  The other control
characters below U+0020 are always written as `\u00XX` with lower-case hex digits,
and the quote and backslash are always escaped.
-/

/-- How strings are escaped. -/
structure Escaping where
  html : Bool
  separators : Bool
  shortControls : Bool

/-- Documents written by the stores: markup characters and separators escaped. -/
def Escaping.document : Escaping := ⟨true, true, true⟩

/-- Documents written for reading by people: markup characters kept. -/
def Escaping.plain : Escaping := ⟨false, true, true⟩

/-- Log records: only quotes, backslashes and control characters are escaped. -/
def Escaping.log : Escaping := ⟨false, false, false⟩

def hexDigit (n : Nat) : Char :=
  if n < 10 then Char.ofNat ('0'.toNat + n) else Char.ofNat ('a'.toNat + n - 10)

/-- `\u` followed by four hex digits of a code below 65536. -/
def unicodeEscape (n : Nat) : List Char :=
  ['\\', 'u', hexDigit (n / 4096 % 16), hexDigit (n / 256 % 16), hexDigit (n / 16 % 16),
    hexDigit (n % 16)]

/-- The written form of one character inside a string. -/
def escapeChar (esc : Escaping) (c : Char) : List Char :=
  let n := c.toNat
  if c == '"' then ['\\', '"']
  else if c == '\\' then ['\\', '\\']
  else if c == '\n' then ['\\', 'n']
  else if c == '\r' then ['\\', 'r']
  else if c == '\t' then ['\\', 't']
  else if esc.shortControls && n == 8 then ['\\', 'b']
  else if esc.shortControls && n == 12 then ['\\', 'f']
  else if n < 0x20 then unicodeEscape n
  else if esc.html && (c == '<' || c == '>' || c == '&') then unicodeEscape n
  else if esc.separators && (n == 0x2028 || n == 0x2029) then unicodeEscape n
  else [c]

def quote (esc : Escaping) (s : String) : String :=
  String.ofList ('"' :: (s.toList.flatMap (escapeChar esc) ++ ['"']))

mutual
/-- Compact text of a document. -/
def compactWith (esc : Escaping) : Json → String
  | .null => "null"
  | .bool b => if b then "true" else "false"
  | .num n => n
  | .str s => quote esc s
  | .arr xs => "[" ++ compactItems esc xs ++ "]"
  | .obj fs => "\x7b" ++ compactFields esc fs ++ "\x7d"

/-- Compact text of array items, comma separated. -/
def compactItems (esc : Escaping) : List Json → String
  | [] => ""
  | [x] => compactWith esc x
  | x :: xs => compactWith esc x ++ "," ++ compactItems esc xs

/-- Compact text of object members, comma separated. -/
def compactFields (esc : Escaping) : List (String × Json) → String
  | [] => ""
  | [(k, v)] => quote esc k ++ ":" ++ compactWith esc v
  | (k, v) :: fs => quote esc k ++ ":" ++ compactWith esc v ++ "," ++ compactFields esc fs
end

/-- Compact text with the escaping of stored documents. -/
def compact (j : Json) : String := compactWith .document j

def indentOf (level : Nat) : String :=
  String.ofList (List.replicate (2 * level) ' ')

mutual
/-- Indented text of a document at a nesting level. -/
def indentedAt (esc : Escaping) (level : Nat) : Json → String
  | .arr [] => "[]"
  | .obj [] => "\x7b\x7d"
  | .arr xs => "[\n" ++ indentedItems esc (level + 1) xs ++ "\n" ++ indentOf level ++ "]"
  | .obj fs =>
    "\x7b\n" ++ indentedFields esc (level + 1) fs ++ "\n" ++ indentOf level ++ "\x7d"
  | j => compactWith esc j

/-- Indented array items, one per line. -/
def indentedItems (esc : Escaping) (level : Nat) : List Json → String
  | [] => ""
  | [x] => indentOf level ++ indentedAt esc level x
  | x :: xs => indentOf level ++ indentedAt esc level x ++ ",\n" ++ indentedItems esc level xs

/-- Indented object members, one per line. -/
def indentedFields (esc : Escaping) (level : Nat) : List (String × Json) → String
  | [] => ""
  | [(k, v)] => indentOf level ++ quote esc k ++ ": " ++ indentedAt esc level v
  | (k, v) :: fs =>
    indentOf level ++ quote esc k ++ ": " ++ indentedAt esc level v ++ ",\n" ++
      indentedFields esc level fs
end

/-- Indented text as the stores write their files. -/
def indented (j : Json) : String := indentedAt .document 0 j

/-- A double as a document number, in its shortest exact form. -/
def ofFloat (x : Float) : Json := .num (Decimal.documentText x)

end Json
end AgentMemory
