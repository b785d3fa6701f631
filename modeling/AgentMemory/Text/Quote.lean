namespace AgentMemory
namespace Text

/-!
# Quoted text and base 64

Messages name an offending value in double quotes, escaped so that the value can be
read back exactly: the quote and the backslash get a backslash, the usual control
characters their short escapes (`\n`, `\t`, ...), other control characters `\xNN`,
and characters that do not print (separators, format characters, private-use and
unassigned code points) `\uNNNN` or `\UNNNNNNNN`.  Printable characters, whatever
their script, stay as they are.
-/

def hexChar (n : Nat) : Char :=
  if n < 10 then Char.ofNat (48 + n) else Char.ofNat (87 + n)

def hexDigits (width n : Nat) : List Char :=
  (List.range width).reverse.map (fun i => hexChar (n / Nat.pow 16 i % 16))

/-- Code points that print: graphic characters and the ASCII space, excluding the
other space separators, the format and private-use characters, and the code points
left unassigned in the common blocks. -/
def printable (c : Char) : Bool :=
  let n := c.toNat
  if n < 0x7F then n ≥ 0x20
  else if n < 0xA0 then false
  else
    !(n == 0xA0 || n == 0xAD || n == 0x1680 || (0x2000 ≤ n && n ≤ 0x200F) ||
      (0x2028 ≤ n && n ≤ 0x202F) || (0x205F ≤ n && n ≤ 0x206F) || n == 0x3000 ||
      (0x0600 ≤ n && n ≤ 0x0605) || n == 0x061C || n == 0x06DD || n == 0x070F ||
      n == 0x180E || n == 0xFEFF || (0xFFF0 ≤ n && n ≤ 0xFFFB) || n == 0xFFFE || n == 0xFFFF ||
      (0xD800 ≤ n && n ≤ 0xF8FF) || (0xE0000 ≤ n) || (0x378 ≤ n && n ≤ 0x379) ||
      (0x380 ≤ n && n ≤ 0x383) || n == 0x38B || n == 0x38D || n == 0x3A2 ||
      (0x1D173 ≤ n && n ≤ 0x1D17A))

/-- The escaped form of one character inside double quotes. -/
def quoteChar (c : Char) : List Char :=
  let n := c.toNat
  if c == '"' then ['\\', '"']
  else if c == '\\' then ['\\', '\\']
  else if printable c then [c]
  else if n == 7 then ['\\', 'a']
  else if n == 8 then ['\\', 'b']
  else if n == 12 then ['\\', 'f']
  else if n == 10 then ['\\', 'n']
  else if n == 13 then ['\\', 'r']
  else if n == 9 then ['\\', 't']
  else if n == 11 then ['\\', 'v']
  else if n < 0x20 || n == 0x7F then ['\\', 'x'] ++ hexDigits 2 n
  else if n < 0x10000 then ['\\', 'u'] ++ hexDigits 4 n
  else ['\\', 'U'] ++ hexDigits 8 n

def quote (s : String) : String :=
  String.ofList ('"' :: s.toList.flatMap quoteChar ++ ['"'])

/-! ## Base 64

The standard base 64 alphabet of RFC 4648 §4 with padding: every three bytes become
four characters, and a last group of one or two bytes is padded with `=` to four.
Log records write raw bytes this way.
-/

/-- RFC 4648 §4: `A-Z` for 0..25, `a-z` for 26..51, `0-9` for 52..61, `+` and `/`. -/
def base64Char (n : Nat) : Char :=
  if n < 26 then Char.ofNat (65 + n)
  else if n < 52 then Char.ofNat (97 + n - 26)
  else if n < 62 then Char.ofNat (48 + n - 52)
  else if n == 62 then '+'
  else '/'

/-- The characters of one group of at most three bytes. -/
def base64Group (bs : List Nat) : List Char :=
  match bs with
  | [a] => [base64Char (a / 4), base64Char (a % 4 * 16), '=', '=']
  | [a, b] => [base64Char (a / 4), base64Char (a % 4 * 16 + b / 16), base64Char (b % 16 * 4), '=']
  | a :: b :: c :: _ =>
    [base64Char (a / 4), base64Char (a % 4 * 16 + b / 16), base64Char (b % 16 * 4 + c / 64),
     base64Char (c % 64)]
  | [] => []

/-- Encode bytes in base 64 with padding. -/
def base64 (bytes : List UInt8) : String :=
  let rec go (bs : List Nat) (acc : List Char) : List Char :=
    match bs with
    | a :: b :: c :: rest => go rest (acc ++ base64Group [a, b, c])
    | rest => acc ++ base64Group rest
  String.ofList (go (bytes.map UInt8.toNat) [])

end Text
end AgentMemory
