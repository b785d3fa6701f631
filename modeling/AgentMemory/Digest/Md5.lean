namespace AgentMemory
namespace Digest

/-!
# MD5

The MD5 digest of a byte string (RFC 1321): the message is padded with a one bit,
zeros and its bit length to a multiple of 64 bytes, and each 64-byte block runs
through four rounds of sixteen steps over four 32-bit words.  The memory uses the
digest only to derive stable identifiers from text, not for security.
-/

/-- The sine-derived constants of the 64 steps. -/
def sines : Array UInt32 := #[
  0xd76aa478, 0xe8c7b756, 0x242070db, 0xc1bdceee, 0xf57c0faf, 0x4787c62a, 0xa8304613, 0xfd469501,
  0x698098d8, 0x8b44f7af, 0xffff5bb1, 0x895cd7be, 0x6b901122, 0xfd987193, 0xa679438e, 0x49b40821,
  0xf61e2562, 0xc040b340, 0x265e5a51, 0xe9b6c7aa, 0xd62f105d, 0x02441453, 0xd8a1e681, 0xe7d3fbc8,
  0x21e1cde6, 0xc33707d6, 0xf4d50d87, 0x455a14ed, 0xa9e3e905, 0xfcefa3f8, 0x676f02d9, 0x8d2a4c8a,
  0xfffa3942, 0x8771f681, 0x6d9d6122, 0xfde5380c, 0xa4beea44, 0x4bdecfa9, 0xf6bb4b60, 0xbebfbc70,
  0x289b7ec6, 0xeaa127fa, 0xd4ef3085, 0x04881d05, 0xd9d4d039, 0xe6db99e5, 0x1fa27cf8, 0xc4ac5665,
  0xf4292244, 0x432aff97, 0xab9423a7, 0xfc93a039, 0x655b59c3, 0x8f0ccc92, 0xffeff47d, 0x85845dd1,
  0x6fa87e4f, 0xfe2ce6e0, 0xa3014314, 0x4e0811a1, 0xf7537e82, 0xbd3af235, 0x2ad7d2bb, 0xeb86d391]

/-- The rotation amounts of the 64 steps. -/
def shifts : Array UInt32 := #[
  7, 12, 17, 22, 7, 12, 17, 22, 7, 12, 17, 22, 7, 12, 17, 22,
  5, 9, 14, 20, 5, 9, 14, 20, 5, 9, 14, 20, 5, 9, 14, 20,
  4, 11, 16, 23, 4, 11, 16, 23, 4, 11, 16, 23, 4, 11, 16, 23,
  6, 10, 15, 21, 6, 10, 15, 21, 6, 10, 15, 21, 6, 10, 15, 21]

def rotl (x : UInt32) (n : UInt32) : UInt32 := (x <<< n) ||| (x >>> (32 - n))

/-- The little-endian word at a byte offset of a block. -/
def wordAt (block : Array UInt8) (i : Nat) : UInt32 :=
  (block.getD i 0).toUInt32 ||| ((block.getD (i + 1) 0).toUInt32 <<< 8) |||
    ((block.getD (i + 2) 0).toUInt32 <<< 16) ||| ((block.getD (i + 3) 0).toUInt32 <<< 24)

/-- The state after one block. -/
def compress (state : UInt32 × UInt32 × UInt32 × UInt32) (block : Array UInt8) :
    UInt32 × UInt32 × UInt32 × UInt32 :=
  let (a0, b0, c0, d0) := state
  let m := (List.range 16).toArray.map fun i => wordAt block (4 * i)
  let step (s : UInt32 × UInt32 × UInt32 × UInt32) (i : Nat) : UInt32 × UInt32 × UInt32 × UInt32 :=
    let (a, b, c, d) := s
    let (f, g) :=
      if i < 16 then ((b &&& c) ||| ((~~~ b) &&& d), i)
      else if i < 32 then ((d &&& b) ||| ((~~~ d) &&& c), (5 * i + 1) % 16)
      else if i < 48 then (b ^^^ c ^^^ d, (3 * i + 5) % 16)
      else (c ^^^ (b ||| (~~~ d)), (7 * i) % 16)
    let f := f + a + sines.getD i 0 + m.getD g 0
    (d, b + rotl f (shifts.getD i 0), b, c)
  let (a, b, c, d) := (List.range 64).foldl step (a0, b0, c0, d0)
  (a0 + a, b0 + b, c0 + c, d0 + d)

/-- The padded message: a one bit, zeros, and the bit length in eight bytes. -/
def pad (msg : List UInt8) : List UInt8 :=
  let len := msg.length
  let zeros := (64 + 56 - (len + 1) % 64) % 64
  let bits := 8 * len
  msg ++ [(0x80 : UInt8)] ++ List.replicate zeros (0 : UInt8) ++ (List.range 8).map fun i => ((bits >>> (8 * i)) % 256).toUInt8

def blocks (bytes : List UInt8) (fuel : Nat) : List (Array UInt8) :=
  match fuel with
  | 0 => []
  | fuel + 1 => if bytes.isEmpty then [] else (bytes.take 64).toArray :: blocks (bytes.drop 64) fuel

def wordBytes (w : UInt32) : List UInt8 :=
  (List.range 4).map fun i => ((w >>> (8 * i).toUInt32) &&& 0xff).toUInt8

/-- The MD5 digest of bytes. -/
def md5 (msg : List UInt8) : List UInt8 :=
  let padded := pad msg
  let (a, b, c, d) := (blocks padded padded.length).foldl compress
    (0x67452301, 0xefcdab89, 0x98badcfe, 0x10325476)
  wordBytes a ++ wordBytes b ++ wordBytes c ++ wordBytes d

def hex (bytes : List UInt8) : String :=
  let digit (n : Nat) : Char := if n < 10 then Char.ofNat (48 + n) else Char.ofNat (87 + n)
  String.ofList (bytes.flatMap fun b => [digit (b.toNat / 16), digit (b.toNat % 16)])

/-- The hexadecimal MD5 digest of a text's UTF-8 bytes. -/
def md5Hex (s : String) : String := hex (md5 s.toUTF8.data.toList)

end Digest
end AgentMemory
