import AgentMemory.Text.Case

namespace AgentMemory
namespace Regex

/-!
# Regular expressions: syntax

Patterns are written in the RE2 dialect of regular expressions: alternation `|`,
groups `( )`, non-capturing groups `(?: )`, named groups `(?P<name> )` and
`(?<name> )`, the flags `i` (case-insensitive), `m` (`^` and `$` at line
boundaries), `s` (`.` matches a line feed) and `U` (lazy by default), set for the rest
of the group by `(?flags)` or for one group by `(?flags: )`, the repetitions `*`, `+`,
`?` and `{n}`, `{n,}`, `{n,m}` with at most 1000 copies, each with a lazy form, the
bracket classes with ranges, negation, the named ASCII classes `[:alpha:]` and the
escapes `\d \s \w` with their negations, and the assertions `^ $ \A \z \b \B`.

The character classes `\d`, `\s`, `\w` and the word boundary `\b` are ASCII only;
`\s` is tab, line feed, form feed, carriage return and space.  Under the `i` flag a
character stands for every character of its case class (`Text.foldClass`).

A malformed pattern is refused with the kind of fault and the piece of the pattern
that shows it, such as `missing closing ]` with the text from the bracket on.
-/

/-- Characters given as a union of items; with `fold` an item matches a character when
it matches any character of the character's case class. -/
inductive ClassItem where
  /-- The code points `lo..hi`. -/
  | range (lo hi : Nat)
  /-- Every code point outside the ranges (and, under folding, outside their case
  classes). -/
  | outside (ranges : List (Nat × Nat))
deriving Inhabited, Repr

/-- A set of characters. -/
structure CharClass where
  items : List ClassItem
  fold : Bool := false
  negated : Bool := false
deriving Inhabited, Repr

/-- Zero-width conditions on a position. -/
inductive Assertion where
  | beginLine
  | endLine
  | beginText
  | endText
  | wordBoundary
  | notWordBoundary
deriving Inhabited, Repr, BEq

/-- A parsed pattern. -/
inductive Node where
  | empty
  | noMatch
  | chars (cls : CharClass)
  | assert (a : Assertion)
  | capture (index : Nat) (body : Node)
  | concat (parts : List Node)
  | alt (options : List Node)
  | star (body : Node) (greedy : Bool)
  | plus (body : Node) (greedy : Bool)
  | quest (body : Node) (greedy : Bool)
  /-- `max = none` is an open repetition `{min,}`. -/
  | rep (body : Node) (min : Nat) (max : Option Nat) (greedy : Bool)
deriving Inhabited, Repr

/-- The kinds of malformed patterns. -/
inductive ErrorCode where
  | invalidCharClass
  | invalidCharRange
  | invalidEscape
  | invalidNamedCapture
  | invalidPerlOp
  | invalidRepeatOp
  | invalidRepeatSize
  | missingBracket
  | missingParen
  | missingRepeatArgument
  | trailingBackslash
  | unexpectedParen
  | duplicateCaptureName
deriving Inhabited, Repr, BEq

/-- The wording of a fault kind. -/
def ErrorCode.text : ErrorCode → String
  | .invalidCharClass => "invalid character class"
  | .invalidCharRange => "invalid character class range"
  | .invalidEscape => "invalid escape sequence"
  | .invalidNamedCapture => "invalid named capture"
  | .invalidPerlOp => "invalid or unsupported Perl syntax"
  | .invalidRepeatOp => "invalid nested repetition operator"
  | .invalidRepeatSize => "invalid repeat count"
  | .missingBracket => "missing closing ]"
  | .missingParen => "missing closing )"
  | .missingRepeatArgument => "missing argument to repetition operator"
  | .trailingBackslash => "trailing backslash at end of expression"
  | .unexpectedParen => "unexpected )"
  | .duplicateCaptureName => "duplicate capture group name"

/-- A malformed pattern: the fault and the piece of pattern that shows it. -/
structure SyntaxError where
  code : ErrorCode
  piece : String
deriving Inhabited, Repr

/-- The message of a malformed pattern. -/
def SyntaxError.message (e : SyntaxError) : String :=
  "error parsing regexp: " ++ e.code.text ++ ": " ++ String.ofList ['\x60'] ++ e.piece ++
    String.ofList ['\x60']

/-- The flags in force while a pattern is read. -/
structure Flags where
  fold : Bool := false
  dotNewline : Bool := false
  multiLine : Bool := false
  lazy : Bool := false
deriving Inhabited, Repr

/-! ## Character groups -/

def digitRanges : List (Nat × Nat) := [(0x30, 0x39)]

/-- The blanks of `\s`: tab, line feed, form feed, carriage return, space. -/
def spaceRanges : List (Nat × Nat) := [(0x09, 0x0A), (0x0C, 0x0D), (0x20, 0x20)]

/-- Word characters: digits, ASCII letters and the underscore. -/
def wordRanges : List (Nat × Nat) := [(0x30, 0x39), (0x41, 0x5A), (0x5F, 0x5F), (0x61, 0x7A)]

/-- The named ASCII classes of bracket expressions. -/
def namedClass? (name : String) : Option (List (Nat × Nat)) :=
  match name with
  | "alnum" => some [(0x30, 0x39), (0x41, 0x5A), (0x61, 0x7A)]
  | "alpha" => some [(0x41, 0x5A), (0x61, 0x7A)]
  | "ascii" => some [(0x00, 0x7F)]
  | "blank" => some [(0x09, 0x09), (0x20, 0x20)]
  | "cntrl" => some [(0x00, 0x1F), (0x7F, 0x7F)]
  | "digit" => some [(0x30, 0x39)]
  | "graph" => some [(0x21, 0x7E)]
  | "lower" => some [(0x61, 0x7A)]
  | "print" => some [(0x20, 0x7E)]
  | "punct" => some [(0x21, 0x2F), (0x3A, 0x40), (0x5B, 0x60), (0x7B, 0x7E)]
  | "space" => some [(0x09, 0x0D), (0x20, 0x20)]
  | "upper" => some [(0x41, 0x5A)]
  | "word" => some [(0x30, 0x39), (0x41, 0x5A), (0x5F, 0x5F), (0x61, 0x7A)]
  | "xdigit" => some [(0x30, 0x39), (0x41, 0x46), (0x61, 0x66)]
  | _ => none

def groupItems (ranges : List (Nat × Nat)) (negated : Bool) : List ClassItem :=
  if negated then [.outside ranges] else ranges.map (fun r => .range r.1 r.2)

/-- The Perl escape classes `\d \D \s \S \w \W`. -/
def perlGroup? (c : Char) : Option (List ClassItem) :=
  match c with
  | 'd' => some (groupItems digitRanges false)
  | 'D' => some (groupItems digitRanges true)
  | 's' => some (groupItems spaceRanges false)
  | 'S' => some (groupItems spaceRanges true)
  | 'w' => some (groupItems wordRanges false)
  | 'W' => some (groupItems wordRanges true)
  | _ => none

/-! ## The reader -/

/-- What the reader carries: the flags in force, how many groups were opened, and the
group names seen. -/
structure ReadState where
  flags : Flags
  groups : Nat := 0
  names : List String := []

abbrev Reader := StateT ReadState (Except SyntaxError)

def fault (code : ErrorCode) (piece : List Char) : Reader α :=
  throw ⟨code, String.ofList piece⟩

def isAlnum (c : Char) : Bool := c.isAlphanum

def isOctal (c : Char) : Bool := '0' ≤ c && c ≤ '7'

/-- The value of a hex digit. -/
def hexValue? (c : Char) : Option Nat :=
  if '0' ≤ c && c ≤ '9' then some (c.toNat - '0'.toNat)
  else if 'a' ≤ c && c ≤ 'f' then some (c.toNat - 'a'.toNat + 10)
  else if 'A' ≤ c && c ≤ 'F' then some (c.toNat - 'A'.toNat + 10)
  else none

/-- The hex digits of a braced escape `\x{...}` up to the closing brace: the value and
the rest after the brace, or `none` when a digit is missing or not hex. -/
def bracedHex (cs : List Char) (acc : Nat) (count : Nat) : Option (Nat × List Char) :=
  match cs with
  | [] => none
  | '\x7d' :: rest => if count == 0 then none else some (acc, rest)
  | c :: rest =>
    match hexValue? c with
    | none => none
    | some d =>
      let v := acc * 16 + d
      if v > 0x10FFFF then none else bracedHex rest v (count + 1)

/-- Up to `k` more octal digits after a first one. -/
def octalMore (k : Nat) (acc : Nat) (cs : List Char) : Nat × List Char :=
  match k, cs with
  | 0, _ => (acc, cs)
  | k + 1, c :: rest => if isOctal c then octalMore k (acc * 8 + (c.toNat - '0'.toNat)) rest else (acc, cs)
  | _ + 1, [] => (acc, [])

/-- One escaped character after a backslash: the character and the rest.  `whole` is
the text from the backslash on, to cut the piece of an invalid escape. -/
def readEscape (whole : List Char) : Except SyntaxError (Char × List Char) :=
  let bad (rest : List Char) : Except SyntaxError (Char × List Char) :=
    .error ⟨.invalidEscape, String.ofList (whole.take (whole.length - rest.length))⟩
  match whole with
  | [] | [_] => .error ⟨.trailingBackslash, ""⟩
  | _ :: c :: t =>
    if c.toNat < 0x80 && !isAlnum c then .ok (c, t)
    else if ('1' ≤ c && c ≤ '7') then
      match t with
      | d :: _ =>
        if isOctal d then
          let (v, rest) := octalMore 2 (c.toNat - '0'.toNat) t
          .ok (Char.ofNat v, rest)
        else bad t
      | [] => bad t
    else if c == '0' then
      let (v, rest) := octalMore 2 0 t
      .ok (Char.ofNat v, rest)
    else if c == 'x' then
      match t with
      | [] => bad t
      | '\x7b' :: rest =>
        match bracedHex rest 0 0 with
        | some (v, rest') => .ok (Char.ofNat v, rest')
        | none => bad rest
      | x :: rest =>
        match rest with
        | [] => bad rest
        | y :: rest' =>
          match hexValue? x, hexValue? y with
          | some a, some b => .ok (Char.ofNat (a * 16 + b), rest')
          | _, _ => bad rest'
    else if c == 'a' then .ok (Char.ofNat 7, t)
    else if c == 'f' then .ok (Char.ofNat 12, t)
    else if c == 'n' then .ok ('\n', t)
    else if c == 'r' then .ok ('\r', t)
    else if c == 't' then .ok ('\t', t)
    else if c == 'v' then .ok (Char.ofNat 11, t)
    else bad t

/-- The class of one literal character under the flags. -/
def literalClass (flags : Flags) (c : Char) : CharClass :=
  { items := [.range c.toNat c.toNat], fold := flags.fold }

/-- The class of `.`. -/
def anyClass (flags : Flags) : CharClass :=
  if flags.dotNewline then { items := [.range 0 0x10FFFF] }
  else { items := [.range 0 9, .range 11 0x10FFFF] }

/-- The position of the first `:]` in a text. -/
def closingColon : List Char → Nat → Option Nat
  | ':' :: ']' :: _, k => some k
  | _ :: rest, k => closingColon rest (k + 1)
  | [], _ => none

/-- Read a bracket class body after `[` (and `^`): its items and the rest after `]`.
`whole` is the text from `[` on.  Each step consumes at least one character. -/
def readClassItems (whole : List Char) (cs : List Char) (first : Bool) (acc : List ClassItem) :
    Except SyntaxError (List ClassItem × List Char) :=
  match cs with
  | [] => .error ⟨.missingBracket, String.ofList whole⟩
  | c :: rest =>
    if c == ']' && !first then .ok (acc.reverse, rest)
    else
      -- a named class [:name:] or [:^name:]
      let named? : Option (Except SyntaxError (List ClassItem × List Char)) :=
        match cs with
        | '[' :: ':' :: more =>
          match closingColon more 0 with
          | none => none
          | some k =>
            let nameChars := more.take k
            let rest' := more.drop (k + 2)
            let (neg, name) := match nameChars with
              | '^' :: n => (true, n)
              | n => (false, n)
            match namedClass? (String.ofList name) with
            | some ranges => some (.ok (groupItems ranges neg, rest'))
            | none =>
              some (.error ⟨.invalidCharRange,
                String.ofList (cs.take (cs.length - rest'.length))⟩)
        | _ => none
      match named? with
      | some (.error e) => .error e
      | some (.ok (items, rest')) =>
        if rest'.length ≤ rest.length then readClassItems whole rest' false (items.reverse ++ acc)
        else .error ⟨.missingBracket, String.ofList whole⟩
      | none =>
        let perl? : Option (List ClassItem × List Char) :=
          match cs with
          | '\\' :: e :: rest' => (perlGroup? e).map (fun items => (items, rest'))
          | _ => none
        match perl? with
        | some (items, rest') =>
          if rest'.length ≤ rest.length then readClassItems whole rest' false (items.reverse ++ acc)
          else .error ⟨.missingBracket, String.ofList whole⟩
        | none =>
          -- a single character or a range
          let one (xs : List Char) : Except SyntaxError (Char × List Char) :=
            match xs with
            | [] => .error ⟨.missingBracket, String.ofList whole⟩
            | '\\' :: _ => readEscape xs
            | x :: rest' => .ok (x, rest')
          match one cs with
          | .error e => .error e
          | .ok (lo, rest') =>
            match rest' with
            | '-' :: more =>
              match more with
              | ']' :: _ =>
                if rest'.length ≤ rest.length then
                  readClassItems whole rest' false (.range lo.toNat lo.toNat :: acc)
                else .error ⟨.missingBracket, String.ofList whole⟩
              | [] => .error ⟨.missingBracket, String.ofList whole⟩
              | _ =>
                match one more with
                | .error e => .error e
                | .ok (hi, rest'') =>
                  if hi < lo then
                    .error ⟨.invalidCharRange, String.ofList (cs.take (cs.length - rest''.length))⟩
                  else if rest''.length ≤ rest.length then
                    readClassItems whole rest'' false (.range lo.toNat hi.toNat :: acc)
                  else .error ⟨.missingBracket, String.ofList whole⟩
            | _ =>
              if rest'.length ≤ rest.length then
                readClassItems whole rest' false (.range lo.toNat lo.toNat :: acc)
              else .error ⟨.missingBracket, String.ofList whole⟩
termination_by cs.length
decreasing_by all_goals (simp only [List.length_cons]; omega)

/-- Read a bracket class starting at `[`: the class and the rest. -/
def readClass (flags : Flags) (cs : List Char) : Except SyntaxError (CharClass × List Char) :=
  match cs with
  | '[' :: rest =>
    let (neg, body) := match rest with
      | '^' :: b => (true, b)
      | b => (false, b)
    match readClassItems cs body true [] with
    | .ok (items, after) => .ok ({ items := items, fold := flags.fold, negated := neg }, after)
    | .error e => .error e
  | _ => .error ⟨.missingBracket, String.ofList cs⟩

/-- A repetition count `{n}`, `{n,}` or `{n,m}` at the start of the text: minimum,
maximum (`none` when open) and the rest; `none` when the text is no count, so that
the brace is a plain character.  Counts have no leading zero. -/
def readCount (cs : List Char) : Option (Nat × Option Nat × List Char) :=
  let number (xs : List Char) : Option (Nat × List Char) :=
    let ds := xs.takeWhile Char.isDigit
    match ds with
    | [] => none
    | '0' :: _ :: _ => none
    | _ =>
      let v := ds.foldl (fun acc d => acc * 10 + (d.toNat - '0'.toNat)) 0
      -- counts beyond eight digits are refused later, as too large
      some (if ds.length > 8 then 100000000 else v, xs.drop ds.length)
  match cs with
  | '\x7b' :: rest =>
    match number rest with
    | none => none
    | some (lo, after) =>
      match after with
      | '\x7d' :: rest' => some (lo, some lo, rest')
      | ',' :: '\x7d' :: rest' => some (lo, none, rest')
      | ',' :: more =>
        match number more with
        | some (hi, '\x7d' :: rest') => some (lo, some hi, rest')
        | _ => none
      | _ => none
  | _ => none

/-- The group nesting of repetitions stays within `n` copies of the innermost part. -/
def repeatWithin (node : Node) (n : Nat) : Bool :=
  match node with
  | .rep body min max _ =>
    let m := match max with
      | some m => m
      | none => min
    if max == some 0 then true
    else if m > n then false
    else repeatWithin body (if m > 0 then n / m else n)
  | .capture _ body => repeatWithin body n
  | .concat parts => partsWithin parts n
  | .alt options => partsWithin options n
  | .star body _ => repeatWithin body n
  | .plus body _ => repeatWithin body n
  | .quest body _ => repeatWithin body n
  | _ => true
where
  partsWithin : List Node → Nat → Bool
    | [], _ => true
    | p :: ps, n => repeatWithin p n && partsWithin ps n

/-- The pieces of a sequence being read: the items so far, most recent first, and
whether the last token was a repetition, with the text from that token on. -/
structure Sequence where
  items : List Node := []
  lastRepeat : Option (List Char) := none

/-- A valid group name: letters, digits and underscores, not empty. -/
def validGroupName (name : List Char) : Bool :=
  !name.isEmpty && name.all (fun c => c == '_' || isAlnum c)

/-- The outcome of reading the opening of a group `(?...`. -/
inductive GroupOpening where
  /-- Flags changed for the rest of the current group. -/
  | setFlags (flags : Flags) (rest : List Char)
  /-- A non-capturing group with its flags. -/
  | plain (flags : Flags) (rest : List Char)
  /-- A named capturing group. -/
  | named (name : String) (rest : List Char)

/-- Read `(?flags)`, `(?flags:`, `(?P<name>` or `(?<name>` from the text at `(`. -/
def readGroupOpening (flags : Flags) (s : List Char) : Except SyntaxError GroupOpening :=
  let t := s.drop 2
  let namedStart? : Option Nat :=
    match t with
    | 'P' :: '<' :: _ => if s.length > 4 then some 4 else none
    | '<' :: _ => if s.length > 3 then some 3 else none
    | _ => none
  match namedStart? with
  | some begin =>
    let afterOpen := s.drop begin
    let name := afterOpen.takeWhile (· != '>')
    if name.length == afterOpen.length then .error ⟨.invalidNamedCapture, String.ofList s⟩
    else
      let rest := afterOpen.drop (name.length + 1)
      if validGroupName name then .ok (.named (String.ofList name) rest)
      else .error ⟨.invalidNamedCapture, String.ofList (s.take (begin + name.length + 1))⟩
  | none =>
    let bad (rest : List Char) : Except SyntaxError GroupOpening :=
      .error ⟨.invalidPerlOp, String.ofList (s.take (s.length - rest.length))⟩
    let rec loop (cs : List Char) (f : Flags) (negative sawFlag : Bool) :
        Except SyntaxError GroupOpening :=
      match cs with
      | [] => bad []
      | c :: rest =>
        if c == 'i' then loop rest { f with fold := !negative } negative true
        else if c == 'm' then loop rest { f with multiLine := !negative } negative true
        else if c == 's' then loop rest { f with dotNewline := !negative } negative true
        else if c == 'U' then loop rest { f with lazy := !negative } negative true
        else if c == '-' then
          if negative then bad rest else loop rest f true false
        else if c == ':' || c == ')' then
          if negative && !sawFlag then bad rest
          else if c == ':' then .ok (.plain f rest) else .ok (.setFlags f rest)
        else bad rest
    loop t flags false false

/-- Wrap the last item of a sequence in a repetition.  `before` is the text from the
operator on and `after` the text after it, so that the operator's own text is their
difference. -/
def applyRepeat (seq : Sequence) (make : Node → Node) (isCount : Bool)
    (before after : List Char) : Except SyntaxError Sequence :=
  let opText := before.take (before.length - after.length)
  match seq.lastRepeat with
  | some last => .error ⟨.invalidRepeatOp, String.ofList (last.take (last.length - after.length))⟩
  | none =>
    match seq.items with
    | [] => .error ⟨.missingRepeatArgument, String.ofList opText⟩
    | x :: xs =>
      let node := make x
      let tooMany := match node with
        | .rep _ min max _ =>
          isCount && (min ≥ 2 || (match max with | some m => m ≥ 2 | none => false)) &&
            !repeatWithin node 1000
        | _ => false
      if tooMany then .error ⟨.invalidRepeatSize, String.ofList opText⟩
      else .ok { items := node :: xs, lastRepeat := some before }

/-- A sequence as one node. -/
def Sequence.toNode (seq : Sequence) : Node :=
  match seq.items.reverse with
  | [] => .empty
  | [x] => x
  | xs => .concat xs

mutual
/-- Read alternatives up to a closing parenthesis or the end: the node and the rest
(the closing parenthesis is left in the rest).  `depth` counts open groups and `fuel`
bounds the work by the pattern's length. -/
def readAlternation (whole : List Char) (fuel : Nat) (depth : Nat) (cs : List Char) :
    Reader (Node × List Char) := do
  match fuel with
  | 0 => fault .missingParen whole
  | fuel + 1 =>
    let (first, rest) ← readSequence whole fuel depth cs {}
    match rest with
    | '|' :: more =>
      let (others, rest') ← readAlternation whole fuel depth more
      match others with
      | .alt options => pure (.alt (first :: options), rest')
      | other => pure (.alt [first, other], rest')
    | _ => pure (first, rest)

/-- Read one sequence of items up to `|`, `)` or the end. -/
def readSequence (whole : List Char) (fuel : Nat) (depth : Nat) (cs : List Char) (seq : Sequence) :
    Reader (Node × List Char) := do
  match fuel with
  | 0 => fault .missingParen whole
  | fuel + 1 =>
    let st ← get
    let flags := st.flags
    match cs with
    | [] => pure (seq.toNode, [])
    | '|' :: _ => pure (seq.toNode, cs)
    | ')' :: _ =>
      if depth == 0 then fault .unexpectedParen whole else pure (seq.toNode, cs)
    | '(' :: rest =>
      match rest with
      | '?' :: _ =>
        match readGroupOpening flags cs with
        | .error e => throw e
        | .ok (.setFlags f after) =>
          set { st with flags := f }
          readSequence whole fuel depth after { seq with lastRepeat := none }
        | .ok (.plain f after) =>
          set { st with flags := f }
          let (body, after') ← readAlternation whole fuel (depth + 1) after
          match after' with
          | ')' :: more =>
            modify (fun s => { s with flags := flags })
            readSequence whole fuel depth more { items := body :: seq.items }
          | _ => fault .missingParen whole
        | .ok (.named name after) =>
          if st.names.contains name then fault .duplicateCaptureName (name.toList)
          else
            let index := st.groups + 1
            set { st with groups := index, names := name :: st.names }
            let (body, after') ← readAlternation whole fuel (depth + 1) after
            match after' with
            | ')' :: more =>
              modify (fun s => { s with flags := flags })
              readSequence whole fuel depth more { items := .capture index body :: seq.items }
            | _ => fault .missingParen whole
      | _ =>
        let index := st.groups + 1
        set { st with groups := index }
        let (body, after') ← readAlternation whole fuel (depth + 1) rest
        match after' with
        | ')' :: more =>
          modify (fun s => { s with flags := flags })
          readSequence whole fuel depth more { items := .capture index body :: seq.items }
        | _ => fault .missingParen whole
    | '[' :: _ =>
      match readClass flags cs with
      | .error e => throw e
      | .ok (cls, after) => readSequence whole fuel depth after { items := .chars cls :: seq.items }
    | '.' :: rest => readSequence whole fuel depth rest { items := .chars (anyClass flags) :: seq.items }
    | '^' :: rest =>
      let a := if flags.multiLine then Assertion.beginLine else .beginText
      readSequence whole fuel depth rest { items := .assert a :: seq.items }
    | '$' :: rest =>
      let a := if flags.multiLine then Assertion.endLine else .endText
      readSequence whole fuel depth rest { items := .assert a :: seq.items }
    | c :: rest =>
      if c == '*' || c == '+' || c == '?' then
        let (greedy, after) := match rest with
          | '?' :: more => (flags.lazy, more)
          | more => (!flags.lazy, more)
        let make : Node → Node := fun x =>
          if c == '*' then .star x greedy else if c == '+' then .plus x greedy else .quest x greedy
        match applyRepeat seq make false cs after with
        | .error e => throw e
        | .ok seq' => readSequence whole fuel depth after seq'
      else if c == '\x7b' then
        match readCount cs with
        | none => readSequence whole fuel depth rest { items := .chars (literalClass flags c) :: seq.items }
        | some (lo, hi, after0) =>
          let (greedy, after) := match after0 with
            | '?' :: more => (flags.lazy, more)
            | more => (!flags.lazy, more)
          let countText := cs.take (cs.length - after0.length)
          if lo > 1000 || (match hi with | some h => h > 1000 || lo > h | none => false) then
            fault .invalidRepeatSize countText
          else
            match applyRepeat seq (fun x => .rep x lo hi greedy) true cs after with
            | .error e => throw e
            | .ok seq' => readSequence whole fuel depth after seq'
      else if c == '\\' then
        match rest with
        | 'A' :: more => readSequence whole fuel depth more { items := .assert .beginText :: seq.items }
        | 'z' :: more => readSequence whole fuel depth more { items := .assert .endText :: seq.items }
        | 'b' :: more => readSequence whole fuel depth more { items := .assert .wordBoundary :: seq.items }
        | 'B' :: more =>
          readSequence whole fuel depth more { items := .assert .notWordBoundary :: seq.items }
        | 'C' :: _ => fault .invalidEscape (cs.take 2)
        | 'Q' :: more =>
          let (lit, after) := cutQuoted more []
          let nodes := lit.map (fun ch => Node.chars (literalClass flags ch))
          readSequence whole fuel depth after { items := nodes.reverse ++ seq.items }
        | 'p' :: _ | 'P' :: _ => fault .invalidCharRange (cs.take 3)
        | e :: more =>
          match perlGroup? e with
          | some items =>
            readSequence whole fuel depth more
              { items := .chars { items := items, fold := flags.fold } :: seq.items }
          | none =>
            match readEscape cs with
            | .error err => throw err
            | .ok (ch, after) =>
              readSequence whole fuel depth after { items := .chars (literalClass flags ch) :: seq.items }
        | [] => fault .trailingBackslash []
      else readSequence whole fuel depth rest { items := .chars (literalClass flags c) :: seq.items }
where
  /-- The text up to `\E` (or the end) and the rest after it. -/
  cutQuoted : List Char → List Char → List Char × List Char
    | [], acc => (acc.reverse, [])
    | '\\' :: 'E' :: rest, acc => (acc.reverse, rest)
    | c :: rest, acc => cutQuoted rest (c :: acc)
end

/-- A parsed pattern with its number of capturing groups. -/
structure Parsed where
  node : Node
  groups : Nat

/-- Parse a whole pattern. -/
def parse (pattern : String) : Except SyntaxError Parsed :=
  let cs := pattern.toList
  match (readAlternation cs (4 * cs.length + 4) 0 cs).run { flags := {} } with
  | .error e => .error e
  | .ok ((node, rest), st) =>
    match rest with
    | [] => .ok ⟨node, st.groups⟩
    | _ => .error ⟨.unexpectedParen, pattern⟩

end Regex
end AgentMemory
