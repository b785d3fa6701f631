import AgentMemory.Text.Quote

namespace AgentMemory
namespace Text

/-!
# Records of text: comma-separated values and log lines

A list given as one text, such as the tags of a command line, is read as the first
record of a comma-separated document:

* blank lines before the record are skipped; a text with no record at all is the
  error `EOF`;
* a field without a leading quote runs to the next comma or the end of the line and
  may not hold a quote;
* a field with a leading quote runs to the closing quote, may span lines, and writes
  a quote as two quotes; after the closing quote comes a comma or the end of the line;
* a carriage return before a line feed belongs to the line feed.

Errors name the line and the column (in bytes, from one) where reading stopped, and
the line the record started on when that differs.
-/

/-- A line of a document: its text without the line feed, and whether it had one. -/
structure CsvLine where
  text : List Char
  ended : Bool
deriving Inhabited

/-- The lines of a document; a carriage return before a line feed, or at the very
end, is dropped. -/
def csvLines (s : String) : List CsvLine :=
  let pieces := s.splitOn "\n"
  let strip (cs : List Char) : List Char := if cs.getLast? == some '\r' then cs.dropLast else cs
  let rec go : List String → List CsvLine
    | [] => []
    | [last] => if last.isEmpty then [] else [⟨strip last.toList, false⟩]
    | p :: rest => ⟨strip p.toList, true⟩ :: go rest
  go pieces

def byteWidth (cs : List Char) : Nat := cs.foldl (fun n c => n + c.utf8Size) 0

/-- A reading error: the record's first line, the line and column, and the words. -/
def csvError (start line col : Nat) (words : String) : String :=
  if start == line then
    "parse error on line " ++ toString line ++ ", column " ++ toString col ++ ": " ++ words
  else
    "record on line " ++ toString start ++ "; parse error on line " ++ toString line ++ ", column " ++
      toString col ++ ": " ++ words

/-- The words of a quote inside a field without quotes. -/
def bareQuote : String := "bare \" in non-quoted-field"

/-- The words of a quote that neither closes nor doubles. -/
def strayQuote : String := "extraneous or missing \" in quoted-field"

/-- Where reading stands after a quoted field: the field's text, what follows it on
its line (none at the end of the line), the line number and column, whether that
line had a line feed, and the lines after it. -/
structure AfterQuote where
  field : List Char
  tail : Option (List Char)
  lineNo : Nat
  col : Nat
  ended : Bool
  rest : List CsvLine

/-- The rest of a quoted field, from just after its opening quote.  `fuel` bounds the
characters still to read. -/
def quotedField (fuel : Nat) (start lineNo col : Nat) (line : List Char) (ended : Bool)
    (rest : List CsvLine) (acc : List Char) : Except String AfterQuote :=
  match fuel with
  | 0 => .error (csvError start lineNo col strayQuote)
  | fuel + 1 =>
    match line with
    | '"' :: '"' :: more => quotedField fuel start lineNo (col + 2) more ended rest ('"' :: acc)
    | '"' :: ',' :: more => .ok ⟨acc.reverse, some more, lineNo, col + 2, ended, rest⟩
    | '"' :: [] => .ok ⟨acc.reverse, none, lineNo, col + 1, ended, rest⟩
    | '"' :: _ => .error (csvError start lineNo col strayQuote)
    | c :: more => quotedField fuel start lineNo (col + c.utf8Size) more ended rest (c :: acc)
    | [] =>
      if !ended then .error (csvError start lineNo col strayQuote)
      else
        match rest with
        | [] => .error (csvError start lineNo (col + 1) strayQuote)
        | next :: after => quotedField fuel start (lineNo + 1) 1 next.text next.ended after ('\n' :: acc)

/-- The fields of a record from a position on one of its lines. -/
def recordFields (fuel : Nat) (start lineNo col : Nat) (line : List Char) (ended : Bool)
    (rest : List CsvLine) : Except String (List String) :=
  match fuel with
  | 0 => .ok []
  | fuel + 1 =>
    match line with
    | '"' :: more =>
      let budget := byteWidth more + (rest.map fun l => byteWidth l.text + 1).foldr (· + ·) 0 + 1
      match quotedField budget start lineNo (col + 1) more ended rest [] with
      | .error e => .error e
      | .ok q =>
        match q.tail with
        | some more =>
          match recordFields fuel start q.lineNo q.col more q.ended q.rest with
          | .ok fs => .ok (String.ofList q.field :: fs)
          | .error e => .error e
        | none => .ok [String.ofList q.field]
    | _ =>
      let field := line.takeWhile (· != ',')
      match field.findIdx? (· == '"') with
      | some j => .error (csvError start lineNo (col + byteWidth (field.take j)) bareQuote)
      | none =>
        if field.length < line.length then
          match recordFields fuel start lineNo (col + byteWidth field + 1) (line.drop (field.length + 1))
              ended rest with
          | .ok fs => .ok (String.ofList field :: fs)
          | .error e => .error e
        else .ok [String.ofList field]

/-- The first record of a comma-separated text. -/
def csvRecord (s : String) : Except String (List String) :=
  let numbered := (csvLines s).zipIdx
  match numbered.dropWhile (fun l => l.1.text.isEmpty) with
  | [] => .error "EOF"
  | (l, i) :: rest =>
    recordFields (byteWidth l.text + (rest.map fun r => byteWidth r.1.text + 1).foldr (· + ·) 0 + 2)
      (i + 1) (i + 1) 1 l.text l.ended (rest.map Prod.fst)

/-! ## Lines of a log

Logs written by the memory hold one record per line.  They are split as a line
scanner with a bounded buffer splits them: at line feeds, with a carriage return
before a line feed dropped, and with no empty line after a final line feed.  A line
that does not fit the buffer, that is one of `limit` bytes or more, stops the reading.
-/

/-- The message of a line too long for the buffer. -/
def tooLong : String := "bufio.Scanner: token too long"

/-- The pieces of a text between line feeds; a final line feed ends the last line
rather than starting an empty one. -/
def linePieces (text : String) : List String :=
  let pieces := (text.toList.splitOn '\n').map String.ofList
  match pieces.getLast? with
  | some "" => pieces.dropLast
  | _ => pieces

/-- A line without the carriage return that stood before its line feed. -/
def dropReturn (line : String) : String :=
  if line.endsWith "\r" then String.ofList line.toList.dropLast else line

/-- Split a text into lines; an error when a line has `limit` bytes or more. -/
def scanLines (limit : Nat) (text : String) : Except String (List String) :=
  let pieces := linePieces text
  if pieces.any (fun p => p.utf8ByteSize ≥ limit) then .error tooLong
  else .ok (pieces.map dropReturn)

end Text
end AgentMemory
