import Mathlib.Data.List.TakeWhile
import Mathlib.Data.String.Basic
import AgentMemory.Text.Csv
import AgentMemory.Text.Case

namespace AgentMemory
namespace Text

/-!
# Splitting a log into its lines

A log is written line by line, each line closed by a line feed; `joinLines` is the text
of such a log.  When no line holds a line feed itself, splitting the text gives the lines
back (`linePieces_joinLines`): each line feed ends the piece before it, and the empty
piece after the last one is dropped.  Scanning them then fails exactly when one of them
has as many bytes as the limit (`scanLines_joinLines`, `scanLines_joinLines_long`).

A line that starts and ends with a character other than a blank is its own trim, and one
that does not end with a carriage return keeps all its characters.
-/

/-- The text of a log holding `lines`, each closed by a line feed. -/
def joinLines (lines : List String) : String := String.join (lines.map (· ++ "\n"))

@[simp] theorem joinLines_nil : joinLines [] = "" := rfl

theorem joinLines_append (lines : List String) (line : String) :
    joinLines (lines ++ [line]) = joinLines lines ++ (line ++ "\n") := by
  simp [joinLines, String.join_append]

theorem toList_joinLines_cons (line : String) (lines : List String) :
    (joinLines (line :: lines)).toList = line.toList ++ '\n' :: (joinLines lines).toList := by
  simp [joinLines]

/-- The characters of a log split at line feeds into the lines and an empty piece after
the last line feed. -/
theorem splitOn_joinLines {lines : List String} (single : ∀ l ∈ lines, '\n' ∉ l.toList) :
    (joinLines lines).toList.splitOn '\n' = lines.map String.toList ++ [[]] := by
  induction lines with
  | nil => rfl
  | cons line lines ih =>
    rw [toList_joinLines_cons, List.splitOn_append_cons_self_of_not_mem (single line List.mem_cons_self),
      ih (fun l mem => single l (List.mem_cons_of_mem line mem))]
    rfl

/-- A log splits back into its lines. -/
theorem linePieces_joinLines {lines : List String} (single : ∀ l ∈ lines, '\n' ∉ l.toList) :
    linePieces (joinLines lines) = lines := by
  unfold linePieces
  rw [splitOn_joinLines single]
  simp [Function.comp_def]

theorem linePieces_of_not_mem {s : String} (single : '\n' ∉ s.toList) (nonempty : s ≠ "") :
    linePieces s = [s] := by
  unfold linePieces
  rw [List.splitOn_eq_singleton single]
  simp only [List.map_cons, List.map_nil, String.ofList_toList, List.getLast?_singleton]
  split
  · rename_i empty
    exact absurd (Option.some_inj.mp empty) nonempty
  · rfl

/-- A text whose pieces are all shorter than the limit scans as its pieces, each without a
final carriage return. -/
theorem scanLines_of_short {limit : Nat} {text : String}
    (short : ∀ p ∈ linePieces text, p.utf8ByteSize < limit) :
    scanLines limit text = .ok ((linePieces text).map dropReturn) := by
  have fits : (linePieces text).any (fun p => p.utf8ByteSize ≥ limit) = false := by
    simpa using fun p mem => short p mem
  simp only [scanLines, fits, Bool.false_eq_true, if_false]

theorem scanLines_of_long {limit : Nat} {text : String} {line : String} (mem : line ∈ linePieces text)
    (long : limit ≤ line.utf8ByteSize) : scanLines limit text = .error tooLong := by
  have found : (linePieces text).any (fun p => p.utf8ByteSize ≥ limit) = true :=
    List.any_eq_true.mpr ⟨line, mem, by simpa using long⟩
  simp only [scanLines, found, if_true]

/-- A log whose lines are all shorter than the limit scans as its lines, each without a
final carriage return. -/
theorem scanLines_joinLines {limit : Nat} {lines : List String} (single : ∀ l ∈ lines, '\n' ∉ l.toList)
    (short : ∀ l ∈ lines, l.utf8ByteSize < limit) :
    scanLines limit (joinLines lines) = .ok (lines.map dropReturn) := by
  rw [scanLines_of_short (by rwa [linePieces_joinLines single]), linePieces_joinLines single]

/-- A log with a line of the limit's length or more does not scan. -/
theorem scanLines_joinLines_long {limit : Nat} {lines : List String} (single : ∀ l ∈ lines, '\n' ∉ l.toList)
    {line : String} (mem : line ∈ lines) (long : limit ≤ line.utf8ByteSize) :
    scanLines limit (joinLines lines) = .error tooLong :=
  scanLines_of_long (by rwa [linePieces_joinLines single]) long

theorem utf8Len_replicate (n : Nat) (c : Char) : String.utf8Len (List.replicate n c) = n * c.utf8Size := by
  induction n with
  | zero => simp
  | succ n ih => rw [List.replicate_succ, String.utf8Len_cons, ih, Nat.succ_mul, Nat.add_comm]

theorem length_le_utf8Len (cs : List Char) : cs.length ≤ String.utf8Len cs := by
  induction cs with
  | nil => exact le_rfl
  | cons c cs ih =>
    have := c.utf8Size_pos
    simp only [List.length_cons, String.utf8Len_cons]
    omega

theorem length_le_utf8ByteSize (s : String) : s.length ≤ s.utf8ByteSize := by
  have bytes := length_le_utf8Len s.toList
  rwa [← String.utf8ByteSize_ofList, String.ofList_toList, String.length_toList] at bytes

theorem utf8Len_le_of_sublist {cs ds : List Char} (sub : cs.Sublist ds) : String.utf8Len cs ≤ String.utf8Len ds := by
  induction sub with
  | slnil => exact le_rfl
  | cons c _ ih =>
    rw [String.utf8Len_cons]
    omega
  | cons_cons c _ ih =>
    rw [String.utf8Len_cons, String.utf8Len_cons]
    omega

theorem utf8ByteSize_le_of_sublist {s t : String} (sub : s.toList.Sublist t.toList) :
    s.utf8ByteSize ≤ t.utf8ByteSize := by
  have bytes := utf8Len_le_of_sublist sub
  rwa [← String.utf8ByteSize_ofList, ← String.utf8ByteSize_ofList, String.ofList_toList, String.ofList_toList] at bytes

theorem trimBlank_eq_self {s : String} (first : ∀ c ∈ s.toList.head?, isBlank c = false)
    (last : ∀ c ∈ s.toList.getLast?, isBlank c = false) : trimBlank s = s := by
  have left : s.toList.dropWhile isBlank = s.toList := by
    rw [List.dropWhile_eq_self_iff]
    intro nonempty
    have mem : s.toList[0] ∈ s.toList.head? := by
      rw [List.head?_eq_getElem?, List.getElem?_eq_getElem nonempty]
      rfl
    rw [first _ mem]
    exact Bool.false_ne_true
  have right : s.toList.reverse.dropWhile isBlank = s.toList.reverse := by
    rw [List.dropWhile_eq_self_iff]
    intro nonempty
    have mem : s.toList.reverse[0] ∈ s.toList.getLast? := by
      rw [← List.head?_reverse, List.head?_eq_getElem?, List.getElem?_eq_getElem nonempty]
      rfl
    rw [last _ mem]
    exact Bool.false_ne_true
  unfold trimBlank
  rw [left, right, List.reverse_reverse, String.ofList_toList]

theorem dropReturn_eq_self {s : String} (last : s.toList.getLast? ≠ some '\r') : dropReturn s = s := by
  unfold dropReturn
  split
  · rename_i ends
    simp only [← String.endsWith_toSlice, String.Slice.endsWith_string_iff, String.copy_toSlice,
      String.reduceToList, List.singleton_suffix_iff_getLast?_eq_some] at ends
    exact absurd ends last
  · rfl

end Text
end AgentMemory
