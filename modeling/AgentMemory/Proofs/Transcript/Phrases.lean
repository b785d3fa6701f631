import Mathlib.Data.List.DropRight
import Mathlib.Data.List.Infix
import AgentMemory.Transcript.Extract

namespace AgentMemory
namespace Transcript

/-!
# Extracted phrases are cleaned pieces of the text

The decisions, errors, successes and preferences of an extraction are built alike:
the first group of every match of each cue, the cues in their order and the matches
left to right, each cleaned, those that cleaning refuses dropped, the first ten kept.

Cleaning trims the edge characters from both ends and then only checks, so a cleaned
phrase is a fixed point of cleaning: `Clean` says what such a phrase looks like, and
`cleanPhrase_eq_self_iff` that these are exactly the fixed points.  A group of a
match is a slice of the text (`groupText_piece`), whatever the slots the machine
reports, so every phrase is a piece of the text.

The main statement, `Extractor.run_phrases`, puts this together for an extraction,
with the success flag read off the capped lists.
-/

open List

/-- The characters of a phrase less the edge characters at both of its ends. -/
def trimEdges (cs : List Char) : List Char :=
  (cs.dropWhile isPhraseEdge).rdropWhile isPhraseEdge

theorem trimEdges_piece (cs : List Char) : trimEdges cs <:+: cs :=
  ( rdropWhile_prefix isPhraseEdge _).isInfix.trans (dropWhile_suffix isPhraseEdge).isInfix

theorem head?_trimEdges (cs : List Char) : ∀ x ∈ (trimEdges cs).head?, isPhraseEdge x = false := by
  intro x hx
  have first : x ∈ (cs.dropWhile isPhraseEdge).head? := by
    unfold trimEdges at hx
    rw [prefix_iff_eq_take.1 ( rdropWhile_prefix isPhraseEdge _), head?_take] at hx
    split at hx
    · cases hx
    · exact hx
  have nonempty : cs.dropWhile isPhraseEdge ≠ [] := by
    intro empty
    simp [empty] at first
  rw [head?_eq_some_head nonempty, Option.mem_def, Option.some_inj] at first
  exact first ▸ head_dropWhile_not isPhraseEdge nonempty

theorem getLast?_trimEdges (cs : List Char) :
    ∀ x ∈ (trimEdges cs).getLast?, isPhraseEdge x = false := by
  intro x hx
  have nonempty : trimEdges cs ≠ [] := by
    intro empty
    simp [empty] at hx
  rw [getLast?_eq_some_getLast nonempty, Option.mem_def, Option.some_inj] at hx
  rw [← hx]
  exact Bool.eq_false_iff.2 (rdropWhile_last_not isPhraseEdge _ nonempty)

theorem trimEdges_eq_self {cs : List Char} (head : ∀ x ∈ cs.head?, isPhraseEdge x = false)
    (last : ∀ x ∈ cs.getLast?, isPhraseEdge x = false) : trimEdges cs = cs := by
  have left : cs.dropWhile isPhraseEdge = cs := by
    rw [dropWhile_eq_self_iff]
    intro nonempty
    simpa using head cs[0] (by simp [head?_eq_getElem?])
  rw [trimEdges, left, rdropWhile_eq_self_iff]
  intro nonempty
  simpa using last (cs.getLast nonempty) (by simp [getLast?_eq_some_getLast nonempty])

theorem trimEdges_trimEdges (cs : List Char) : trimEdges (trimEdges cs) = trimEdges cs :=
  trimEdges_eq_self (head?_trimEdges cs) (getLast?_trimEdges cs)

theorem cleanPhrase_eq (s : String) :
    cleanPhrase s =
      let t := String.ofList (trimEdges s.toList)
      if t.length < minPhraseLength then none
      else if looksLikeDocument t then none
      else if looksLikePath t then none
      else some t := rfl

/-- A phrase as cleaning leaves it: long enough, no edge character at either end, and
neither data nor a path. -/
structure Clean (c : String) : Prop where
  long : minPhraseLength ≤ c.length
  head : ∀ x ∈ c.toList.head?, isPhraseEdge x = false
  last : ∀ x ∈ c.toList.getLast?, isPhraseEdge x = false
  notDocument : looksLikeDocument c = false
  notPath : looksLikePath c = false

theorem eq_of_cleanPhrase {s t : String} (h : cleanPhrase s = some t) :
    t = String.ofList (trimEdges s.toList) ∧ minPhraseLength ≤ t.length ∧
      looksLikeDocument t = false ∧ looksLikePath t = false := by
  rw [cleanPhrase_eq] at h
  dsimp only at h
  split at h
  · cases h
  next long =>
    split at h
    · cases h
    next notDocument =>
      split at h
      · cases h
      next notPath =>
        cases h
        exact ⟨rfl, by omega, Bool.eq_false_iff.2 notDocument, Bool.eq_false_iff.2 notPath⟩

theorem cleanPhrase_eq_self_iff (c : String) : cleanPhrase c = some c ↔ Clean c := by
  constructor
  · intro h
    obtain ⟨trimmed, long, notDocument, notPath⟩ := eq_of_cleanPhrase h
    have chars : c.toList = trimEdges c.toList := by
      conv_lhs => rw [trimmed]
      simp
    exact ⟨long, chars ▸ head?_trimEdges _, chars ▸ getLast?_trimEdges _, notDocument, notPath⟩
  · intro clean
    have same : String.ofList (trimEdges c.toList) = c := by
      rw [trimEdges_eq_self clean.head clean.last, String.ofList_toList]
    have short : ¬c.length < minPhraseLength := by have := clean.long; omega
    simp [cleanPhrase_eq, same, short, clean.notDocument, clean.notPath]

/-- Cleaning a cleaned phrase changes nothing, and the phrase is a piece of what was
cleaned. -/
theorem clean_of_cleanPhrase {s t : String} (h : cleanPhrase s = some t) :
    Clean t ∧ t.toList <:+: s.toList := by
  obtain ⟨trimmed, long, notDocument, notPath⟩ := eq_of_cleanPhrase h
  have chars : t.toList = trimEdges s.toList := by rw [trimmed, String.toList_ofList]
  refine ⟨⟨long, ?_, ?_, notDocument, notPath⟩, chars ▸ trimEdges_piece _⟩
  · exact chars ▸ head?_trimEdges _
  · exact chars ▸ getLast?_trimEdges _

/-! ## Groups of matches -/

/-- A group of a match is a slice of the text, whatever slots the machine reports. -/
theorem groupText_piece (text : Array Char) (slots : Array Int) (g : Nat) :
    (Regex.groupText text slots g).toList <:+: text.toList := by
  dsimp only [Regex.groupText]
  split
  · exact nil_infix
  · rw [String.toList_ofList, Array.toList_extract, extract_eq_take_drop]
    exact ( take_prefix _ _).isInfix.trans (drop_suffix _ _).isInfix

theorem mem_findAllGroups_piece {re : Regex.Compiled} {s : String} {groups : List String}
    (found : groups ∈ re.findAllGroups s) {g : String} (mem : g ∈ groups) :
    g.toList <:+: s.toList := by
  simp only [Regex.Compiled.findAllGroups, mem_map] at found
  obtain ⟨slots, -, rfl⟩ := found
  obtain ⟨i, -, rfl⟩ := mem_map.1 mem
  simpa using groupText_piece s.toList.toArray slots i

/-- The first group of every match of each cue, cues in order and matches left to
right. -/
def firstGroups (text : String) (cues : List Regex.Compiled) : List String :=
  cues.flatMap fun re => (re.findAllGroups text).map fun groups => groups.getD 1 ""

theorem mem_firstGroups_piece {text : String} {cues : List Regex.Compiled} {g : String}
    (mem : g ∈ firstGroups text cues) : g.toList <:+: text.toList := by
  simp only [firstGroups, mem_flatMap, mem_map] at mem
  obtain ⟨re, -, groups, found, rfl⟩ := mem
  rw [getD_eq_getElem?_getD]
  cases lookup : groups[1]? with
  | none => exact nil_infix
  | some g => exact mem_findAllGroups_piece found (mem_of_getElem? lookup)

/-- Capturing cleans the first groups in order, keeps what cleaning accepts, repeats
included, and stops at the limit. -/
theorem captureAll_eq (text : String) (cues : List Regex.Compiled) (limit : Nat) :
    captureAll text cues limit = ((firstGroups text cues).filterMap cleanPhrase).take limit := by
  simp [captureAll, firstGroups, filterMap_flatMap, filterMap_map]

theorem mem_captureAll {text : String} {cues : List Regex.Compiled} {limit : Nat} {c : String}
    (mem : c ∈ captureAll text cues limit) : c.toList <:+: text.toList ∧ Clean c := by
  rw [captureAll_eq] at mem
  obtain ⟨g, found, cleaned⟩ := mem_filterMap.1 (mem_of_mem_take mem)
  obtain ⟨clean, piece⟩ := clean_of_cleanPhrase cleaned
  exact ⟨piece.trans (mem_firstGroups_piece found), clean⟩

/-- The phrase lists of an extraction: each is the first ten accepted first groups of
its cues, in cue order and then text order with repeats kept; every phrase is a piece
of the text that cleaning leaves as it is; and the extraction counts as a success
exactly when there are at least as many success phrases as error phrases. -/
theorem Extractor.run_phrases (x : Extractor) (text : String) :
    let e := x.run text
    (e.decisions = ((firstGroups text decisionCues).filterMap cleanPhrase).take 10 ∧
      e.errors = ((firstGroups text errorCues).filterMap cleanPhrase).take 10 ∧
      e.successes = ((firstGroups text successCues).filterMap cleanPhrase).take 10 ∧
      e.preferences = ((firstGroups text preferenceCues).filterMap cleanPhrase).take 10) ∧
    (∀ c ∈ e.decisions ++ e.errors ++ e.successes ++ e.preferences,
      c.toList <:+: text.toList ∧ cleanPhrase c = some c ∧ Clean c) ∧
    (e.success = true ↔ e.errors.length ≤ e.successes.length) := by
  refine ⟨⟨captureAll_eq _ _ _, captureAll_eq _ _ _, captureAll_eq _ _ _, captureAll_eq _ _ _⟩,
    ?_, by simp [Extractor.run]⟩
  intro c mem
  -- every list is a capture of the text, so one membership lemma serves all four
  have captured : ∃ cues, c ∈ captureAll text cues 10 := by
    simp only [Extractor.run, mem_append] at mem
    rcases mem with ((h | h) | h) | h <;> exact ⟨_, h⟩
  obtain ⟨cues, h⟩ := captured
  obtain ⟨piece, clean⟩ := mem_captureAll h
  exact ⟨piece, (cleanPhrase_eq_self_iff c).2 clean, clean⟩

end Transcript
end AgentMemory
