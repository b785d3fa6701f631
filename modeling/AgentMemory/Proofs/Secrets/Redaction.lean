import Mathlib
import AgentMemory.Secrets.Scrub
import AgentMemory.Proofs.Regex.Matches

namespace AgentMemory
namespace Secrets

/-!
# Redacting the connected components of the findings

Each finding marks a stretch of the text, and the stretches are taken as closed
intervals of the line: two stretches that overlap or touch belong to one connected
component of their union, and each component is replaced by the redaction text once.
Points of the line are counted on the half-step grid (`Stretch.Covers`), where touching
stretches share a point and separate ones leave an uncovered point between them; a
character `i` lies inside a stretch exactly when the point `2 * i + 1` is covered.

`mergeStretches` is shown to give the components (`components_mergeStretches`): the
merge step joins the next stretch by start to the last component when they meet
(`Joined.join`), and folding the sorted stretches keeps that invariant.  Merging
commutes with every map that is strictly increasing on the positions in play
(`mergeStretches_map`), so the components in characters, mapped to UTF-8 offsets, are
the components of the findings' byte offsets.  Redaction keeps the pieces between the
components (`redact_eq_gaps`), and these are the characters outside every finding, in
order (`gaps_flatten`).
-/

namespace Stretch

/-- The stretch covers the point `p / 2` of the line: it is the closed interval from its
first to its last position. -/
def Covers (s : Stretch) (p : Nat) : Prop := 2 * s.first ≤ p ∧ p ≤ 2 * s.last

/-- The character at `i` lies inside the stretch. -/
def holds (s : Stretch) (i : Nat) : Bool := decide (s.first ≤ i) && decide (i < s.last)

theorem covers_middle (s : Stretch) (i : Nat) : s.Covers (2 * i + 1) ↔ s.holds i = true := by
  simp only [Covers, holds, Bool.and_eq_true, decide_eq_true_eq]
  omega

/-- Two stretches that meet, the second starting no earlier than the first, cover what
their join covers. -/
theorem covers_join {last cur : Stretch} (after : last.first ≤ cur.first) (meet : cur.first ≤ last.last)
    (p : Nat) : Stretch.Covers ⟨last.first, max last.last cur.last⟩ p ↔ last.Covers p ∨ cur.Covers p := by
  simp only [Covers]
  omega

/-- The stretch at the images of its ends. -/
def map (f : Nat → Nat) (s : Stretch) : Stretch := ⟨f s.first, f s.last⟩

end Stretch

/-- `comps` are the connected components of the union of the closed stretches `spans`:
proper stretches, in order with a gap between each and the next, covering together what
the spans cover. -/
structure Components (spans comps : List Stretch) : Prop where
  proper : ∀ c ∈ comps, c.first ≤ c.last
  apart : comps.Pairwise (fun a b => a.last < b.first)
  union : ∀ p, (∃ s ∈ spans, s.Covers p) ↔ ∃ c ∈ comps, c.Covers p

theorem covers_cons (z : Stretch) (zs : List Stretch) (p : Nat) :
    (∃ c ∈ z :: zs, c.Covers p) ↔ z.Covers p ∨ ∃ c ∈ zs, c.Covers p := by
  simp only [List.mem_cons, exists_eq_or_imp]

theorem beyond_of_covers {x : Stretch} {zs : List Stretch} (after : ∀ c ∈ zs, x.last < c.first) {p : Nat}
    (covered : ∃ c ∈ zs, c.Covers p) : 2 * x.last + 1 < p := by
  obtain ⟨c, mem, covers⟩ := covered
  have := after c mem
  simp only [Stretch.Covers] at covers
  omega

theorem eq_of_covers {a b : List Stretch} (proper_a : ∀ c ∈ a, c.first ≤ c.last)
    (proper_b : ∀ c ∈ b, c.first ≤ c.last) (apart_a : a.Pairwise (fun x y => x.last < y.first))
    (apart_b : b.Pairwise (fun x y => x.last < y.first))
    (same : ∀ p, (∃ c ∈ a, c.Covers p) ↔ ∃ c ∈ b, c.Covers p) : a = b := by
  -- induction on `a`: the first stretches of both lists agree, then so do the rests
  induction a generalizing b with
  | nil =>
    cases b with
    | nil => rfl
    | cons y bs =>
      obtain ⟨c, mem, -⟩ := (same (2 * y.first)).mpr
        ⟨y, List.mem_cons_self .., le_rfl, by simpa using proper_b y (List.mem_cons_self ..)⟩
      cases mem
  | cons x as ih =>
    have x_proper := proper_a x (List.mem_cons_self ..)
    obtain ⟨after_x, as_apart⟩ := List.pairwise_cons.mp apart_a
    cases b with
    | nil =>
      obtain ⟨c, mem, -⟩ := (same (2 * x.first)).mp ⟨x, List.mem_cons_self .., le_rfl, by omega⟩
      cases mem
    | cons y bs =>
      have y_proper := proper_b y (List.mem_cons_self ..)
      obtain ⟨after_y, bs_apart⟩ := List.pairwise_cons.mp apart_b
      simp only [covers_cons] at same
      have first_eq : x.first = y.first := by
        have from_x := (same (2 * x.first)).mp (Or.inl ⟨le_rfl, by omega⟩)
        have from_y := (same (2 * y.first)).mpr (Or.inl ⟨le_rfl, by omega⟩)
        simp only [Stretch.Covers] at from_x from_y
        rcases from_x with covered | later <;> rcases from_y with covered' | later'
        · omega
        · have := beyond_of_covers after_x later'
          omega
        · have := beyond_of_covers after_y later
          omega
        · have := beyond_of_covers after_x later'
          have := beyond_of_covers after_y later
          omega
      -- past the shorter head, the longer one would cover a point the other list leaves
      have last_eq : x.last = y.last := by
        by_contra differ
        rcases Nat.lt_or_gt_of_ne differ with lt | gt
        · rcases (same (2 * x.last + 1)).mpr (Or.inl ⟨by omega, by omega⟩) with covered | later
          · simp only [Stretch.Covers] at covered
            omega
          · have := beyond_of_covers after_x later
            omega
        · rcases (same (2 * y.last + 1)).mp (Or.inl ⟨by omega, by omega⟩) with covered | later
          · simp only [Stretch.Covers] at covered
            omega
          · have := beyond_of_covers after_y later
            omega
      have heads : x = y := by
        cases x
        cases y
        simp_all
      subst heads
      have rest_same : ∀ p, (∃ c ∈ as, c.Covers p) ↔ ∃ c ∈ bs, c.Covers p := by
        intro p
        constructor
        · intro covered
          have far := beyond_of_covers after_x covered
          rcases (same p).mp (Or.inr covered) with head | rest
          · simp only [Stretch.Covers] at head
            omega
          · exact rest
        · intro covered
          have far := beyond_of_covers after_y covered
          rcases (same p).mpr (Or.inr covered) with head | rest
          · simp only [Stretch.Covers] at head
            omega
          · exact rest
      rw [ih (fun c mem => proper_a c (List.mem_cons_of_mem _ mem))
        (fun c mem => proper_b c (List.mem_cons_of_mem _ mem)) as_apart bs_apart rest_same]

/-- The connected components of a union of stretches are unique. -/
theorem Components.unique {spans a b : List Stretch} (ha : Components spans a) (hb : Components spans b) :
    a = b :=
  eq_of_covers ha.proper hb.proper ha.apart hb.apart fun p => (ha.union p).symm.trans (hb.union p)

/-! ## The merge step -/

/-- The components of `done` so far, held last first as the merge holds them. -/
structure Joined (done acc : List Stretch) : Prop where
  proper : ∀ c ∈ acc, c.first ≤ c.last
  apart : acc.Pairwise (fun b a => a.last < b.first)
  union : ∀ p, (∃ s ∈ done, s.Covers p) ↔ ∃ c ∈ acc, c.Covers p

theorem joined_nil : Joined [] [] where
  proper := by simp
  apart := List.Pairwise.nil
  union := by simp

theorem joinStretch_nil (cur : Stretch) : joinStretch [] cur = [cur] := rfl

theorem joinStretch_cons (last : Stretch) (rest : List Stretch) (cur : Stretch) :
    joinStretch (last :: rest) cur = if cur.first ≤ last.last then ⟨last.first, max last.last cur.last⟩ :: rest
      else cur :: last :: rest := rfl

/-- Joining a proper stretch that starts no earlier than the last component keeps the
components: it extends the last one when they meet, and starts a new one otherwise. -/
theorem Joined.join {done acc : List Stretch} {cur : Stretch} (joined : Joined done acc)
    (after : ∀ c ∈ acc.head?, c.first ≤ cur.first) (proper : cur.first ≤ cur.last) :
    Joined (done ++ [cur]) (joinStretch acc cur) := by
  have covered : ∀ p, (∃ s ∈ done ++ [cur], s.Covers p) ↔ (∃ c ∈ acc, c.Covers p) ∨ cur.Covers p := by
    intro p
    simp only [List.mem_append, List.mem_singleton, ← joined.union p]
    constructor
    · rintro ⟨s, found | rfl, covers⟩
      exacts [Or.inl ⟨s, found, covers⟩, Or.inr covers]
    · rintro (⟨s, found, covers⟩ | covers)
      exacts [⟨s, Or.inl found, covers⟩, ⟨cur, Or.inr rfl, covers⟩]
  cases acc with
  | nil =>
    refine ⟨by simpa [joinStretch_nil] using proper, List.pairwise_singleton _ _, fun p => ?_⟩
    rw [covered p]
    simp [joinStretch_nil]
  | cons last rest =>
    have last_after : last.first ≤ cur.first := after last rfl
    have last_proper : last.first ≤ last.last := joined.proper last (List.mem_cons_self ..)
    obtain ⟨before, rest_apart⟩ := List.pairwise_cons.mp joined.apart
    rw [joinStretch_cons]
    split
    · -- the stretch meets the last component and extends it
      rename_i meet
      refine ⟨?_, ?_, fun p => ?_⟩
      · simp only [List.mem_cons, forall_eq_or_imp]
        exact ⟨by omega, fun c mem => joined.proper c (List.mem_cons_of_mem _ mem)⟩
      · exact List.pairwise_cons.mpr ⟨fun a mem => before a mem, rest_apart⟩
      · rw [covered]
        simp only [List.mem_cons, exists_eq_or_imp, Stretch.covers_join last_after meet]
        exact or_right_comm
    · -- the stretch starts after the last component ends: a new component
      rename_i gap
      refine ⟨?_, ?_, fun p => ?_⟩
      · intro c mem
        rcases List.mem_cons.mp mem with rfl | earlier
        exacts [proper, joined.proper c earlier]
      · refine List.pairwise_cons.mpr ⟨fun a mem => ?_, joined.apart⟩
        rcases List.mem_cons.mp mem with rfl | earlier
        · omega
        · have := before a earlier
          omega
      · rw [covered]
        simp only [List.mem_cons, exists_eq_or_imp]
        exact or_comm

theorem joinStretch_head {acc : List Stretch} {cur : Stretch} (after : ∀ c ∈ acc.head?, c.first ≤ cur.first) :
    ∀ c ∈ (joinStretch acc cur).head?, c.first ≤ cur.first := by
  cases acc with
  | nil => simp [joinStretch_nil]
  | cons last rest =>
    rw [joinStretch_cons]
    split <;> simp [after last rfl]

/-- Folding stretches sorted by start into the components of what came before gives the
components of all of them. -/
theorem Joined.foldl {done acc : List Stretch} (joined : Joined done acc) {l : List Stretch}
    (sorted : l.Pairwise (fun a b => a.first ≤ b.first)) (proper : ∀ s ∈ l, s.first ≤ s.last)
    (after : ∀ c ∈ acc.head?, ∀ s ∈ l, c.first ≤ s.first) :
    Joined (done ++ l) (l.foldl joinStretch acc) := by
  induction l generalizing done acc with
  | nil => simpa using joined
  | cons cur rest ih =>
    obtain ⟨before, rest_sorted⟩ := List.pairwise_cons.mp sorted
    have step := joined.join (fun c mem => after c mem cur (List.mem_cons_self ..))
      (proper cur (List.mem_cons_self ..))
    have later : ∀ c ∈ (joinStretch acc cur).head?, ∀ s ∈ rest, c.first ≤ s.first := fun c mem s found =>
      le_trans (joinStretch_head (fun c mem => after c mem cur (List.mem_cons_self ..)) c mem) (before s found)
    simpa using ih step rest_sorted (fun s mem => proper s (List.mem_cons_of_mem _ mem)) later

/-- Merging proper stretches sorted by start gives the connected components of their
union. -/
theorem components_mergeSorted {sorted : List Stretch} (proper : ∀ s ∈ sorted, s.first ≤ s.last)
    (byStart : sorted.Pairwise (fun a b => a.first ≤ b.first)) : Components sorted (mergeSorted sorted) := by
  have joined : Joined sorted (sorted.foldl joinStretch []) := by
    simpa using joined_nil.foldl byStart proper (by simp)
  refine ⟨fun c mem => joined.proper c (List.mem_reverse.mp mem), List.pairwise_reverse.mpr joined.apart,
    fun p => ?_⟩
  simp only [mergeSorted, List.mem_reverse, ← joined.union p]

theorem Components.perm {spans spans' comps : List Stretch} (components : Components spans comps)
    (perm : spans.Perm spans') : Components spans' comps where
  proper := components.proper
  apart := components.apart
  union p := by
    simp only [← perm.mem_iff]
    exact components.union p

/-- Merging proper stretches gives the connected components of their union. -/
theorem components_mergeStretches {spans : List Stretch} (proper : ∀ s ∈ spans, s.first ≤ s.last) :
    Components spans (mergeStretches spans) := by
  have perm := List.mergeSort_perm spans (fun a b => decide (a.first ≤ b.first))
  have sorted : (spans.mergeSort (fun a b => decide (a.first ≤ b.first))).Pairwise
      (fun a b => decide (a.first ≤ b.first) = true) :=
    List.pairwise_mergeSort (fun (a b c : Stretch) (hab : decide (a.first ≤ b.first) = true) hbc => by
      simp only [decide_eq_true_eq] at *; omega)
      (fun (a b : Stretch) => by simp only [Bool.or_eq_true, decide_eq_true_eq]; omega) spans
  exact (components_mergeSorted (fun s mem => proper s (perm.mem_iff.mp mem)) (by simpa using sorted)).perm perm

/-! ## Merging in other units -/

section Map

variable {f : Nat → Nat} {bound : Nat}

theorem joinStretch_within {acc : List Stretch} {cur : Stretch}
    (within_acc : ∀ c ∈ acc, c.first ≤ bound ∧ c.last ≤ bound) (within : cur.first ≤ bound ∧ cur.last ≤ bound) :
    ∀ c ∈ joinStretch acc cur, c.first ≤ bound ∧ c.last ≤ bound := by
  cases acc with
  | nil => simpa [joinStretch_nil] using within
  | cons last rest =>
    have last_within := within_acc last (List.mem_cons_self ..)
    rw [joinStretch_cons]
    split
    · simp only [List.mem_cons, forall_eq_or_imp]
      exact ⟨⟨last_within.1, max_le last_within.2 within.2⟩,
        fun c mem => within_acc c (List.mem_cons_of_mem _ mem)⟩
    · simp only [List.mem_cons, forall_eq_or_imp]
      exact ⟨within, last_within, fun c mem => within_acc c (List.mem_cons_of_mem _ mem)⟩

variable (mono : StrictMonoOn f (Set.Iic bound))
include mono

/-- The merge step commutes with a map that is strictly increasing where the ends lie:
the map keeps which stretches meet, and the larger of two ends. -/
theorem joinStretch_map {acc : List Stretch} {cur : Stretch}
    (within_acc : ∀ c ∈ acc, c.first ≤ bound ∧ c.last ≤ bound) (within : cur.first ≤ bound ∧ cur.last ≤ bound) :
    joinStretch (acc.map (Stretch.map f)) (cur.map f) = (joinStretch acc cur).map (Stretch.map f) := by
  cases acc with
  | nil => rfl
  | cons last rest =>
    have last_within := within_acc last (List.mem_cons_self ..)
    have meet : f cur.first ≤ f last.last ↔ cur.first ≤ last.last :=
      mono.le_iff_le (Set.mem_Iic.mpr within.1) (Set.mem_Iic.mpr last_within.2)
    have larger : f (max last.last cur.last) = max (f last.last) (f cur.last) :=
      mono.monotoneOn.map_max (Set.mem_Iic.mpr last_within.2) (Set.mem_Iic.mpr within.2)
    simp only [List.map_cons, joinStretch_cons, Stretch.map, meet]
    split
    · simp [Stretch.map, larger]
    · rfl

theorem foldl_joinStretch_map (acc : List Stretch) {l : List Stretch}
    (within_acc : ∀ c ∈ acc, c.first ≤ bound ∧ c.last ≤ bound) (within : ∀ s ∈ l, s.first ≤ bound ∧ s.last ≤ bound) :
    (l.map (Stretch.map f)).foldl joinStretch (acc.map (Stretch.map f)) =
      (l.foldl joinStretch acc).map (Stretch.map f) := by
  induction l generalizing acc with
  | nil => rfl
  | cons cur rest ih =>
    have cur_within := within cur (List.mem_cons_self ..)
    rw [List.map_cons, List.foldl_cons, List.foldl_cons, joinStretch_map mono within_acc cur_within]
    exact ih _ (joinStretch_within within_acc cur_within) (fun s mem => within s (List.mem_cons_of_mem _ mem))

/-- Merging commutes with a map that is strictly increasing up to a bound of the
stretches. -/
theorem mergeStretches_map {spans : List Stretch} (within : ∀ s ∈ spans, s.first ≤ bound ∧ s.last ≤ bound) :
    mergeStretches (spans.map (Stretch.map f)) = (mergeStretches spans).map (Stretch.map f) := by
  have sorted : (spans.mergeSort (fun a b => decide (a.first ≤ b.first))).map (Stretch.map f) =
      (spans.map (Stretch.map f)).mergeSort (fun a b => decide (a.first ≤ b.first)) :=
    List.map_mergeSort fun a found b _ => by
      simp [Stretch.map, mono.le_iff_le (Set.mem_Iic.mpr (within a found).1) (Set.mem_Iic.mpr (within b ‹_›).1)]
  have perm := List.mergeSort_perm spans (fun a b => decide (a.first ≤ b.first))
  have folded : ((spans.mergeSort (fun a b => decide (a.first ≤ b.first))).map (Stretch.map f)).foldl
      joinStretch [] = ((spans.mergeSort (fun a b => decide (a.first ≤ b.first))).foldl joinStretch []).map
      (Stretch.map f) :=
    foldl_joinStretch_map mono [] (by simp) (fun s mem => within s (perm.mem_iff.mp mem))
  unfold mergeStretches mergeSorted
  rw [← sorted, folded, List.map_reverse]

end Map

/-! ## Byte offsets -/

theorem foldl_offsets (l : List Char) (acc : Array Nat) (n : Nat) :
    (l.foldl (fun (acc : Array Nat × Nat) c => (acc.1.push acc.2, acc.2 + c.utf8Size)) (acc, n)).1.toList ++
        [(l.foldl (fun (acc : Array Nat × Nat) c => (acc.1.push acc.2, acc.2 + c.utf8Size)) (acc, n)).2] =
      acc.toList ++ l.scanl (fun n c => n + c.utf8Size) n := by
  induction l generalizing acc n with
  | nil => simp
  | cons c l ih => simp [ih]

/-- The byte offset of each character position, and of the end: the running sums of the
characters' UTF-8 sizes. -/
theorem toList_byteOffsets (text : Array Char) :
    (Regex.byteOffsets text).toList = text.toList.scanl (fun n c => n + c.utf8Size) 0 := by
  unfold Regex.byteOffsets
  rw [← Array.foldl_toList]
  have sums := foldl_offsets text.toList #[] 0
  rcases text.toList.foldl (fun (acc : Array Nat × Nat) c => (acc.1.push acc.2, acc.2 + c.utf8Size)) (#[], 0)
    with ⟨offs, total⟩
  simpa using sums

theorem le_of_mem_scanl {l : List Char} {n x : Nat} (mem : x ∈ l.scanl (fun n c => n + c.utf8Size) n) : n ≤ x := by
  induction l generalizing n with
  | nil => simp_all
  | cons c l ih =>
    rw [List.scanl_cons, List.mem_cons] at mem
    rcases mem with rfl | later
    · exact le_refl _
    · exact le_trans (Nat.le_add_right _ _) (ih later)

theorem scanl_utf8Size_increasing (l : List Char) (n : Nat) :
    (l.scanl (fun n c => n + c.utf8Size) n).Pairwise (· < ·) := by
  induction l generalizing n with
  | nil => simp
  | cons c l ih =>
    rw [List.scanl_cons]
    refine List.pairwise_cons.mpr ⟨fun x mem => ?_, ih _⟩
    have := le_of_mem_scanl mem
    have := c.utf8Size_pos
    omega

theorem byteOffsets_strictMonoOn (text : Array Char) :
    StrictMonoOn (fun i => (Regex.byteOffsets text)[i]!) (Set.Iic text.size) := by
  intro i hi j hj lt
  simp only [Set.mem_Iic] at hi hj
  have sums := toList_byteOffsets text
  have size : (Regex.byteOffsets text).size = text.size + 1 := by
    rw [← Array.length_toList, sums, List.length_scanl, Array.length_toList]
  have increasing := List.pairwise_iff_getElem.mp (scanl_utf8Size_increasing text.toList 0) i j
    (by simp; omega) (by simp; omega) lt
  have hi' : i < (Regex.byteOffsets text).size := by omega
  have hj' : j < (Regex.byteOffsets text).size := by omega
  simpa [hi', hj', ← Array.getElem_toList, sums] using increasing

/-! ## Redaction -/

/-- The pieces of a text outside the stretches: from a position to the first stretch,
from each stretch to the next, and from the last one to the end. -/
def gaps (text : Array Char) : Nat → List Stretch → List String
  | pos, [] => [String.ofList (text.extract pos text.size).toList]
  | pos, s :: rest => String.ofList (text.extract pos s.first).toList :: gaps text s.last rest

theorem gaps_ne_nil (text : Array Char) (pos : Nat) (cs : List Stretch) : gaps text pos cs ≠ [] := by
  cases cs <;> simp [gaps]

theorem redact_go (text : Array Char) (redaction : String) (pos : Nat) (cs : List Stretch) (acc : List String) :
    redact.go text redaction pos cs acc = ((gaps text pos cs).intersperse redaction).reverse ++ acc := by
  induction cs generalizing pos acc with
  | nil => simp [redact.go, gaps]
  | cons c rest ih =>
    obtain ⟨g, more, split⟩ := List.exists_cons_of_ne_nil (gaps_ne_nil text c.last rest)
    rw [redact.go, ih, gaps, split, List.intersperse_cons_cons]
    simp

/-- Redaction joins the pieces outside the stretches with the redaction text. -/
theorem redact_eq_gaps (text : Array Char) (redaction : String) (cs : List Stretch) :
    redact text redaction cs = String.join ((gaps text 0 cs).intersperse redaction) := by
  simp [redact, redact_go]

theorem toList_extract (text : Array Char) {a b : Nat} (le : b ≤ text.size) :
    (text.extract a b).toList = (List.range' a (b - a)).map (fun i => text[i]!) := by
  apply List.ext_getElem
  · simp
    omega
  · intro n inside _
    have bound : a + n < text.size := by simp at inside; omega
    simp [bound]

theorem range'_split {a b n : Nat} (after : a ≤ b) (within : b ≤ a + n) :
    List.range' a n = List.range' a (b - a) ++ List.range' b (a + n - b) := by
  have joined := @List.range'_append a (b - a) (a + n - b) 1
  rw [show a + 1 * (b - a) = b by omega, show b - a + (a + n - b) = n by omega] at joined
  exact joined.symm

/-- The pieces outside proper stretches, in order with gaps between them, are the
characters at the positions outside every stretch, in order. -/
theorem gaps_flatten (text : Array Char) {cs : List Stretch} {pos : Nat}
    (proper : ∀ c ∈ cs, c.first ≤ c.last) (apart : cs.Pairwise (fun a b => a.last < b.first))
    (within : ∀ c ∈ cs, c.last ≤ text.size) (from_pos : ∀ c ∈ cs, pos ≤ c.first) :
    ((gaps text pos cs).map String.toList).flatten =
      ((List.range' pos (text.size - pos)).filter (fun i => !cs.any (·.holds i))).map (fun i => text[i]!) := by
  induction cs generalizing pos with
  | nil =>
    simp only [gaps, List.map_cons, List.map_nil, List.flatten_cons, List.flatten_nil, List.append_nil,
      String.toList_ofList, toList_extract text le_rfl]
    simp
  | cons c rest ih =>
    have c_proper := proper c (List.mem_cons_self ..)
    have c_within := within c (List.mem_cons_self ..)
    have c_from := from_pos c (List.mem_cons_self ..)
    obtain ⟨rest_after, rest_apart⟩ := List.pairwise_cons.mp apart
    rw [range'_split c_from (by omega), range'_split (a := c.first) c_proper (by omega),
      show c.first + (pos + (text.size - pos) - c.first) - c.last = text.size - c.last by omega]
    have before : ∀ i ∈ List.range' pos (c.first - pos), (!(c :: rest).any (·.holds i)) = true := by
      intro i mem
      simp only [List.mem_range'_1] at mem
      simp only [Bool.not_eq_true', List.any_eq_false, Stretch.holds, Bool.and_eq_true, decide_eq_true_eq]
      intro d found
      rcases List.mem_cons.mp found with rfl | later
      · omega
      · have := rest_after d later
        have := proper d (List.mem_cons_of_mem _ later)
        omega
    have inside : ∀ i ∈ List.range' c.first (c.last - c.first), (!(c :: rest).any (·.holds i)) = false := by
      intro i mem
      simp only [List.mem_range'_1] at mem
      simp only [Bool.not_eq_false', List.any_eq_true, Stretch.holds, Bool.and_eq_true, decide_eq_true_eq]
      exact ⟨c, List.mem_cons_self .., by omega, by omega⟩
    have after : ∀ i ∈ List.range' c.last (text.size - c.last),
        (!(c :: rest).any (·.holds i)) = !rest.any (·.holds i) := by
      intro i mem
      simp only [List.mem_range'_1] at mem
      simp only [List.any_cons, Stretch.holds]
      simp [show ¬i < c.last by omega]
    rw [List.filter_append, List.filter_append, List.filter_eq_self.mpr before,
      List.filter_eq_nil_iff.mpr (fun i mem => by rw [inside i mem]; exact Bool.false_ne_true),
      List.filter_congr after]
    simp only [gaps, List.map_cons, List.flatten_cons, String.toList_ofList,
      toList_extract text (by omega : c.first ≤ text.size), List.map_append, List.nil_append]
    rw [ih (fun d mem => proper d (List.mem_cons_of_mem _ mem)) rest_apart
      (fun d mem => within d (List.mem_cons_of_mem _ mem)) (fun d mem => le_of_lt (rest_after d mem))]

/-! ## Findings -/

/-- The byte offsets of a finding, as a stretch. -/
def Finding.bytes (f : Finding) : Stretch := ⟨f.startIndex, f.endIndex⟩

/-- The matches of a pattern over a text are stretches of it: each ends no earlier than
it starts, and within the text, as regular expression matching guarantees. -/
def MatchesWithin (re : Regex.Compiled) (text : Array Char) : Prop :=
  ∀ sp ∈ re.findAll text, sp.first ≤ sp.last ∧ sp.last ≤ text.size

instance (re : Regex.Compiled) (text : Array Char) : Decidable (MatchesWithin re text) :=
  inferInstanceAs (Decidable (∀ sp ∈ re.findAll text, sp.first ≤ sp.last ∧ sp.last ≤ text.size))

theorem findAll_bytes {re : Regex.Compiled} {text : Array Char} {sp : Regex.Span} (mem : sp ∈ re.findAll text) :
    sp.startByte = (Regex.byteOffsets text)[sp.first]! ∧ sp.endByte = (Regex.byteOffsets text)[sp.last]! := by
  unfold Regex.Compiled.findAll at mem
  obtain ⟨slots, -, rfl⟩ := List.mem_map.mp mem
  exact ⟨rfl, rfl⟩

theorem mem_detect {r : ActiveRule} {allow : List Regex.Compiled} {content : String} {text : Array Char}
    {x : Finding × Stretch} (mem : x ∈ r.detect allow content text) :
    ∃ sp ∈ r.pattern.findAll text,
      x = (⟨r.rule.id, r.rule.severity, sp.startByte, sp.endByte⟩, ⟨sp.first, sp.last⟩) := by
  unfold ActiveRule.detect at mem
  split at mem
  · cases mem
  · obtain ⟨sp, matched, kept⟩ := List.mem_filterMap.mp mem
    dsimp only at kept
    split at kept
    · cases kept
    · cases kept
      exact ⟨sp, matched, rfl⟩

/-- Each finding of rules whose matches lie within the text is a proper stretch of the
text, and its byte offsets are those of its stretch's ends. -/
theorem found_within {rules : List ActiveRule} {allow : List Regex.Compiled} {content : String}
    {text : Array Char} (within : ∀ r ∈ rules, MatchesWithin r.pattern text) {x : Finding × Stretch}
    (mem : x ∈ rules.flatMap (fun r => r.detect allow content text)) :
    x.2.first ≤ x.2.last ∧ x.2.last ≤ text.size ∧ x.1.bytes = x.2.map (fun i => (Regex.byteOffsets text)[i]!) := by
  obtain ⟨r, listed, found⟩ := List.mem_flatMap.mp mem
  obtain ⟨sp, matched, rfl⟩ := mem_detect found
  obtain ⟨start, stop⟩ := findAll_bytes matched
  exact ⟨(within r listed sp matched).1, (within r listed sp matched).2,
    by simp [Finding.bytes, Stretch.map, start, stop]⟩

theorem Components.any_holds {spans comps : List Stretch} (components : Components spans comps) (i : Nat) :
    comps.any (·.holds i) = spans.any (·.holds i) := by
  rw [Bool.eq_iff_iff]
  simp only [List.any_eq_true, ← Stretch.covers_middle]
  exact (components.union _).symm

theorem Components.last_le {spans comps : List Stretch} (components : Components spans comps) {bound : Nat}
    (within : ∀ s ∈ spans, s.last ≤ bound) : ∀ c ∈ comps, c.last ≤ bound := by
  intro c mem
  have ends : c.Covers (2 * c.last) := ⟨by simpa using components.proper c mem, le_rfl⟩
  obtain ⟨s, found, covers⟩ := (components.union _).mpr ⟨c, mem, ends⟩
  have := within s found
  simp only [Stretch.Covers] at covers
  omega

/-- What scrubbing a text gives, from the findings of the rules with their stretches of
characters `found`: the findings, in order; the text itself when there are none, and
otherwise the pieces outside the merged stretches joined by the redaction text; the
merged stretches, in bytes, are the connected components of the findings' byte offsets;
and the pieces hold the characters outside every finding, in order. -/
structure Redacted (redaction content : String) (found : List (Finding × Stretch)) (out : Scrubbed) : Prop where
  findings : out.findings = found.map Prod.fst
  unchanged : found = [] → out.text = content
  redacted : found ≠ [] →
    out.text = String.join ((gaps content.toList.toArray 0 (mergeStretches (found.map Prod.snd))).intersperse redaction)
  components : Components (out.findings.map Finding.bytes)
    ((mergeStretches (found.map Prod.snd)).map (Stretch.map (fun i => (Regex.byteOffsets content.toList.toArray)[i]!)))
  kept : ((gaps content.toList.toArray 0 (mergeStretches (found.map Prod.snd))).map String.toList).flatten =
    ((List.range content.length).filter (fun i => !found.any (·.2.holds i))).map (fun i => content.toList.toArray[i]!)

/-- Scrubbing a text that is not empty, with rules whose matches lie within it, redacts
the connected components of its findings. -/
theorem Scrubber.scrub_on {redaction : String} {rules : List ActiveRule} {allow : List Regex.Compiled}
    {content : String} (nonempty : content ≠ "") (within : ∀ r ∈ rules, MatchesWithin r.pattern content.toList.toArray) :
    Redacted redaction content (rules.flatMap (fun r => r.detect allow content content.toList.toArray))
      ((Scrubber.on redaction rules allow).scrub content) := by
  set text := content.toList.toArray with text_def
  set found := rules.flatMap (fun r => r.detect allow content text) with found_def
  have proper : ∀ s ∈ found.map Prod.snd, s.first ≤ s.last := by
    simp only [List.mem_map]
    rintro s ⟨x, mem, rfl⟩
    exact (found_within within mem).1
  have components := components_mergeStretches proper
  have size : text.size = content.length := by simp [text_def, String.length_toList]
  have bytes : found.map (fun x => x.1.bytes) =
      (found.map Prod.snd).map (Stretch.map (fun i => (Regex.byteOffsets text)[i]!)) := by
    rw [List.map_map]
    exact List.map_congr_left fun x mem => (found_within within mem).2.2
  have byte_components : Components (found.map (fun x => x.1.bytes))
      ((mergeStretches (found.map Prod.snd)).map (Stretch.map (fun i => (Regex.byteOffsets text)[i]!))) := by
    rw [← mergeStretches_map (byteOffsets_strictMonoOn text) (fun s mem => ?_), ← bytes]
    · exact components_mergeStretches (by
        rw [bytes]
        simp only [List.mem_map]
        rintro s ⟨t, mem, rfl⟩
        have ⟨first_le, last_le⟩ : t.first ≤ t.last ∧ t.last ≤ text.size := by
          obtain ⟨x, found_x, rfl⟩ := mem
          exact ⟨(found_within within found_x).1, (found_within within found_x).2.1⟩
        exact (byteOffsets_strictMonoOn text).monotoneOn (Set.mem_Iic.mpr (by omega)) (Set.mem_Iic.mpr last_le)
          first_le)
    · obtain ⟨x, found_x, rfl⟩ := List.mem_map.mp mem
      have := found_within within found_x
      exact ⟨by omega, this.2.1⟩
  have kept := gaps_flatten text components.proper components.apart
    (components.last_le (fun s mem => by
      obtain ⟨x, found_x, rfl⟩ := List.mem_map.mp mem
      exact (found_within within found_x).2.1)) (fun c _ => Nat.zero_le _)
  have scrubbed : (Scrubber.on redaction rules allow).scrub content =
      if found.isEmpty then ⟨content, []⟩
      else ⟨redact text redaction (mergeStretches (found.map Prod.snd)), found.map Prod.fst⟩ := by
    simp [Scrubber.scrub, nonempty, text_def, found_def]
  refine ⟨?_, fun none => ?_, fun some => ?_, ?_, ?_⟩
  · rw [scrubbed]
    split
    · rename_i empty
      simp [List.isEmpty_iff.mp empty]
    · rfl
  · simp [scrubbed, none]
  · simp [scrubbed, List.isEmpty_iff, some, redact_eq_gaps, text_def]
  · rw [scrubbed]
    split
    · rename_i empty
      simp [List.isEmpty_iff.mp empty, mergeStretches, mergeSorted] at byte_components ⊢
      exact byte_components
    · simpa [List.map_map, Function.comp_def] using byte_components
  · rw [kept, Nat.sub_zero, ← List.range_eq_range', size]
    congr 1
    exact List.filter_congr fun i _ => by rw [components.any_holds, List.any_map]; rfl

/-- Scrubbing several texts scrubs each one that is present, and counts the findings of
all of them. -/
theorem Scrubber.scrubAll_eq (s : Scrubber) (texts : List (Option String)) :
    s.scrubAll texts = (texts.map (Option.map (fun x => (s.scrub x).text)),
      (texts.map (fun t => (t.map (fun x => (s.scrub x).findings.length)).getD 0)).sum) := by
  induction texts with
  | nil => rfl
  | cons t rest ih =>
    unfold Scrubber.scrubAll at ih ⊢
    rw [List.foldr_cons, ih]
    cases t <;> simp [Nat.add_comm]

/-! ## Checked policies -/

/-- The compiled rules of a policy are its rules in order, each gated by its keywords, and
each pattern compiled with an entry. -/
theorem activateRules_ok {rs : List DetectionRule} {i : Nat} {active : List ActiveRule}
    (compiled : activateRules rs i = .ok active) :
    active.map ActiveRule.rule = rs ∧ (∀ a ∈ active, a.gates = a.rule.keywords.map keywordGate) ∧
      ∀ a ∈ active, a.pattern.program.Entered := by
  induction rs generalizing i active with
  | nil =>
    cases compiled
    simp
  | cons r rs ih =>
    unfold activateRules at compiled
    split at compiled
    · cases compiled
    split at compiled
    · cases compiled
    split at compiled
    · cases compiled
    rename_i re pattern
    split at compiled
    · cases compiled
    rename_i rest compiled_rest
    cases compiled
    obtain ⟨rules, gated, entered⟩ := ih compiled_rest
    refine ⟨by simp [rules], by simpa using gated, ?_⟩
    intro a mem
    rcases List.mem_cons.mp mem with rfl | later
    · exact Regex.compile_entered pattern
    · exact entered a later

/-- A checked policy that is enabled scrubs with its compiled rules and allow list, and
with its redaction text or the default one. -/
theorem Policy.activate_on {p : Policy} {s : Scrubber} (checked : p.activate = .ok s) (enabled : p.enabled = true) :
    ∃ rules allow, s = .on (if p.redaction.isEmpty then defaultRedaction else p.redaction) rules allow ∧
      activateRules p.rules 0 = .ok rules := by
  unfold Policy.activate at checked
  simp only [enabled, Bool.not_true, Bool.false_eq_true, ↓reduceIte] at checked
  split at checked
  · cases checked
  rename_i rules compiled
  split at checked
  · cases checked
  rename_i allow _
  cases checked
  exact ⟨rules, allow, rfl, compiled⟩

/-- A rule gated by its keywords runs when it has none or one of them is found in the
text, and then keeps the matches that no allowed pattern matches. -/
theorem ActiveRule.detect_gated {r : ActiveRule} (gated : r.gates = r.rule.keywords.map keywordGate)
    (allow : List Regex.Compiled) (content : String) (text : Array Char) :
    r.detect allow content text =
      if r.rule.keywords.isEmpty || r.rule.keywords.any (fun kw => (keywordGate kw).test content) then
        (r.pattern.findAll text).filterMap (fun sp =>
          if allow.any (fun a => a.test (String.ofList (text.extract sp.first sp.last).toList)) then none
          else some (⟨r.rule.id, r.rule.severity, sp.startByte, sp.endByte⟩, ⟨sp.first, sp.last⟩))
      else [] := by
  unfold ActiveRule.detect
  simp only [gated, List.isEmpty_map, List.any_map, Function.comp_def]
  cases r.rule.keywords.isEmpty <;> cases r.rule.keywords.any (fun kw => (keywordGate kw).test content) <;> rfl

/-- How the scrubber of a policy works, with its compiled rules and allow list: the rules
are the policy's, in order; a rule runs when it has no keywords or one of them is found
in the text, and keeps its matches that no allowed pattern matches, as findings with its
identifier, severity and byte offsets; a text that is not empty is redacted as `Redacted`
says; and scrubbing several texts scrubs each present one and counts all the findings. -/
structure Policy.Scrubs (p : Policy) (rules : List ActiveRule) (allow : List Regex.Compiled) : Prop where
  listed : rules.map ActiveRule.rule = p.rules
  gated : ∀ r ∈ rules, ∀ content text, r.detect allow content text =
    if r.rule.keywords.isEmpty || r.rule.keywords.any (fun kw => (keywordGate kw).test content) then
      (r.pattern.findAll text).filterMap (fun sp =>
        if allow.any (fun a => a.test (String.ofList (text.extract sp.first sp.last).toList)) then none
        else some (⟨r.rule.id, r.rule.severity, sp.startByte, sp.endByte⟩, ⟨sp.first, sp.last⟩))
    else []
  redacts : ∀ content, content ≠ "" →
    Redacted (if p.redaction.isEmpty then defaultRedaction else p.redaction) content
      (rules.flatMap (fun r => r.detect allow content content.toList.toArray))
      ((Scrubber.on (if p.redaction.isEmpty then defaultRedaction else p.redaction) rules allow).scrub content)
  counts : ∀ texts,
    (Scrubber.on (if p.redaction.isEmpty then defaultRedaction else p.redaction) rules allow).scrubAll texts =
      (texts.map (Option.map (fun x =>
          ((Scrubber.on (if p.redaction.isEmpty then defaultRedaction else p.redaction) rules allow).scrub x).text)),
        (texts.map (fun t => (t.map (fun x =>
          ((Scrubber.on (if p.redaction.isEmpty then defaultRedaction else p.redaction) rules allow).scrub
            x).findings.length)).getD 0)).sum)

/-- The scrubber of a checked, enabled policy works as `Policy.Scrubs` says. -/
theorem Policy.scrub_redacts_components (p : Policy) {s : Scrubber} (checked : p.activate = .ok s)
    (enabled : p.enabled = true) :
    ∃ rules allow, s = .on (if p.redaction.isEmpty then defaultRedaction else p.redaction) rules allow ∧
      p.Scrubs rules allow := by
  obtain ⟨rules, allow, rfl, compiled⟩ := Policy.activate_on checked enabled
  obtain ⟨listed, gated, entered⟩ := activateRules_ok compiled
  exact ⟨rules, allow, rfl, listed, fun r mem => ActiveRule.detect_gated (gated r mem) allow,
    fun content nonempty => Scrubber.scrub_on nonempty fun r mem => Regex.Compiled.findAll_within (entered r mem) _,
    Scrubber.scrubAll_eq _⟩

/-- A policy of two rules whose matches can overlap and touch: a token with its digits,
gated by its keyword, and digits followed by the letter `x`. -/
def overlapPolicy : Policy :=
  { rules := [{ id := "token", pattern := "tok[0-9]+", keywords := ["tok"], severity := "high" },
      { id := "suffix", pattern := "[0-9]+x", severity := "low" }],
    redaction := "***" }

/-- The overlap policy is checked, and in `a tok12x3x b` its three findings, `tok12` and
`12x` overlapping and `3x` touching `12x`, are redacted as one stretch. -/
theorem scrub_redacts_components_token :
    ∃ s, overlapPolicy.activate = .ok s ∧ overlapPolicy.enabled = true ∧
      ∃ rules allow, s = .on (if overlapPolicy.redaction.isEmpty then defaultRedaction else overlapPolicy.redaction)
        rules allow ∧ overlapPolicy.Scrubs rules allow ∧
        (s.scrub "a tok12x3x b").findings.length = 3 ∧ (s.scrub "a tok12x3x b").text = "a *** b" := by
  -- the kernel finds the stretches, but cannot run the sort that merging them starts with
  have found : (match overlapPolicy.activate with
      | .ok (.on _ rules allow) =>
        (rules.flatMap fun r => r.detect allow "a tok12x3x b" "a tok12x3x b".toList.toArray).map
          fun x => (x.2.first, x.2.last)
      | _ => []) = [(2, 7), (5, 8), (8, 10)] := by decide +kernel
  cases checked : overlapPolicy.activate with
  | error e =>
    rw [checked] at found
    cases found
  | ok s =>
    obtain ⟨rules, allow, rfl, scrubs⟩ := Policy.scrub_redacts_components overlapPolicy checked rfl
    rw [checked] at found
    have pair : Function.Injective (fun s : Stretch => (s.first, s.last)) := by
      rintro ⟨a, b⟩ ⟨c, d⟩ same
      simp only [Prod.mk.injEq] at same
      obtain ⟨rfl, rfl⟩ := same
      rfl
    have stretches : (rules.flatMap fun r => r.detect allow "a tok12x3x b" "a tok12x3x b".toList.toArray).map
        Prod.snd = [⟨2, 7⟩, ⟨5, 8⟩, ⟨8, 10⟩] := by
      apply List.map_injective_iff.mpr pair
      rw [List.map_map]
      exact found
    have redacted := scrubs.redacts "a tok12x3x b" (by decide)
    refine ⟨_, rfl, rfl, rules, allow, rfl, scrubs, ?_, ?_⟩
    · rw [redacted.findings, List.length_map, ← List.length_map Prod.snd, stretches]
      rfl
    · have nonempty : rules.flatMap (fun r => r.detect allow "a tok12x3x b" "a tok12x3x b".toList.toArray) ≠ [] := by
        intro none
        rw [none] at stretches
        cases stretches
      rw [redacted.redacted nonempty, stretches, mergeStretches, List.mergeSort_of_pairwise (by decide)]
      decide +kernel

end Secrets
end AgentMemory
