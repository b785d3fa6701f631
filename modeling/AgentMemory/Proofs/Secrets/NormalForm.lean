import Mathlib
import AgentMemory.Proofs.Secrets.Redaction

namespace AgentMemory
namespace Secrets

/-!
# Merged stretches are a normal form

The merge runs over the stretches sorted by start, and a sort that is not stable may
put stretches with equal starts in any order.  Whatever that order, the merge gives the
connected components of the union of the stretches taken as closed intervals
(`components_mergeSorted`), and these are determined by the union alone
(`Components.unique`), so every sorted order gives the same list
(`mergeSorted_normal_form`).

The components are also read off the stretches one by one: each stretch lies inside
exactly one component (`Components.inside`), and a component starts at the least start
and ends at the greatest end of the stretches inside it (`Components.start_isLeast`,
`Components.end_isGreatest`).  Nothing here assumes the list is not empty.
-/

namespace Stretch

/-- The stretch `s` lies inside the stretch `c`. -/
def Inside (s c : Stretch) : Prop := c.first ≤ s.first ∧ s.last ≤ c.last

/-- Two stretches with a gap between them, in either order. -/
def Apart (a b : Stretch) : Prop := a.last < b.first ∨ b.last < a.first

instance : Std.Symm Apart := ⟨fun _ _ apart => apart.symm⟩

theorem Inside.covers {s c : Stretch} (inside : s.Inside c) {p : Nat} (covers : s.Covers p) : c.Covers p := by
  simp only [Inside, Covers] at *
  omega

end Stretch

section Components

variable {spans comps : List Stretch}

theorem Components.apart_of_ne (components : Components spans comps) {c d : Stretch} (hc : c ∈ comps)
    (hd : d ∈ comps) (differ : c ≠ d) : c.Apart d := by
  have apart : comps.Pairwise Stretch.Apart := components.apart.imp Or.inl
  exact apart.forall hc hd differ

theorem Components.eq_of_covers (components : Components spans comps) {c d : Stretch} (hc : c ∈ comps)
    (hd : d ∈ comps) {p : Nat} (in_c : c.Covers p) (in_d : d.Covers p) : c = d := by
  by_contra differ
  have apart := components.apart_of_ne hc hd differ
  simp only [Stretch.Apart, Stretch.Covers] at apart in_c in_d
  omega

/-- Each proper stretch lies inside a component: the component that covers its start
reaches its end, since the point just past that component's end is covered by none. -/
theorem Components.inside (components : Components spans comps) {s : Stretch} (mem : s ∈ spans)
    (proper : s.first ≤ s.last) : ∃ c ∈ comps, s.Inside c := by
  obtain ⟨c, hc, start⟩ := (components.union (2 * s.first)).mp ⟨s, mem, le_rfl, by omega⟩
  refine ⟨c, hc, by simp only [Stretch.Covers] at start; omega, ?_⟩
  by_contra beyond
  -- the stretch covers the point just past the component, and so would another component
  obtain ⟨d, hd, past⟩ := (components.union (2 * c.last + 1)).mp
    ⟨s, mem, by simp only [Stretch.Covers] at start; omega, by omega⟩
  have differ : c ≠ d := by
    rintro rfl
    simp only [Stretch.Covers] at past
    omega
  have apart := components.apart_of_ne hc hd differ
  simp only [Stretch.Apart, Stretch.Covers] at apart start past
  omega

theorem Components.inside_of_covers (components : Components spans comps) (proper : ∀ s ∈ spans, s.first ≤ s.last)
    {s c : Stretch} (mem : s ∈ spans) (hc : c ∈ comps) {p : Nat} (in_s : s.Covers p) (in_c : c.Covers p) :
    s.Inside c := by
  obtain ⟨d, hd, inside⟩ := components.inside mem (proper s mem)
  rwa [components.eq_of_covers hc hd in_c (inside.covers in_s)]

/-- A component starts at the least start of the stretches inside it. -/
theorem Components.start_isLeast (components : Components spans comps) (proper : ∀ s ∈ spans, s.first ≤ s.last)
    {c : Stretch} (hc : c ∈ comps) : IsLeast {x | ∃ s ∈ spans, s.Inside c ∧ s.first = x} c.first := by
  have start : c.Covers (2 * c.first) := ⟨le_rfl, by simpa using components.proper c hc⟩
  obtain ⟨s, mem, in_s⟩ := (components.union _).mpr ⟨c, hc, start⟩
  have inside := components.inside_of_covers proper mem hc in_s start
  refine ⟨⟨s, mem, inside, ?_⟩, ?_⟩
  · simp only [Stretch.Inside, Stretch.Covers] at inside in_s
    omega
  · rintro x ⟨t, -, inside_t, rfl⟩
    exact inside_t.1

/-- A component ends at the greatest end of the stretches inside it. -/
theorem Components.end_isGreatest (components : Components spans comps) (proper : ∀ s ∈ spans, s.first ≤ s.last)
    {c : Stretch} (hc : c ∈ comps) : IsGreatest {x | ∃ s ∈ spans, s.Inside c ∧ s.last = x} c.last := by
  have stop : c.Covers (2 * c.last) := ⟨by simpa using components.proper c hc, le_rfl⟩
  obtain ⟨s, mem, in_s⟩ := (components.union _).mpr ⟨c, hc, stop⟩
  have inside := components.inside_of_covers proper mem hc in_s stop
  refine ⟨⟨s, mem, inside, ?_⟩, ?_⟩
  · simp only [Stretch.Inside, Stretch.Covers] at inside in_s
    omega
  · rintro x ⟨t, -, inside_t, rfl⟩
    exact inside_t.2

end Components

/-- Merging proper stretches sorted by start in any order that ties allow gives one list:
the connected components of the union of the stretches as closed intervals, in order with
a gap between each and the next, each starting at the least start and ending at the
greatest end of the stretches inside it. -/
theorem mergeSorted_normal_form {spans sorted : List Stretch} (proper : ∀ s ∈ spans, s.first ≤ s.last)
    (perm : sorted.Perm spans) (byStart : sorted.Pairwise (fun a b => a.first ≤ b.first)) :
    mergeSorted sorted = mergeStretches spans ∧ Components spans (mergeStretches spans) ∧
      ∀ c ∈ mergeStretches spans,
        IsLeast {x | ∃ s ∈ spans, s.Inside c ∧ s.first = x} c.first ∧
        IsGreatest {x | ∃ s ∈ spans, s.Inside c ∧ s.last = x} c.last := by
  have components := components_mergeStretches proper
  have merged : Components spans (mergeSorted sorted) :=
    (components_mergeSorted (fun s mem => proper s (perm.mem_iff.mp mem)) byStart).perm perm
  exact ⟨merged.unique components, components,
    fun c hc => ⟨components.start_isLeast proper hc, components.end_isGreatest proper hc⟩⟩

/-- Four stretches, two of them starting at the same position, out of order. -/
def tiedSpans : List Stretch := [⟨3, 5⟩, ⟨1, 3⟩, ⟨3, 3⟩, ⟨7, 8⟩]

/-- The stretches sorted by start with the tie the other way round from the stable sort. -/
def tiedOrder : List Stretch := [⟨1, 3⟩, ⟨3, 3⟩, ⟨3, 5⟩, ⟨7, 8⟩]

/-- Both orders of the tie merge into the touching stretches up to 5, and the stretch apart. -/
theorem mergeSorted_normal_form_tied :
    (∀ s ∈ tiedSpans, s.first ≤ s.last) ∧ tiedOrder.Perm tiedSpans ∧
      tiedOrder.Pairwise (fun a b => a.first ≤ b.first) ∧
      mergeStretches tiedSpans = [⟨1, 5⟩, ⟨7, 8⟩] := by
  have proper : ∀ s ∈ tiedSpans, s.first ≤ s.last := by decide
  have perm : tiedOrder.Perm tiedSpans :=
    show List.Perm ([⟨1, 3⟩, ⟨3, 3⟩] ++ (⟨3, 5⟩ : Stretch) :: [⟨7, 8⟩]) (⟨3, 5⟩ :: ([⟨1, 3⟩, ⟨3, 3⟩] ++ [⟨7, 8⟩])) from
      List.perm_middle
  have byStart : tiedOrder.Pairwise (fun a b => a.first ≤ b.first) := by decide
  have merged : mergeSorted tiedOrder = [⟨1, 5⟩, ⟨7, 8⟩] := rfl
  exact ⟨proper, perm, byStart, (mergeSorted_normal_form proper perm byStart).1 ▸ merged⟩

end Secrets
end AgentMemory
