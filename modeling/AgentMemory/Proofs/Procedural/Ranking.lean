import AgentMemory.Procedural.Store
import AgentMemory.Proofs.Decimal.Order

namespace AgentMemory
namespace Procedural

open Decimal

/-!
# Ranking rules by confidence

Rules are ranked most confident first, and rules that tie keep the order they had.
Confidences are doubles, and `≤` on doubles is a preorder only on numbers; so the
ranking is shown sorted and stable for lists whose confidences are numbers
(`ranksStably_byConfidence`), which is every list that passed a threshold.

The general facts about sorting are stated for a comparison that is transitive and
total on the elements of the list only (`pairwise_mergeSort_of_mem`,
`pair_sublist_mergeSort_of_mem`): the list of its members is sorted instead, where
the comparison is a total preorder.
-/

section Members

variable {α : Type} {le : α → α → Bool} {l : List α}

theorem mergeSort_attach (l : List α) (le : α → α → Bool) :
    (l.attach.mergeSort (fun a b => le a.1 b.1)).map Subtype.val = l.mergeSort le := by
  have same := List.map_mergeSort (r := fun a b : { x // x ∈ l } => le a.1 b.1) (s := le)
    (f := Subtype.val) (l := l.attach) (fun _ _ _ _ => rfl)
  rwa [List.attach_map_subtype_val] at same

variable (trans : ∀ a ∈ l, ∀ b ∈ l, ∀ c ∈ l, le a b = true → le b c = true → le a c = true)
  (total : ∀ a ∈ l, ∀ b ∈ l, (le a b || le b a) = true)
include trans total

/-- Sorting with a comparison that is a total preorder on the elements of the list sorts
it, whatever the comparison does elsewhere. -/
theorem pairwise_mergeSort_of_mem : (l.mergeSort le).Pairwise (fun a b => le a b = true) := by
  rw [← mergeSort_attach, List.pairwise_map]
  exact List.pairwise_mergeSort (fun a b c => trans a.1 a.2 b.1 b.2 c.1 c.2)
    (fun a b => total a.1 a.2 b.1 b.2) _

/-- Sorting is stable for a comparison that is a total preorder on the elements: two
elements in order, the first not after the second, stay in order. -/
theorem pair_sublist_mergeSort_of_mem {a b : α} (hab : le a b = true) (pair : List.Sublist [a, b] l) :
    List.Sublist [a, b] (l.mergeSort le) := by
  rw [← List.attach_map_subtype_val l] at pair
  obtain ⟨members, sub, lifted⟩ := List.sublist_map_iff.mp pair
  rw [← mergeSort_attach]
  match members, lifted with
  | [a', b'], lifted =>
    simp only [List.map_cons, List.map_nil, List.cons.injEq, and_true] at lifted
    obtain ⟨rfl, rfl⟩ := lifted
    have kept : List.Sublist [a', b'] (l.attach.mergeSort (fun x y => le x.1 y.1)) :=
      List.pair_sublist_mergeSort (fun x y z => trans x.1 x.2 y.1 y.2 z.1 z.2)
        (fun x y => total x.1 x.2 y.1 y.2) hab sub
    exact kept.map Subtype.val

end Members

/-- `ranking` lists `rules` most confident first, and of two rules in order the first, if
at least as confident, stays first. -/
structure RanksStably (rules ranking : List Rule) : Prop where
  perm : ranking.Perm rules
  ranked : ranking.Pairwise (fun a b => b.confidence ≤ a.confidence)
  stable : ∀ a b, List.Sublist [a, b] rules → b.confidence ≤ a.confidence → List.Sublist [a, b] ranking

/-- The comparison of the ranking is a total preorder on rules whose confidences are
numbers. -/
theorem confidence_trans (a b c : Rule) (hab : decide (a.confidence ≥ b.confidence) = true)
    (hbc : decide (b.confidence ≥ c.confidence) = true) : decide (a.confidence ≥ c.confidence) = true := by
  simp only [decide_eq_true_eq, ge_iff_le] at *
  exact float_le_trans hbc hab

theorem confidence_total {a b : Rule} (ha : IsNumber a.confidence) (hb : IsNumber b.confidence) :
    (decide (a.confidence ≥ b.confidence) || decide (b.confidence ≥ a.confidence)) = true := by
  simp only [Bool.or_eq_true, decide_eq_true_eq, ge_iff_le]
  exact (float_le_total hb ha)

/-- Ranking rules whose confidences are numbers sorts them most confident first, keeping
the order of ties. -/
theorem ranksStably_byConfidence {rules : List Rule} (numbers : ∀ r ∈ rules, IsNumber r.confidence) :
    RanksStably rules (byConfidence rules) where
  perm := List.mergeSort_perm _ _
  ranked := by
    have sorted := pairwise_mergeSort_of_mem (l := rules) (fun a _ b _ c _ => confidence_trans a b c)
      (fun a ha b hb => confidence_total (numbers a ha) (numbers b hb))
    simpa only [byConfidence, decide_eq_true_eq, ge_iff_le] using sorted
  stable a b pair tie :=
    pair_sublist_mergeSort_of_mem (fun a _ b _ c _ => confidence_trans a b c)
      (fun a ha b hb => confidence_total (numbers a ha) (numbers b hb)) (by simpa using tie) pair

end Procedural
end AgentMemory
