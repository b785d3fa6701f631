import AgentMemory.Proofs.Procedural.UnusedDecay
import AgentMemory.Proofs.Decimal.Arithmetic

namespace AgentMemory
namespace Procedural

open Decimal

/-!
# Confidences stay between zero and one

A rule's confidence is a double, and the stores only ever move it by taking the larger
of a floor and the confidence less something not below zero.  This module shows that such
steps keep a confidence in the unit interval, with no assumption that the settings are
numbers.

Merging ages every held rule and then keeps only the rules at least as confident as the
least confidence.  A double is at least another only when both are numbers, so a rule
whose aging gave `NaN` is never kept, and whatever is kept was aged with a floor and a
rate that are numbers.  Hence a merge of rules with confidences in the unit interval keeps
only such rules, whenever the floor is neither below zero nor above one and the weekly
rate is not below zero (`retain_inUnit`).  Decaying unused rules at a rate not below zero
does the same (`inUnit_unusedDecayed`).
-/

/-- A double between zero and one, ends included. -/
def InUnit (x : Float) : Prop := 0 ≤ x ∧ x ≤ 1

/-! ## The larger of two doubles -/

theorem larger_cases {a b : Float} (ha : IsNumber a) (hb : IsNumber b) :
    (larger a b = a ∧ b ≤ a) ∨ (larger a b = b ∧ a ≤ b) := by
  have numbers : (a.isNaN || b.isNaN) = false := by
    rw [(isNumber_iff_isNaN a).mp ha, (isNumber_iff_isNaN b).mp hb]
    rfl
  unfold larger
  rw [if_neg (by rw [numbers]; exact Bool.false_ne_true)]
  by_cases above : a > b
  · rw [if_pos above]
    exact Or.inl ⟨rfl, float_le_of_lt above⟩
  rw [if_neg above]
  by_cases below : b > a
  · rw [if_pos below]
    exact Or.inr ⟨rfl, float_le_of_lt below⟩
  rw [if_neg below]
  have ab : a ≤ b := (float_not_lt_iff_le hb ha).mp above
  have ba : b ≤ a := (float_not_lt_iff_le ha hb).mp below
  split
  · exact Or.inl ⟨rfl, ba⟩
  · exact Or.inr ⟨rfl, ab⟩

theorem isNumber_of_larger {a b : Float} (number : IsNumber (larger a b)) : IsNumber a ∧ IsNumber b := by
  unfold larger at number
  split at number
  · exact isNumber_of_add number
  · rename_i numbers
    simp only [Bool.or_eq_true, not_or, Bool.not_eq_true] at numbers
    exact ⟨(isNumber_iff_isNaN a).mpr numbers.1, (isNumber_iff_isNaN b).mpr numbers.2⟩

theorem le_larger_left {a b : Float} (ha : IsNumber a) (hb : IsNumber b) : a ≤ larger a b := by
  rcases larger_cases ha hb with ⟨same, -⟩ | ⟨same, le⟩
  · rw [same]
    exact float_le_refl ha
  · rw [same]
    exact le

theorem larger_le {a b m : Float} (ha : a ≤ m) (hb : b ≤ m) : larger a b ≤ m := by
  rcases larger_cases (isNumber_of_le_left ha) (isNumber_of_le_left hb) with ⟨same, -⟩ | ⟨same, -⟩
  · rw [same]
    exact ha
  · rw [same]
    exact hb

theorem InUnit.larger {a b : Float} (ha : InUnit a) (number : IsNumber b) (le : b ≤ 1) :
    InUnit (Procedural.larger a b) :=
  ⟨float_le_trans ha.1 (le_larger_left (isNumber_of_le_right ha.1) number), larger_le ha.2 le⟩

theorem InUnit.sub_le {c p : Float} (unit : InUnit c) (hp : 0 ≤ p) : c - p ≤ 1 :=
  float_le_trans (float_sub_le_self (isFinite_of_le_one unit.1 unit.2) unit.1 hp) unit.2

theorem isNumber_zero : IsNumber 0 := (isNumber_iff_isNaN 0).mpr (by decide +kernel)

theorem isNumber_one : IsNumber 1 := (isNumber_iff_isNaN 1).mpr (by decide +kernel)

theorem inUnit_of_checks {x : Float} (number : IsNumber x) (low : ¬ x < 0) (high : ¬ x > 1) : InUnit x :=
  ⟨(float_not_lt_iff_le number isNumber_zero).mp low, (float_not_lt_iff_le isNumber_one number).mp high⟩

/-! ## Aging -/

theorem confidence_stamped (now : Clock.Instant) (r : Rule) : (stamped now r).confidence = r.confidence := by
  unfold stamped
  split <;> rfl

/-- Aging a rule leaves its confidence, or lowers it by the weekly rate over a positive
number of days to no less than the floor. -/
theorem ageDecay_confidence (opts : MergeOptions) (now : Clock.Instant) (r : Rule) :
    (ageDecay opts now r).confidence = r.confidence ∨
      ∃ days : Int, 0 < days ∧ (ageDecay opts now r).confidence =
        larger opts.ageFloor (r.confidence - opts.decayPerWeek * (Float.ofInt days / 7)) := by
  unfold ageDecay
  split
  · exact Or.inl rfl
  · dsimp only
    split
    · exact Or.inl rfl
    · unfold agedConfidence
      split
      · exact Or.inl rfl
      · exact Or.inr ⟨_, by omega, rfl⟩

/-- Aging keeps a confidence in the unit interval whenever it gives a number, under a
floor that passes the checks of the unit interval and a weekly rate not below zero. -/
theorem inUnit_ageDecay {opts : MergeOptions} {now : Clock.Instant} {r : Rule} (unit : InUnit r.confidence)
    (floorLow : ¬ opts.ageFloor < 0) (floorHigh : ¬ opts.ageFloor > 1) (rate : ¬ opts.decayPerWeek < 0)
    (number : IsNumber (ageDecay opts now r).confidence) : InUnit (ageDecay opts now r).confidence := by
  rcases ageDecay_confidence opts now r with same | ⟨days, pos, aged⟩
  · rw [same]
    exact unit
  rw [aged] at number ⊢
  obtain ⟨floorNumber, lowered⟩ := isNumber_of_larger number
  have floor := inUnit_of_checks floorNumber floorLow floorHigh
  have weeks : ¬ Float.ofInt days / 7 < 0 := not_lt_zero_div (not_lt_zero_ofInt pos.le) (by decide +kernel)
  have charged : 0 ≤ opts.decayPerWeek * (Float.ofInt days / 7) :=
    (float_not_lt_iff_le (isNumber_of_sub lowered) isNumber_zero).mp (not_lt_zero_mul rate weeks)
  exact floor.larger lowered (unit.sub_le charged)

/-! ## Merging -/

/-- Every rule a merge holds before aging carries the confidence of a stored or an incoming
rule: a rule is added as it arrives, and an upgrade takes the confidence of one side. -/
theorem confidence_mem_mergeIncoming (now : Clock.Instant) (stored incoming : List Rule) :
    ∀ r ∈ (mergeIncoming now stored incoming).1, ∃ r' ∈ stored ++ incoming, r.confidence = r'.confidence := by
  induction incoming using List.reverseRecOn with
  | nil =>
    intro r mem
    exact ⟨r, by simpa [mergeIncoming_nil] using mem, rfl⟩
  | append_singleton pre x ih =>
    rw [mergeIncoming_snoc]
    rcases merged : mergeIncoming now stored pre with ⟨rules, added, replaced⟩
    rw [merged] at ih
    have earlier : ∀ r ∈ rules, ∃ r' ∈ stored ++ (pre ++ [x]), r.confidence = r'.confidence := by
      intro r mem
      obtain ⟨r', mem', same⟩ := ih r mem
      exact ⟨r', by simp only [List.mem_append] at mem' ⊢; tauto, same⟩
    have arriving : ∃ r' ∈ stored ++ (pre ++ [x]), (stamped now x).confidence = r'.confidence :=
      ⟨x, by simp, confidence_stamped now x⟩
    rcases mergeStep_cases now rules added replaced x with ⟨-, step⟩ | ⟨i, old, found, -, step⟩ <;>
      rw [step] <;> intro r mem
    · rcases List.mem_append.mp mem with old | new
      · exact earlier r old
      · rw [List.mem_singleton.mp new]
        exact arriving
    · rcases List.mem_or_eq_of_mem_set mem with held | upgraded
      · exact earlier r held
      · -- the upgrade keeps the held rule, or takes the arriving rule's confidence
        rw [upgraded]
        unfold upgrade
        split
        · exact earlier old (List.mem_of_getElem? found)
        · exact arriving

/-- A merge of stored and incoming rules with confidences in the unit interval keeps only
rules with confidences in the unit interval, when the floor passes the checks of the unit
interval and the weekly rate is not below zero. -/
theorem retain_inUnit {now : Clock.Instant} {opts : MergeOptions} {stored incoming : List Rule}
    (unit : ∀ r ∈ stored ++ incoming, InUnit r.confidence) (floorLow : ¬ opts.ageFloor < 0)
    (floorHigh : ¬ opts.ageFloor > 1) (rate : ¬ opts.decayPerWeek < 0) :
    ∀ r ∈ (retain now opts stored incoming).1, InUnit r.confidence := by
  intro r mem
  unfold retain at mem
  rcases merged : mergeIncoming now stored incoming with ⟨held, added, replaced⟩
  rw [merged] at mem
  dsimp only at mem
  have ranked : r ∈ byConfidence (candidates now opts held) := by
    split at mem
    · exact List.mem_of_mem_take mem
    · exact mem
  have candidate : r ∈ candidates now opts held := List.mem_mergeSort.mp ranked
  obtain ⟨r₀, mem₀, rfl⟩ := List.mem_map.mp (List.mem_filter.mp candidate).1
  obtain ⟨r', mem', same⟩ := confidence_mem_mergeIncoming now stored incoming r₀ (by rw [merged]; exact mem₀)
  exact inUnit_ageDecay (same ▸ unit r' mem') floorLow floorHigh rate
    (isNumber_of_le_right (confident_of_mem_candidates candidate))

/-! ## Decaying unused rules -/

theorem inUnit_unusedDecayFloor : InUnit unusedDecayFloor := ⟨by decide +kernel, by decide +kernel⟩

/-- Unused decay at a rate not below zero keeps a confidence in the unit interval. -/
theorem inUnit_unusedDecayed {rate : Float} (hr : 0 ≤ rate) {r : Rule} (unit : InUnit r.confidence) :
    InUnit (unusedDecayed rate r).confidence := by
  have lowered := unit.sub_le hr
  unfold unusedDecayed
  split_ifs
  · exact unit
  · exact inUnit_unusedDecayFloor.larger (isNumber_of_le_left lowered) lowered
  · exact unit

theorem nonneg_of_accepted {rate : Float} (accepted : (rate < 0 || rate.isNaN) = false) : 0 ≤ rate := by
  simp only [Bool.or_eq_false_iff, decide_eq_false_iff_not] at accepted
  exact (float_not_lt_iff_le ((isNumber_iff_isNaN rate).mpr accepted.2) isNumber_zero).mp accepted.1

/-! ## The stores' runs -/

namespace Store

open Storage

/-- A merge that succeeded rewrote the document with rules that all have confidences in the
unit interval, when the stored and the incoming ones had, the floor passes the checks of the
unit interval and the weekly rate is not below zero. -/
theorem merge_inUnit {s : Store} {incoming : List Rule} {opts : MergeOptions} {w w' : World} {res : MergeResult}
    (ran : (s.merge incoming opts).run.run w = (.ok res, w')) (floorLow : ¬ opts.ageFloor < 0)
    (floorHigh : ¬ opts.ageFloor > 1) (rate : ¬ opts.decayPerWeek < 0) :
    ∃ stored kept t', s.Rewrote w stored { rules := kept, updated := some w.now } t' ∧
      ((∀ r ∈ stored ++ incoming, InUnit r.confidence) → ∀ r ∈ kept, InUnit r.confidence) := by
  obtain ⟨stored, t', rewrote, -, -⟩ := merge_rewrites ran
  exact ⟨stored, _, t', rewrote, fun unit => retain_inUnit unit floorLow floorHigh rate⟩

/-- An unused decay that succeeded had a rate not below zero, counted the rules it changed,
rewrote the document when there were any, and keeps confidences in the unit interval. -/
theorem decayUnused_inUnit {s : Store} {rate : Float} {w w' : World} {n : Nat}
    (ran : (s.decayUnused rate).run.run w = (.ok n, w')) :
    0 ≤ rate ∧ ∃ stored, n = (stored.filter (decayChanges rate)).length ∧
      (0 < n → ∃ updated t', s.Rewrote w stored { rules := stored.map (unusedDecayed rate), updated := updated } t') ∧
      ((∀ r ∈ stored, InUnit r.confidence) → ∀ r ∈ stored.map (unusedDecayed rate), InUnit r.confidence) := by
  obtain ⟨accepted, stored, counted, rewrote⟩ := decayUnused_rewrites ran
  have nonneg := nonneg_of_accepted accepted
  refine ⟨nonneg, stored, counted, rewrote, fun unit r mem => ?_⟩
  obtain ⟨r₀, mem₀, rfl⟩ := List.mem_map.mp mem
  exact inUnit_unusedDecayed nonneg (unit r₀ mem₀)

end Store

end Procedural
end AgentMemory
