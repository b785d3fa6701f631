import AgentMemory.Proofs.Procedural.Updates

namespace AgentMemory
namespace Procedural

open Storage Disk

/-!
# Decaying unused rules

On request every rule that was never applied loses a fixed rate of confidence, to no less
than 0.1; applied rules are left alone.  The store does it in one fold over the stored
rules that rebuilds the list and counts the rules whose confidence changed.
`unusedDecayed` says what the fold does to one rule, and `Store.decayUnused_rewrites` what
a decay that succeeded did: it counted the rules `decayChanges` picks out and, when there
were any, rewrote the document with every rule as `unusedDecayed` leaves it.

The floor is applied as a clamp, not as a guard: an unapplied rule whose confidence is
below the floor is raised to it (`unusedDecayed_raises`).
-/

/-- A rule as unused decay leaves it: an applied rule as it was, an unapplied one with its
confidence lowered by `rate` to no less than 0.1, unless that gives its confidence again. -/
def unusedDecayed (rate : Float) (r : Rule) : Rule :=
  if r.timesApplied != 0 then r
  else if larger unusedDecayFloor (r.confidence - rate) != r.confidence then
    { r with confidence := larger unusedDecayFloor (r.confidence - rate) }
  else r

/-- Unused decay changes the confidence of a rule: it was never applied, and lowering it
gives another confidence. -/
def decayChanges (rate : Float) (r : Rule) : Bool :=
  r.timesApplied == 0 && larger unusedDecayFloor (r.confidence - rate) != r.confidence

theorem unusedDecayed_of_applied (rate : Float) {r : Rule} (applied : r.timesApplied ≠ 0) :
    unusedDecayed rate r = r := by
  simp [unusedDecayed, applied]

theorem unusedDecayed_eq (rate : Float) (r : Rule) :
    unusedDecayed rate r = { r with confidence := (unusedDecayed rate r).confidence } := by
  unfold unusedDecayed
  split_ifs <;> rfl

/-- A fold that appends each element's image, and counts the elements a test picks out,
appends the images of the whole list and counts all it picks out. -/
theorem foldl_mapCount {α β : Type} {step : List β × Nat → α → List β × Nat} {f : α → β} {p : α → Bool}
    (steps : ∀ acc a, step acc a = (acc.1 ++ [f a], acc.2 + if p a then 1 else 0)) (xs : List α)
    (acc : List β × Nat) :
    xs.foldl step acc = (acc.1 ++ xs.map f, acc.2 + (xs.filter p).length) := by
  induction xs generalizing acc with
  | nil => simp
  | cons a xs ih =>
    rw [List.foldl_cons, ih, steps]
    by_cases picked : p a <;> simp [picked]
    omega

namespace Store

/-- A decay that succeeded had a rate that is a number and not negative; it counted the
stored rules whose confidence it changed, and when there were any it rewrote the document
with every rule as unused decay leaves it. -/
theorem decayUnused_rewrites {s : Store} {rate : Float} {w w' : World} {n : Nat}
    (ran : (s.decayUnused rate).run.run w = (.ok n, w')) :
    (rate < 0 || rate.isNaN) = false ∧ ∃ stored, n = (stored.filter (decayChanges rate)).length ∧
      (0 < n → ∃ updated t', s.Rewrote w stored { rules := stored.map (unusedDecayed rate), updated := updated } t') := by
  unfold decayUnused at ran
  split at ran
  · obtain ⟨_, _, refused, -⟩ := run_bind_ok ran
    cases refused
  rename_i valid
  refine ⟨by simpa using valid, ?_⟩
  obtain ⟨r, w₁, attempted, rest⟩ := run_bind_ok ran
  rw [run_attempt] at attempted
  split at attempted
  · rename_i n₀ w₂ updated
    cases attempted
    have returned : n = n₀ := by
      simp only at rest
      split at rest
      · obtain ⟨_, _, -, rest⟩ := run_bind_ok rest
        exact (Except.ok.inj (Prod.mk.inj rest).1).symm
      · exact (Except.ok.inj (Prod.mk.inj rest).1).symm
    subst returned
    obtain ⟨t, d, changed, doc, w₄, locked, read, changed_run, wrote⟩ := run_update_ok updated
    -- the fold maps every rule as `unusedDecayed` does and counts what `decayChanges` picks out
    dsimp only at changed_run
    rw [foldl_mapCount (f := unusedDecayed rate) (p := decayChanges rate) ?steps] at changed_run
    case steps =>
      intro acc r
      simp only [unusedDecayed, decayChanges]
      by_cases applied : r.timesApplied = 0 <;> simp [applied]
      split_ifs <;> simp
    simp only [List.nil_append, Nat.zero_add, run_pure] at changed_run
    obtain ⟨⟨rfl, rfl, rfl⟩, rfl⟩ := changed_run
    refine ⟨(d.getD {}).rules, rfl, fun some => ?_⟩
    simp only [some, decide_true, if_true] at wrote
    obtain ⟨j, t', encoded, replaced, -⟩ := run_writeEncoded_ok wrote
    rw [RuleDocument.encode_ok encoded] at replaced
    exact ⟨(d.getD {}).updated, t', t, d, locked, read, rfl, replaced⟩
  · cases attempted
    cases rest

end Store

/-- A never-applied rule whose confidence is under the floor is raised to it, and counted. -/
theorem unusedDecayed_raises :
    (unusedDecayed 0 { id := "r", confidence := 0.05 }).confidence = 0.1 ∧
      decayChanges 0 { id := "r", confidence := 0.05 } = true := by
  decide +kernel

end Procedural
end AgentMemory
