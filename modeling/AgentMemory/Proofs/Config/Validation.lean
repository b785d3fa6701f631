import AgentMemory.Config.Load
import AgentMemory.Reflection.Executor
import AgentMemory.Proofs.Procedural.Bounds
import AgentMemory.Proofs.Storage.Rejection

namespace AgentMemory
namespace Config

open Storage

/-!
# What loading guarantees of the settings

Loading ends with `Settings.validate`, so the settings it returns pass every check there
(`load_checked`), whatever the libraries that merge, decode and read YAML do, and
`Settings.Checked` says what the checks are, one field each.  The
checks on doubles are comparisons with `<` and `>`, which a `NaN` passes, and the rate at
which unused rules decay is not checked at all.

For the rule store that is enough where the store guards itself.  A merge with the
options of accepted settings keeps confidences in the unit interval: a rule whose aging
gives `NaN` is dropped by the least confidence.  Unused decay refuses a rate that is
negative or `NaN` on its own, so with the rate loading accepted it either keeps
confidences in the unit interval or fails (`load_bounds_rule_confidences`).  Loading does
accept such rates, and a least confidence that is `NaN` (`loading_accepts_unusable_rates`).
-/

/-- The settings pass every check of `Settings.validate`, as the checks are written. -/
structure Settings.Checked (c : Settings) : Prop where
  root : c.rootDir.isEmpty = false
  threshold : 1 ≤ c.coldPath.patternThreshold
  decay : ¬ c.procedural.decayPerWeek < 0
  minLow : ¬ c.procedural.minConfidence < 0
  minHigh : ¬ c.procedural.minConfidence > 1
  floorLow : ¬ c.procedural.ageDecayFloor < 0
  floorHigh : ¬ c.procedural.ageDecayFloor > 1
  maxRules : 1 ≤ c.procedural.maxRules
  ttl : 0 ≤ c.episodic.ttlDays
  cap : 1 ≤ c.episodic.legacyIndexCap
  lock : 0 < c.lockTimeout.nanos
  injections : 0 ≤ c.hooks.maxInjections

theorem Settings.validate_eq_ok_iff (c : Settings) : c.validate = .ok () ↔ c.Checked := by
  unfold Settings.validate
  constructor
  · intro ok
    split_ifs at ok with root threshold decay minimum floor maxRules ttl cap lock injections
    all_goals cases ok
    simp only [Bool.or_eq_true, decide_eq_true_eq, not_or] at minimum floor
    exact ⟨by simpa using root, by omega, decay, minimum.1, minimum.2, floor.1, floor.2, by omega, by omega,
      by omega, by omega, by omega⟩
  · rintro ⟨root, threshold, decay, minLow, minHigh, floorLow, floorHigh, maxRules, ttl, cap, lock, injections⟩
    simp [root, decay, minLow, minHigh, floorLow, floorHigh, show ¬ c.coldPath.patternThreshold < 1 by omega,
      show ¬ c.procedural.maxRules < 1 by omega, show ¬ c.episodic.ttlDays < 0 by omega,
      show ¬ c.episodic.legacyIndexCap < 1 by omega, show ¬ c.lockTimeout.nanos ≤ 0 by omega,
      show ¬ c.hooks.maxInjections < 0 by omega]

theorem settle_checked {lib : Libraries} {merged : Loose} {base c : Settings} (settled : settle lib merged base = .ok c) :
    c.Checked := by
  unfold settle at settled
  simp only [bind, Except.bind, pure, Except.pure, throw, throwThe, MonadExceptOf.throw] at settled
  split at settled
  · cases settled
  · split at settled
    · cases settled
    · rename_i valid
      cases settled
      exact (Settings.validate_eq_ok_iff _).mp valid

/-- Loading gives only checked settings, whatever the libraries do. -/
theorem load_checked {lib : Libraries} {tree : Disk.Tree} {env : Environment} {root path : String} {c : Settings}
    (loaded : loadWith lib tree env root path = .ok c) : c.Checked := by
  unfold loadWith at loaded
  simp only [bind, Except.bind] at loaded
  split at loaded
  · cases loaded
  · split at loaded
    · cases loaded
    · exact settle_checked loaded

/-- What loaded settings guarantee of rule confidences: the settings pass the checks; a
merge with their options that succeeded wrote rules with confidences in the unit interval
when the stored and the incoming ones had them; and an unused decay at their rate that
succeeded had a rate not below zero, counted the rules it changed, rewrote the document
when there were any, and keeps confidences in the unit interval. -/
theorem load_bounds_rule_confidences (lib : Libraries) {tree : Disk.Tree} {env : Environment} {root path : String}
    {c : Settings} (loaded : loadWith lib tree env root path = .ok c) :
    c.Checked ∧
      (∀ (s : Procedural.Store) (incoming : List Procedural.Rule) (w w' : World) (res : Procedural.MergeResult),
        (s.merge incoming (Reflection.mergeOptions c)).run.run w = (.ok res, w') →
        ∃ stored kept t', s.Rewrote w stored { rules := kept, updated := some w.now } t' ∧
          ((∀ r ∈ stored ++ incoming, Procedural.InUnit r.confidence) → ∀ r ∈ kept, Procedural.InUnit r.confidence)) ∧
      (∀ (s : Procedural.Store) (w w' : World) (n : Nat),
        (s.decayUnused c.procedural.unusedDecayRate).run.run w = (.ok n, w') →
        0 ≤ c.procedural.unusedDecayRate ∧
          ∃ stored, n = (stored.filter (Procedural.decayChanges c.procedural.unusedDecayRate)).length ∧
            (0 < n → ∃ updated t', s.Rewrote w stored
              { rules := stored.map (Procedural.unusedDecayed c.procedural.unusedDecayRate), updated := updated } t') ∧
            ((∀ r ∈ stored, Procedural.InUnit r.confidence) →
              ∀ r ∈ stored.map (Procedural.unusedDecayed c.procedural.unusedDecayRate),
                Procedural.InUnit r.confidence)) := by
  have checked := load_checked loaded
  exact ⟨checked, fun s incoming w w' res ran =>
      Procedural.Store.merge_inUnit ran checked.floorLow checked.floorHigh checked.decay,
    fun s w w' n ran => Procedural.Store.decayUnused_inUnit ran⟩

theorem exists_of_toOption_map {ε α β : Type} {x : Except ε α} {f : α → β} {b : β}
    (mapped : x.toOption.map f = some b) : ∃ a, x = .ok a ∧ f a = b := by
  cases x with
  | error e => cases mapped
  | ok a => exact ⟨a, rfl, Option.some.inj mapped⟩

/-- Variables that tune procedural retention: a least confidence of 0.25, a floor of
aging at 0.1 and a rate of unused decay of 0.2. -/
def tunedRetention : Environment :=
  [("RALPH_PROCEDURAL_MIN_CONFIDENCE", "0.25"), ("RALPH_PROCEDURAL_AGE_DECAY_FLOOR", "0.1"),
   ("RALPH_PROCEDURAL_UNUSED_DECAY_RATE", "0.2")]

theorem load_bounds_rule_confidences_tuned :
    ∃ c, load ⟨[]⟩ tunedRetention "/r" "" = .ok c ∧
      c.procedural.minConfidence < 0.3 ∧ c.procedural.ageDecayFloor < 0.2 ∧ c.procedural.unusedDecayRate > 0.1 ∧
      c.Checked ∧
      (∀ (s : Procedural.Store) (incoming : List Procedural.Rule) (w w' : World) (res : Procedural.MergeResult),
        (s.merge incoming (Reflection.mergeOptions c)).run.run w = (.ok res, w') →
        ∃ stored kept t', s.Rewrote w stored { rules := kept, updated := some w.now } t' ∧
          ((∀ r ∈ stored ++ incoming, Procedural.InUnit r.confidence) → ∀ r ∈ kept, Procedural.InUnit r.confidence)) ∧
      (∀ (s : Procedural.Store) (w w' : World) (n : Nat),
        (s.decayUnused c.procedural.unusedDecayRate).run.run w = (.ok n, w') →
        0 ≤ c.procedural.unusedDecayRate ∧
          ∃ stored, n = (stored.filter (Procedural.decayChanges c.procedural.unusedDecayRate)).length ∧
            (0 < n → ∃ updated t', s.Rewrote w stored
              { rules := stored.map (Procedural.unusedDecayed c.procedural.unusedDecayRate), updated := updated } t') ∧
            ((∀ r ∈ stored, Procedural.InUnit r.confidence) →
              ∀ r ∈ stored.map (Procedural.unusedDecayed c.procedural.unusedDecayRate),
                Procedural.InUnit r.confidence)) := by
  obtain ⟨c, loaded, tuned⟩ := exists_of_toOption_map
    (show (load ⟨[]⟩ tunedRetention "/r" "").toOption.map (fun c => decide (c.procedural.minConfidence < 0.3 ∧
        c.procedural.ageDecayFloor < 0.2 ∧ c.procedural.unusedDecayRate > 0.1)) = some true by decide +kernel)
  obtain ⟨least, floor, rate⟩ := of_decide_eq_true tuned
  exact ⟨c, loaded, least, floor, rate, load_bounds_rule_confidences Libraries.standard loaded⟩

/-- The variables that set a negative rate of unused decay. -/
def negativeUnusedRate : Environment := [("RALPH_PROCEDURAL_UNUSED_DECAY_RATE", "-0.5")]

/-- The variables that set the least confidence to `NaN`. -/
def undefinedLeastConfidence : Environment := [("RALPH_PROCEDURAL_MIN_CONFIDENCE", "NaN")]

/-- Loading accepts a rate of unused decay of -0.5, which unused decay then refuses in
every store and world, and a least confidence that is `NaN`. -/
theorem loading_accepts_unusable_rates :
    (∃ c, load ⟨[]⟩ negativeUnusedRate "/r" "" = .ok c ∧ c.procedural.unusedDecayRate < 0 ∧
      ∀ (s : Procedural.Store) (w : World), ∃ msg,
        (s.decayUnused c.procedural.unusedDecayRate).run.run w = (.error ⟨.invalidDecayRate, msg⟩, w)) ∧
    ∃ c, load ⟨[]⟩ undefinedLeastConfidence "/r" "" = .ok c ∧ c.procedural.minConfidence.isNaN = true := by
  obtain ⟨c, loaded, negative⟩ := exists_of_toOption_map
    (show (load ⟨[]⟩ negativeUnusedRate "/r" "").toOption.map (fun c => decide (c.procedural.unusedDecayRate < 0)) =
      some true by decide +kernel)
  obtain ⟨c', loaded', undefined⟩ := exists_of_toOption_map
    (show (load ⟨[]⟩ undefinedLeastConfidence "/r" "").toOption.map (·.procedural.minConfidence.isNaN) =
      some true by decide +kernel)
  have below : c.procedural.unusedDecayRate < 0 := of_decide_eq_true negative
  refine ⟨⟨c, loaded, below, fun s w => Procedural.Store.decayUnused_rejected s ?_ w⟩, c', loaded', undefined⟩
  simp [below]

end Config
end AgentMemory
