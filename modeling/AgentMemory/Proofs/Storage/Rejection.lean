import AgentMemory.Proofs.Storage.Files
import AgentMemory.Proofs.Episodic.Layout
import AgentMemory.Semantic.Store
import AgentMemory.Procedural.Store
import AgentMemory.Episodic.Store

namespace AgentMemory

open Storage

/-!
# Rejected requests change nothing

Each store checks a request before it touches anything: a fact to write or change, a rule
to write, a decay rate, an episode.  The checks are made in a fixed order and the first
that fails names the cause of the failure (`firstFailed`).  The statements here say that a
rejected request fails with that cause and leaves the world as it was: no document is
read or written, no lock is taken, nothing is logged and no identifier is drawn.

An episode is the exception in two ways.  It draws its identifier, when it has none, as
soon as its task is known not to be blank, so an episode rejected for its identifier or
its importance has drawn one.  And whether its identifier is already indexed is known only
under the lock of the index, once the index is read; such an episode fails after doing
exactly what reading the index under its lock does, which writes back a migration or a
repair of the index and nothing else (`Episodic.Store.write_duplicate`).
-/

/-- The cause of the first of a list of checks, made in order, that fails; each check is
the cause it reports and whether it passed. -/
def firstFailed (checks : List (Cause × Bool)) : Option Cause :=
  (checks.find? (fun check => !check.2)).map Prod.fst

@[simp] theorem firstFailed_nil : firstFailed [] = none := rfl

@[simp] theorem firstFailed_pass (c : Cause) (rest : List (Cause × Bool)) :
    firstFailed ((c, true) :: rest) = firstFailed rest := by
  simp [firstFailed]

@[simp] theorem firstFailed_fail (c : Cause) (rest : List (Cause × Bool)) :
    firstFailed ((c, false) :: rest) = some c := by
  simp [firstFailed]

@[simp] theorem except_throw {ε α : Type} (e : ε) : (throw e : Except ε α) = .error e := rfl

@[simp] theorem except_error_bind {ε α β : Type} (e : ε) (f : α → Except ε β) :
    (Except.error e >>= f : Except ε β) = .error e := rfl

namespace Semantic

/-- The checks of a fact to write, in order: its content is not blank, its category is
known (none meaning `general`), its importance lies in 1..10 (0 meaning 5), and a time to
live is positive. -/
def WriteRequest.checks (r : WriteRequest) : List (Cause × Bool) :=
  [(.emptyContent, !Text.isBlankText r.content),
   (.invalidCategory, categories.contains (if r.category.isEmpty then "general" else r.category)),
   (.invalidImportance,
     let i := if r.importance = 0 then defaultImportance else r.importance
     decide (1 ≤ i ∧ i ≤ 10)),
   (.invalidTtl, r.ttlDays.all (0 < ·))]

theorem WriteRequest.validate_rejected {r : WriteRequest} {c : Cause} (rejected : firstFailed r.checks = some c) :
    ∃ msg, r.validate = .error ⟨c, msg⟩ := by
  simp only [WriteRequest.checks] at rejected
  simp only [WriteRequest.validate, beq_iff_eq]
  generalize (if r.category.isEmpty then "general" else r.category) = category at rejected ⊢
  generalize (if r.importance = 0 then defaultImportance else r.importance) = importance at rejected ⊢
  -- one case for each check, in the order they are made: the ones before it passed
  by_cases blank : Text.isBlankText r.content = true
  case pos =>
    obtain rfl : c = .emptyContent := by simpa [blank] using rejected.symm
    exact ⟨"fact content cannot be empty", by simp [blank]⟩
  by_cases known : category ∈ categories
  case neg =>
    obtain rfl : c = .invalidCategory := by simpa [blank, known] using rejected.symm
    exact ⟨"invalid fact category: " ++ Text.quote category, by simp [blank, known]⟩
  by_cases inRange : 1 ≤ importance ∧ importance ≤ 10
  case neg =>
    obtain rfl : c = .invalidImportance := by simpa [blank, known, inRange] using rejected.symm
    have outside : importance < 1 ∨ 10 < importance := by omega
    exact ⟨"importance must be between 1 and 10: got " ++ toString importance, by simp [blank, known, outside]⟩
  cases ttl : r.ttlDays with
  | none => simp [blank, known, inRange, ttl] at rejected
  | some d =>
    by_cases positive : 0 < d
    case pos => simp [blank, known, inRange, ttl, positive] at rejected
    obtain rfl : c = .invalidTtl := by simpa [blank, known, inRange, ttl, positive] using rejected.symm
    have within : ¬ (importance < 1 ∨ 10 < importance) := by omega
    exact ⟨"ttl_days must be positive: got " ++ toString d, by simp [blank, known, within, Int.not_lt.mp positive]⟩

/-- The checks of a change of a fact, in order: new content is not blank, and a new
importance lies in 1..10. -/
def UpdateRequest.checks (r : UpdateRequest) : List (Cause × Bool) :=
  [(.emptyContent, r.content.all (!Text.isBlankText ·)),
   (.invalidImportance, r.importance.all (fun n => decide (1 ≤ n ∧ n ≤ 10)))]

theorem UpdateRequest.importance_rejected {importance : Option Int} {c : Cause}
    (rejected : firstFailed [(.invalidImportance, importance.all (fun n => decide (1 ≤ n ∧ n ≤ 10)))] = some c) :
    ∃ n, importance = some n ∧ (n < 1 ∨ 10 < n) ∧ c = .invalidImportance := by
  cases importance with
  | none => simp at rejected
  | some n =>
    simp only [Option.all_some] at rejected
    by_cases inRange : 1 ≤ n ∧ n ≤ 10
    case pos => simp [inRange] at rejected
    rw [decide_eq_false inRange, firstFailed_fail, Option.some.injEq] at rejected
    exact ⟨n, rfl, by omega, rejected.symm⟩

theorem UpdateRequest.validate_rejected {r : UpdateRequest} {c : Cause} (rejected : firstFailed r.checks = some c) :
    ∃ msg, r.validate = .error ⟨c, msg⟩ := by
  obtain ⟨content, importance⟩ := r
  simp only [UpdateRequest.checks] at rejected
  -- the new content is checked first; past it, only a new importance can fail
  cases content with
  | some text =>
    by_cases blank : Text.isBlankText text = true
    case pos =>
      obtain rfl : c = .emptyContent := by simpa [blank] using rejected.symm
      exact ⟨"fact content cannot be empty", by simp [UpdateRequest.validate, blank]⟩
    obtain ⟨n, rfl, outside, rfl⟩ := UpdateRequest.importance_rejected (by simpa [blank] using rejected)
    exact ⟨"importance must be between 1 and 10: got " ++ toString n, by simp [UpdateRequest.validate, blank, outside]⟩
  | none =>
    obtain ⟨n, rfl, outside, rfl⟩ := UpdateRequest.importance_rejected (by simpa using rejected)
    exact ⟨"importance must be between 1 and 10: got " ++ toString n, by simp [UpdateRequest.validate, outside]⟩

/-- A fact that fails its checks is not written: the write fails with the cause of the
first failed check and leaves the world as it was, with no identifier drawn. -/
theorem Store.write_rejected (s : Store) {req : WriteRequest} {c : Cause}
    (rejected : firstFailed req.checks = some c) (w : World) :
    ∃ msg, (s.write req).run.run w = (.error ⟨c, msg⟩, w) := by
  obtain ⟨msg, invalid⟩ := req.validate_rejected rejected
  exact ⟨msg, by simp only [Store.write, run_bind, invalid]; rfl⟩

/-- A change that fails its checks changes no fact: it fails with the cause of the first
failed check and leaves the world as it was. -/
theorem Store.change_rejected (s : Store) (id : String) {req : UpdateRequest} {c : Cause}
    (rejected : firstFailed req.checks = some c) (w : World) :
    ∃ msg, (s.change id req).run.run w = (.error ⟨c, msg⟩, w) := by
  obtain ⟨msg, invalid⟩ := req.validate_rejected rejected
  exact ⟨msg, by simp only [Store.change, run_bind, invalid]; rfl⟩

end Semantic

namespace Procedural

/-- The checks of a rule to write, in order: its trigger and its behavior are not blank,
and its confidence (0 meaning 0.8) is neither outside [0, 1] nor NaN. -/
def WriteRequest.checks (r : WriteRequest) : List (Cause × Bool) :=
  [(.emptyTrigger, !(Text.trimBlank r.trigger).isEmpty),
   (.emptyBehavior, !(Text.trimBlank r.behavior).isEmpty),
   (.invalidConfidence,
     let c := if r.confidence == 0 then defaultConfidence else r.confidence
     !(c < 0 || c > 1 || c.isNaN))]

theorem WriteRequest.validate_rejected {r : WriteRequest} {c : Cause} (rejected : firstFailed r.checks = some c) :
    ∃ msg, r.validate = .error ⟨c, msg⟩ := by
  simp only [WriteRequest.checks] at rejected
  simp only [WriteRequest.validate]
  generalize (if r.confidence == 0 then defaultConfidence else r.confidence) = confidence at rejected ⊢
  -- one case for each check, in the order they are made: the ones before it passed
  by_cases trigger : (Text.trimBlank r.trigger).isEmpty = true
  case pos =>
    obtain rfl : c = .emptyTrigger := by simpa [trigger] using rejected.symm
    exact ⟨"rule trigger cannot be empty", by simp [trigger]⟩
  by_cases behavior : (Text.trimBlank r.behavior).isEmpty = true
  case pos =>
    obtain rfl : c = .emptyBehavior := by simpa [trigger, behavior] using rejected.symm
    exact ⟨"rule behavior cannot be empty", by simp [trigger, behavior]⟩
  generalize (confidence < 0 || confidence > 1 || confidence.isNaN) = outside at rejected ⊢
  cases outside
  case false => simp [trigger, behavior] at rejected
  obtain rfl : c = .invalidConfidence := by simpa [trigger, behavior] using rejected.symm
  exact ⟨"confidence must be between 0.0 and 1.0", by simp [trigger, behavior]⟩

/-- A rule that fails its checks is not written: the write fails with the cause of the
first failed check and leaves the world as it was, with no identifier drawn. -/
theorem Store.write_rejected (s : Store) {req : WriteRequest} {c : Cause}
    (rejected : firstFailed req.checks = some c) (w : World) :
    ∃ msg, (s.write req).run.run w = (.error ⟨c, msg⟩, w) := by
  obtain ⟨msg, invalid⟩ := req.validate_rejected rejected
  exact ⟨msg, by simp only [Store.write, run_bind, invalid]; rfl⟩

/-- A negative or NaN rate decays nothing: the request fails as an invalid rate and leaves
the world as it was. -/
theorem Store.decayUnused_rejected (s : Store) {rate : Float} (invalid : (rate < 0 || rate.isNaN) = true)
    (w : World) : ∃ msg, (s.decayUnused rate).run.run w = (.error ⟨.invalidDecayRate, msg⟩, w) := by
  simp only [Store.decayUnused, invalid, if_true, run_bind, run_fail]
  exact ⟨_, rfl⟩

end Procedural

namespace Episodic

/-- The episode with its time and identifier at the time `now` once `n` identifiers have
been drawn: the identifier is its own, or one made from its time and the next identifier
drawn. -/
def Episode.identified (ep : Episode) (now : Clock.Instant) (n : Nat) : Episode :=
  let e := Store.stamp ep now
  if e.id.isEmpty then { e with id := freshId e.timestamp (String.ofList ((uuidHex (n + 1)).toList.take 6)) }
  else e

/-- Preparing an episode draws an identifier: it has none and its task is not blank. -/
def Episode.draws (ep : Episode) : Bool := !Text.isBlankText ep.task && ep.id.isEmpty

/-- The checks of an episode to write, in order, at the time `now` once `n` identifiers have
been drawn: its task is not blank, its identifier (drawn when it has none) is valid, and
its importance lies in 1..10 (0 meaning 5). -/
def Episode.checks (ep : Episode) (now : Clock.Instant) (n : Nat) : List (Cause × Bool) :=
  [(.emptyTask, !Text.isBlankText ep.task),
   (.invalidEpisodeId, validId (ep.identified now n).id),
   (.invalidImportance,
     let i := if ep.importance = 0 then defaultImportance else ep.importance
     decide (1 ≤ i ∧ i ≤ 10))]

theorem Store.run_identify (ep : Episode) (w : World) :
    (Store.identify ep).run.run w =
      if ep.id.isEmpty then
        (.ok { ep with id := freshId ep.timestamp (String.ofList ((uuidHex (w.drawn + 1)).toList.take 6)) },
          { w with drawn := w.drawn + 1 })
      else (.ok ep, w) := by
  unfold Store.identify
  split <;> rfl

theorem Store.run_prepare (ep : Episode) (w : World) :
    (Store.prepare ep).run.run w =
      if Text.isBlankText ep.task then (.error ⟨.emptyTask, "episode task cannot be empty"⟩, w)
      else
        let w' := if ep.id.isEmpty then { w with drawn := w.drawn + 1 } else w
        let id := (ep.identified w.now w.drawn).id
        let ep' := Store.withImportance (ep.identified w.now w.drawn)
        if !validId id then (.error ⟨.invalidEpisodeId, invalidIdMessage ++ ": " ++ Text.quote id⟩, w')
        else if ep'.importance < 1 || ep'.importance > 10 then
          (.error ⟨.invalidImportance, "importance must be between 1 and 10: got " ++ toString ep'.importance⟩, w')
        else (.ok ep', w') := by
  unfold Store.prepare
  by_cases blank : Text.isBlankText ep.task = true
  · simp only [blank, if_true, run_fail]
  simp only [blank, Bool.false_eq_true, if_false, run_bind, run_clock, Store.run_identify]
  have stamped : (Store.stamp ep w.now).id = ep.id := rfl
  by_cases fresh : ep.id.isEmpty = true
  · simp only [stamped, fresh, if_true, Episode.identified]
    split_ifs <;> rfl
  · simp only [stamped, fresh, Bool.false_eq_true, if_false, Episode.identified]
    split_ifs <;> rfl

theorem importance_withImportance (e : Episode) :
    (Store.withImportance e).importance = if e.importance = 0 then defaultImportance else e.importance := by
  unfold Store.withImportance
  by_cases zero : e.importance = 0 <;> simp [zero]

theorem Episode.importance_identified (ep : Episode) (now : Clock.Instant) (n : Nat) :
    (ep.identified now n).importance = ep.importance := by
  unfold Episode.identified
  dsimp only
  split <;> rfl

/-- An episode that fails its checks is refused before anything is stored, with the cause
of the first failed check; the only change to the world is the identifier drawn for an
episode that had none and whose task is not blank. -/
theorem Store.prepare_rejected {ep : Episode} {c : Cause} {w : World}
    (rejected : firstFailed (ep.checks w.now w.drawn) = some c) :
    ∃ msg, (Store.prepare ep).run.run w =
      (.error ⟨c, msg⟩, if ep.draws then { w with drawn := w.drawn + 1 } else w) := by
  rw [Store.run_prepare]
  unfold Episode.checks at rejected
  by_cases blank : Text.isBlankText ep.task = true
  · simp only [blank, Bool.not_true, firstFailed_fail, Option.some.injEq] at rejected
    subst rejected
    simp only [blank, if_true, Episode.draws, Bool.not_true, Bool.false_and, Bool.false_eq_true, if_false]
    exact ⟨_, rfl⟩
  simp only [Bool.not_eq_true] at blank
  simp only [blank, Bool.not_false, firstFailed_pass] at rejected
  simp only [blank, Bool.false_eq_true, if_false, Episode.draws, Bool.not_false, Bool.true_and,
    importance_withImportance, Episode.importance_identified]
  by_cases valid : validId (ep.identified w.now w.drawn).id = true
  swap
  · simp only [Bool.not_eq_true] at valid
    simp only [valid, firstFailed_fail, Option.some.injEq] at rejected
    subst rejected
    simp only [valid, Bool.not_false, if_true]
    exact ⟨_, rfl⟩
  simp only [valid, firstFailed_pass] at rejected
  simp only [valid, Bool.not_true, Bool.false_eq_true, if_false]
  generalize (if ep.importance = 0 then defaultImportance else ep.importance) = i at rejected ⊢
  by_cases inRange : 1 ≤ i ∧ i ≤ 10
  · simp [inRange] at rejected
  · simp only [inRange, decide_false, firstFailed_fail, Option.some.injEq] at rejected
    subst rejected
    have outside : (decide (i < 1) || decide (i > 10)) = true := by
      simp only [Bool.or_eq_true, decide_eq_true_eq]
      omega
    simp only [outside, if_true]
    exact ⟨_, rfl⟩

/-- An episode that fails its checks is not stored: the write fails with the cause of the
first failed check, and the only change to the world is the identifier drawn for an
episode that had none and whose task is not blank. -/
theorem Store.write_rejected (s : Store) {ep : Episode} {c : Cause} {w : World}
    (rejected : firstFailed (ep.checks w.now w.drawn) = some c) :
    ∃ msg, (s.write ep).run.run w =
      (.error ⟨c, msg⟩, if ep.draws then { w with drawn := w.drawn + 1 } else w) := by
  obtain ⟨msg, refused⟩ := Store.prepare_rejected rejected
  exact ⟨msg, by rw [Store.write, run_bind, refused]⟩

/-- The index as the store reads it under its lock: a migration or repair it needs is
written back, and nothing else changes. -/
def Store.lockedIndex (s : Store) : Act Index := s.update fun idx => pure (false, idx, idx)

/-- A locked change that refuses the index it reads, doing nothing, leaves the world as
reading the index under its lock does, and fails. -/
theorem Store.update_refused (s : Store) {α : Type} {change : Index → Act (Bool × Index × α)} (e : Failure)
    {w w' : World} {idx : Index} (read : s.lockedIndex.run.run w = (.ok idx, w'))
    (refuses : ∀ v, (change idx).run.run v = (.error e, v)) :
    (s.update change).run.run w = (.error e, w') := by
  unfold Store.lockedIndex Store.update at *
  rw [run_withLock_body] at read ⊢
  rcases locked : (withLock s.indexPath (pure ())).run.run w with ⟨_ | _, w₀⟩
  · rw [locked] at read
    cases read
  rw [locked] at read
  dsimp only at read ⊢
  rw [run_bind] at read ⊢
  rcases loaded : s.readIndex.run.run w₀ with ⟨_ | ⟨idx₀, needsWrite⟩, w₁⟩
  · rw [loaded] at read
    cases read
  rw [loaded] at read
  dsimp only at read ⊢
  rw [run_bind, run_attempt] at read ⊢
  cases needsWrite with
  | false =>
    simp only [run_pure, Bool.or_false, Bool.false_eq_true, if_false] at read
    obtain ⟨rfl, rfl⟩ := read
    simp only [refuses, Bool.false_eq_true, if_false, run_fail]
  | true =>
    simp only [run_pure, Bool.or_true, if_true, run_bind, Bool.false_eq_true, if_false] at read
    rcases wrote : (s.writeIndex idx₀).run.run w₁ with ⟨_ | _, w₂⟩
    · rw [wrote] at read
      cases read
    rw [wrote] at read
    simp only at read
    obtain ⟨rfl, rfl⟩ := read
    simp only [refuses, if_true, run_bind, wrote, run_fail]

/-- Where the lock of the index stands already and no one holds it, and the index is on
disk as its own document passing the check of the invariant, reading it under its lock
gives it and changes nothing. -/
theorem Store.run_lockedIndex_stored (s : Store) {w : World} {idx : Index}
    (made : w.tree.mkdirAll (Disk.parent s.indexPath) = .ok w.tree) {d : Disk.FileData}
    (lockFile : w.tree.get? (lockPath s.indexPath) = some (.file d)) (free : w.held.contains s.indexPath = false)
    (file : fetch w.tree s.indexPath = .ok (some (documentText idx.toJson))) (storable : idx.Storable)
    (consistent : idx.consistent = true) :
    s.lockedIndex.run.run w = (.ok idx, w) := by
  rw [Store.lockedIndex, Store.update, run_withLock_standing made lockFile free, run_bind,
    Store.run_readIndex_stored s w file storable consistent]
  simp only [run_bind, run_attempt, run_pure, Bool.or_false, Bool.false_eq_true, if_false]

/-- An episode that passes its checks is prepared: its time, identifier and importance are
filled in, and an identifier is drawn if it had none. -/
theorem Store.prepare_passes {ep : Episode} {w : World} (passes : firstFailed (ep.checks w.now w.drawn) = none) :
    (Store.prepare ep).run.run w =
      (.ok (Store.withImportance (ep.identified w.now w.drawn)),
        if ep.draws then { w with drawn := w.drawn + 1 } else w) := by
  rw [Store.run_prepare]
  unfold Episode.checks at passes
  by_cases blank : Text.isBlankText ep.task = true
  · simp [blank] at passes
  by_cases valid : validId (ep.identified w.now w.drawn).id = true
  swap
  · simp [blank, valid] at passes
  have inRange : 1 ≤ (if ep.importance = 0 then defaultImportance else ep.importance) ∧
      (if ep.importance = 0 then defaultImportance else ep.importance) ≤ 10 := by
    by_contra outside
    simp [blank, valid, outside] at passes
  have within : (decide ((if ep.importance = 0 then defaultImportance else ep.importance) < 1) ||
      decide ((if ep.importance = 0 then defaultImportance else ep.importance) > 10)) = false := by
    simp only [Bool.or_eq_false_iff, decide_eq_false_iff_not]
    omega
  simp only [Bool.not_eq_true] at blank
  simp only [blank, Bool.false_eq_true, if_false, valid, Bool.not_true, importance_withImportance,
    Episode.importance_identified, within, Episode.draws, Bool.not_false, Bool.true_and]

theorem id_withImportance (e : Episode) : (Store.withImportance e).id = e.id := by
  unfold Store.withImportance
  split <;> rfl

/-- An episode that passes its checks, but whose identifier the index read under its lock
already holds, is not stored: the write fails after doing what reading the index under
its lock does, which writes back a migration or a repair of the index and nothing else. -/
theorem Store.write_duplicate (s : Store) {ep : Episode} {w w' : World} {idx : Index}
    (passes : firstFailed (ep.checks w.now w.drawn) = none)
    (read : s.lockedIndex.run.run (if ep.draws then { w with drawn := w.drawn + 1 } else w) = (.ok idx, w'))
    (indexed : (idx.find? (ep.identified w.now w.drawn).id).isSome) :
    (s.write ep).run.run w =
      (.error ((Failure.plain ("episode " ++ (ep.identified w.now w.drawn).id ++ " already exists")).within
        "writing episode"), w') := by
  rw [Store.write, run_bind, Store.prepare_passes passes]
  dsimp only
  rw [run_bind, run_attempt,
    Store.update_refused s (Failure.plain ("episode " ++ (ep.identified w.now w.drawn).id ++ " already exists")) read]
  · simp only [run_fail]
  · intro v
    simp only [Store.fileEpisode, id_withImportance, indexed, if_true, run_bind, run_fail]

end Episodic

/-- A rejected request changes nothing.  A fact to write or change, a rule to write and an
episode fail with the cause of the first check they fail, in the order the checks are made;
a negative or NaN decay rate fails as such.  None of them changes the world, except that an
episode without an identifier whose task is not blank has drawn one.  An episode whose
identifier is already indexed fails after doing exactly what reading the index under its
lock does. -/
theorem rejected_requests_change_nothing :
    (∀ (s : Semantic.Store) (req : Semantic.WriteRequest) (c : Cause) (w : World),
      firstFailed req.checks = some c → ∃ msg, (s.write req).run.run w = (.error ⟨c, msg⟩, w)) ∧
    (∀ (s : Semantic.Store) (id : String) (req : Semantic.UpdateRequest) (c : Cause) (w : World),
      firstFailed req.checks = some c → ∃ msg, (s.change id req).run.run w = (.error ⟨c, msg⟩, w)) ∧
    (∀ (s : Procedural.Store) (req : Procedural.WriteRequest) (c : Cause) (w : World),
      firstFailed req.checks = some c → ∃ msg, (s.write req).run.run w = (.error ⟨c, msg⟩, w)) ∧
    (∀ (s : Procedural.Store) (rate : Float) (w : World), (rate < 0 || rate.isNaN) = true →
      ∃ msg, (s.decayUnused rate).run.run w = (.error ⟨.invalidDecayRate, msg⟩, w)) ∧
    (∀ (s : Episodic.Store) (ep : Episodic.Episode) (c : Cause) (w : World),
      firstFailed (ep.checks w.now w.drawn) = some c →
      ∃ msg, (s.write ep).run.run w = (.error ⟨c, msg⟩, if ep.draws then { w with drawn := w.drawn + 1 } else w)) ∧
    (∀ (s : Episodic.Store) (ep : Episodic.Episode) (w w' : World) (idx : Episodic.Index),
      firstFailed (ep.checks w.now w.drawn) = none →
      s.lockedIndex.run.run (if ep.draws then { w with drawn := w.drawn + 1 } else w) = (.ok idx, w') →
      (idx.find? (ep.identified w.now w.drawn).id).isSome →
      (s.write ep).run.run w =
        (.error ((Failure.plain ("episode " ++ (ep.identified w.now w.drawn).id ++ " already exists")).within
          "writing episode"), w')) :=
  ⟨fun s _ _ w rejected => s.write_rejected rejected w,
   fun s id _ _ w rejected => s.change_rejected id rejected w,
   fun s _ _ w rejected => s.write_rejected rejected w,
   fun s _ w invalid => s.decayUnused_rejected invalid w,
   fun s _ _ _ rejected => s.write_rejected rejected,
   fun s _ _ _ _ passes read indexed => s.write_duplicate passes read indexed⟩

namespace Rejection

/-- An episode store at `/m`. -/
def episodes : Episodic.Store := { dir := "/m" }

/-- An episode of 2024 with its own identifier. -/
def known : Episodic.Episode := { id := "ep-1", task := "deploy", timestamp := Clock.Instant.ofCivil 2024 1 1 0 0 0 }

/-- The index holding `known` alone. -/
def stored : Episodic.Index := ({} : Episodic.Index).add (Episodic.Store.withImportance known).summary

/-- A world where the index of `episodes` is `stored` and its lock stands free. -/
def indexed : World :=
  { tree := ⟨[("/", .dir), ("/m", .dir), ("/m/index.json", .file ⟨documentText stored.toJson, 0⟩),
      ("/m/index.json.lock", .file ⟨"", 0⟩)]⟩,
    now := Clock.Instant.ofCivil 2025 1 15 12 0 0 }

theorem stored_storable : stored.Storable := by
  have exact : stored.Exact := Episodic.Index.exact_empty.add (by decide +kernel)
  refine ⟨fun sum mem => ?_, exact.tagKeys, exact.projectKeys⟩
  simp only [stored, Episodic.Index.add, List.nil_append, List.mem_singleton] at mem
  subst mem
  exact ⟨by decide +kernel, by decide +kernel, by decide +kernel⟩

theorem stored_read : episodes.lockedIndex.run.run indexed = (.ok stored, indexed) := by
  have plain : ∀ n ∈ ["m"], Disk.Plain n := by decide
  have dirs : indexed.tree.DirsTo ["m"] := by
    intro i le
    simp only [List.length_cons, List.length_nil, zero_add] at le
    interval_cases i <;> cbv
  -- the document is read through the lemmas of the tree: evaluating it whole is too deep
  have found : indexed.tree.get? (Disk.pathOf (["m"] ++ ["index.json"])) =
      some (.file ⟨documentText stored.toJson, 0⟩) := by
    have key : Disk.pathOf (["m"] ++ ["index.json"]) = "/m/index.json" := by cbv
    rw [key]
    simp [Disk.Tree.get?, indexed]
  have file : fetch indexed.tree episodes.indexPath = .ok (some (documentText stored.toJson)) := by
    rw [Episodic.Store.indexPath_eq plain (by cbv), fetch_of_get?_file plain (by decide) dirs found,
      if_neg (by decide +kernel), contents_of_text]
  exact Episodic.Store.run_lockedIndex_stored episodes (by cbv) (by cbv) rfl file stored_storable
    (Episodic.Index.exact_empty.add (by decide +kernel)).consistent

end Rejection

/-- Each kind of rejection at a concrete request: a blank fact, an importance of 11 for a
change of a fact, a rule confidence of 1.5, a negative decay rate, an episode of importance
11 without an identifier, which draws one, and an episode whose identifier the index
already holds. -/
theorem rejected_requests_change_nothing_cases :
    (firstFailed ({ content := " " } : Semantic.WriteRequest).checks = some .emptyContent ∧
      ∃ msg, ((default : Semantic.Store).write { content := " " }).run.run Rejection.indexed =
        (.error ⟨.emptyContent, msg⟩, Rejection.indexed)) ∧
    (firstFailed ({ importance := some 11 } : Semantic.UpdateRequest).checks = some .invalidImportance ∧
      ∃ msg, ((default : Semantic.Store).change "sem-1" { importance := some 11 }).run.run Rejection.indexed =
        (.error ⟨.invalidImportance, msg⟩, Rejection.indexed)) ∧
    (firstFailed ({ trigger := "t", behavior := "b", confidence := 1.5 } : Procedural.WriteRequest).checks =
        some .invalidConfidence ∧
      ∃ msg, ((default : Procedural.Store).write { trigger := "t", behavior := "b", confidence := 1.5 }).run.run
        Rejection.indexed = (.error ⟨.invalidConfidence, msg⟩, Rejection.indexed)) ∧
    ((-1 < 0 || (-1 : Float).isNaN) = true ∧
      ∃ msg, ((default : Procedural.Store).decayUnused (-1)).run.run Rejection.indexed =
        (.error ⟨.invalidDecayRate, msg⟩, Rejection.indexed)) ∧
    (firstFailed (({ task := "deploy", importance := 11 } : Episodic.Episode).checks Rejection.indexed.now
        Rejection.indexed.drawn) = some .invalidImportance ∧
      ∃ msg, (Rejection.episodes.write { task := "deploy", importance := 11 }).run.run Rejection.indexed =
        (.error ⟨.invalidImportance, msg⟩, { Rejection.indexed with drawn := Rejection.indexed.drawn + 1 })) ∧
    (firstFailed (Rejection.known.checks Rejection.indexed.now Rejection.indexed.drawn) = none ∧
      Rejection.episodes.lockedIndex.run.run Rejection.indexed = (.ok Rejection.stored, Rejection.indexed) ∧
      (Rejection.stored.find? "ep-1").isSome ∧
      (Rejection.episodes.write Rejection.known).run.run Rejection.indexed =
        (.error ((Failure.plain "episode ep-1 already exists").within "writing episode"), Rejection.indexed)) := by
  obtain ⟨semWrite, semChange, ruleWrite, decay, episodeWrite, duplicate⟩ := rejected_requests_change_nothing
  have blank : firstFailed ({ content := " " } : Semantic.WriteRequest).checks = some .emptyContent := by
    decide +kernel
  have tooImportant : firstFailed ({ importance := some 11 } : Semantic.UpdateRequest).checks =
      some .invalidImportance := by decide +kernel
  have tooConfident : firstFailed ({ trigger := "t", behavior := "b", confidence := 1.5 } :
      Procedural.WriteRequest).checks = some .invalidConfidence := by decide +kernel
  have negative : ((-1 : Float) < 0 || (-1 : Float).isNaN) = true := by decide +kernel
  have episodeTooImportant : firstFailed (({ task := "deploy", importance := 11 } : Episodic.Episode).checks
      Rejection.indexed.now Rejection.indexed.drawn) = some .invalidImportance := by decide +kernel
  have draws : ({ task := "deploy", importance := 11 } : Episodic.Episode).draws = true := by decide +kernel
  have passes : firstFailed (Rejection.known.checks Rejection.indexed.now Rejection.indexed.drawn) = none := by
    decide +kernel
  have keeps : Rejection.known.draws = false := by decide +kernel
  have sameId : (Rejection.known.identified Rejection.indexed.now Rejection.indexed.drawn).id = "ep-1" := by
    decide +kernel
  have found : (Rejection.stored.find? "ep-1").isSome := by decide +kernel
  have drawn := episodeWrite Rejection.episodes _ _ _ episodeTooImportant
  rw [if_pos draws] at drawn
  have refused := duplicate Rejection.episodes Rejection.known Rejection.indexed Rejection.indexed Rejection.stored
    passes (by rw [keeps]; exact Rejection.stored_read) (by rw [sameId]; exact found)
  rw [sameId] at refused
  exact ⟨⟨blank, semWrite _ _ _ _ blank⟩, ⟨tooImportant, semChange _ _ _ _ _ tooImportant⟩,
    ⟨tooConfident, ruleWrite _ _ _ _ tooConfident⟩, ⟨negative, decay _ _ _ negative⟩,
    ⟨episodeTooImportant, drawn⟩, ⟨passes, Rejection.stored_read, found, refused⟩⟩

end AgentMemory
