import AgentMemory.Proofs.Semantic.Refinement
import AgentMemory.Proofs.Clock.Days

namespace AgentMemory
namespace Semantic

open Storage Disk Json

/-!
# Expiry counted exactly

A fact with a time to live of `n` days expires once its creation time plus `n` days has
passed.  The program takes that span in 64-bit nanoseconds: `n` times 24, then times an
hour, each product wrapping (`Clock.daysSpan`).  While the span fits 64 bits it is `n × 24 h`
counted exactly, so a fact has expired at `now` exactly when `now` is past its exact
deadline (`Fact.expired_eq_lapsed`), and expiring the store removes exactly those facts,
keeps the others in their order and answers how many it removed
(`Holds.expire_removes_lapsed`).

The span fits for times to live of up to 106751 days, some 292 years.  One day more and
it wraps to about 292 years backwards: a fact written with a time to live of 106752 days
has expired the moment it is written, and the first expiry removes it
(`long_ttl_expires_when_written`).
-/

/-- A fact's time to live, taken in days of exactly 24 hours, has passed at `now`. -/
def Fact.lapsed (f : Fact) (now : Clock.Instant) : Bool :=
  match f.ttlDays with
  | none => false
  | some days => f.createdAt.nanos + days * 24 * Clock.hour < now.nanos

/-- The fact's time to live, as a span of nanoseconds, fits 64 bits. -/
def Fact.SpanFits (f : Fact) : Prop := ∀ n ∈ f.ttlDays, Fits64 (n * 24 * Clock.hour)

instance : DecidablePred Fact.SpanFits :=
  fun f => inferInstanceAs (Decidable (∀ n ∈ f.ttlDays, Fits64 (n * 24 * Clock.hour)))

/-- While its span fits 64 bits, a time to live ends at its exact deadline. -/
theorem Fact.expired_eq_lapsed (f : Fact) (now : Clock.Instant) (fits : f.SpanFits) :
    f.expired now = f.lapsed now := by
  unfold Fact.expired Fact.lapsed
  cases ttl : f.ttlDays with
  | none => rfl
  | some days =>
    dsimp only
    rw [Clock.daysSpan_of_fits (fits days ttl)]
    rfl

/-! ## Expiring the store -/

section Expiry

variable {s : Store} {ns : List String} {name : String} {w : World} {facts : List Fact}

/-- With every time to live within the 64-bit span, expiring removes exactly the facts
whose exact deadline has passed, keeps the others in order, and answers how many it
removed. -/
theorem Holds.expire_removes_lapsed (placed : Placed s ns name) (holds : Holds s ns w facts)
    (time : Clock.Instant) (spans : ∀ f ∈ facts, f.SpanFits) :
    ∃ w', (s.expire time).run.run w = (.ok (facts.countP (·.lapsed time)), w') ∧
      Holds s ns w' (facts.filter (!·.lapsed time)) := by
  have same : ∀ f ∈ facts, f.expired time = f.lapsed time :=
    fun f mem => f.expired_eq_lapsed time (spans f mem)
  have kept : facts.filter (!·.expired time) = facts.filter (!·.lapsed time) :=
    List.filter_congr fun f mem => by rw [same f mem]
  have removed : facts.countP (·.expired time) = facts.countP (·.lapsed time) :=
    List.countP_congr fun f mem => by rw [same f mem]
  obtain ⟨w', ran, -, -, holds'⟩ := holds.run_expire placed time
  exact ⟨w', removed ▸ ran, kept ▸ holds'⟩

end Expiry

namespace Refinement

/-- A fact to keep for thirty days. -/
def monthRequest : WriteRequest := { content := "x", ttlDays := some 30 }

/-- A fact to keep for sixty days. -/
def twoMonthRequest : WriteRequest := { content := "y", ttlDays := some 60 }

/-- Thirty-one days after `morning`. -/
def nextMonth : Clock.Instant := Clock.Instant.ofCivil 2025 2 15 12 0 0

/-- A fact to keep for 106752 days, one day past the longest span of 64 bits. -/
def longRequest : WriteRequest := { content := "x", ttlDays := some 106752 }

theorem start_at (now : Clock.Instant) : Holds factStore ["m"] { fresh with now := now } [] :=
  ⟨fresh_dirs, by cbv; simp, rfl, rfl, Or.inl ⟨by cbv, rfl⟩, fun _ mem => absurd mem List.not_mem_nil,
    by decide +kernel⟩

end Refinement

open Refinement in
/-- Of two facts written together, the one kept for thirty days is removed a month later
and the one kept for sixty days stays. -/
theorem expire_removes_lapsed_month :
    ∃ w, Holds factStore ["m"] w
        [written monthRequest.defaulted (factId 1) morning, written twoMonthRequest.defaulted (factId 2) morning] ∧
      (∀ f ∈ [written monthRequest.defaulted (factId 1) morning, written twoMonthRequest.defaulted (factId 2) morning],
        f.SpanFits) ∧
      ∃ w', (factStore.expire nextMonth).run.run w = (.ok 1, w') ∧
        Holds factStore ["m"] w' [written twoMonthRequest.defaulted (factId 2) morning] := by
  have ok₁ : monthRequest.validate = .ok monthRequest.defaulted := rfl
  have ok₂ : twoMonthRequest.validate = .ok twoMonthRequest.defaulted := rfl
  obtain ⟨w₁, -, now₁, drawn₁, holds₁⟩ := (start_at morning).run_write factStore_placed ok₁ (by decide +kernel)
    (by decide +kernel)
  have writable : Call.Writable w₁.now (.write twoMonthRequest) := by
    rw [now₁]
    decide +kernel
  have small : Small ([written monthRequest.defaulted (factId 1) morning] ++
      [written twoMonthRequest.defaulted (factId (w₁.drawn + 1)) w₁.now]) := by
    rw [now₁, drawn₁]
    decide +kernel
  obtain ⟨w, -, -, -, holds⟩ := holds₁.run_write factStore_placed ok₂ writable small
  rw [now₁, drawn₁] at holds
  have spans : ∀ f ∈ [written monthRequest.defaulted (factId 1) morning,
      written twoMonthRequest.defaulted (factId 2) morning], f.SpanFits := by decide +kernel
  obtain ⟨w', ran, holds'⟩ := holds.expire_removes_lapsed factStore_placed nextMonth spans
  have gone : (written monthRequest.defaulted (factId 1) morning).lapsed nextMonth = true := by decide +kernel
  have stays : (written twoMonthRequest.defaulted (factId 2) morning).lapsed nextMonth = false := by decide +kernel
  have one : [written monthRequest.defaulted (factId 1) morning,
      written twoMonthRequest.defaulted (factId 2) morning].countP (·.lapsed nextMonth) = 1 := by simp [gone, stays]
  have kept : [written monthRequest.defaulted (factId 1) morning,
      written twoMonthRequest.defaulted (factId 2) morning].filter (!·.lapsed nextMonth) =
      [written twoMonthRequest.defaulted (factId 2) morning] := by simp [gone, stays]
  exact ⟨w, holds, spans, w', one ▸ ran, kept ▸ holds'⟩

open Refinement in
/-- A time to live of 106752 days wraps around: its exact deadline lies 292 years ahead, yet
an expiry at the moment of the write removes the fact. -/
theorem long_ttl_expires_when_written :
    (written longRequest.defaulted (factId 1) morning).lapsed morning = false ∧
      ∃ w', (runCalls factStore [(morning, .write longRequest), (morning, .expire morning)]).run.run fresh =
        (.ok [.ok (.written (factId 1)), .ok (.removed 1)], w') := by
  have ok : longRequest.validate = .ok longRequest.defaulted := rfl
  obtain ⟨w, wrote, -, -, holds⟩ := (start_at morning).run_write factStore_placed ok (by decide +kernel)
    (by decide +kernel)
  have timed : Holds factStore ["m"] { w with now := morning } [written longRequest.defaulted (factId 1) morning] :=
    holds.frame rfl rfl rfl
  obtain ⟨w', expired, -, -, -⟩ := timed.run_expire factStore_placed morning
  have one : [written longRequest.defaulted (factId 1) morning].countP (·.expired morning) = 1 := by decide +kernel
  refine ⟨by decide +kernel, w', ?_⟩
  simp only [runCalls, run_bind, run_modify, run_attempt, Call.run, run_map, wrote, expired, one, run_pure]
  rfl

end Semantic
end AgentMemory
