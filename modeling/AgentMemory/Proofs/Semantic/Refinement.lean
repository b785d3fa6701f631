import AgentMemory.Proofs.Semantic.Runs
import AgentMemory.Proofs.Storage.Rejection
import AgentMemory.Proofs.Text.Lines

namespace AgentMemory
namespace Semantic

open Storage Disk

/-!
# The fact store refines a list of facts

The calls that change the fact store (`Call`) are run on the store, each with the clock
reading its own time (`runCalls`), and on a list of facts in memory (`Memory.run`): a write
appends the checked fact, with no category meaning `general` and importance 0 meaning 5
(`WriteRequest.defaulted`), confidence 1, both times the clock's, its own copy of the tags
and the next identifier drawn; a change sets the given fields and the update time of the first fact
with the identifier; a delete removes that fact; expiring keeps, in order, the facts whose
time to live has not passed.  A rejected call changes nothing and fails as its check
does.

Main statement: `store_refines_fact_list`.  From a store whose document is missing, every
sequence of calls answers as the list does, and afterwards the store lists, counts, finds
and searches the list's facts.  It holds as long as what is written can be read back: the
times of writes and changes have a written form, times to live are 64-bit integers, and
every document stays within the size the store reads.

Each call is shown to keep `Holds` (`Holds.run_call`), from one lemma per operation; the
run follows by induction on the calls (`Holds.run_runCalls`).

The conditions are needed.  A write at a time with no written form, such as one in the year
10000, fails and stores nothing (`Holds.run_write_unwritable`), while the list takes the
fact.  And nothing bounds what a write stores: a fact whose document is over 64 MiB is
written, and then the store cannot read its own file (`large_fact_written_uncounted`).
-/

/-- A call that changes the fact store. -/
inductive Call where
  | write (req : WriteRequest)
  | change (id : String) (req : UpdateRequest)
  | delete (id : String)
  | expire (now : Clock.Instant)

/-- What a call that changes the store answers. -/
inductive Answer where
  | written (id : String)
  | found (found : Bool)
  | removed (count : Nat)
deriving DecidableEq

/-- A call made on the store. -/
def Call.run (s : Store) : Call → Act Answer
  | .write req => Answer.written <$> s.write req
  | .change id req => Answer.found <$> s.change id req
  | .delete id => Answer.found <$> s.delete id
  | .expire now => Answer.removed <$> s.expire now

/-- Make calls in turn, each with the clock reading its own time, and collect what each
answered or why it failed. -/
def runCalls (s : Store) : List (Clock.Instant × Call) → Act (List (Except Failure Answer))
  | [] => pure []
  | (now, c) :: rest => do
    modify fun w => { w with now := now }
    let answer ← attempt (c.run s)
    let answers ← runCalls s rest
    return answer :: answers

theorem Call.run_write {s : Store} {req : WriteRequest} {w w' : World} {id : String}
    (wrote : (s.write req).run.run w = (.ok id, w')) : ((Call.write req).run s).run.run w = (.ok (.written id), w') := by
  simp only [Call.run, run_map, wrote]

theorem runCalls_single (s : Store) (now : Clock.Instant) (c : Call) {w w' : World} {a : Answer}
    (ran : (c.run s).run.run { w with now := now } = (.ok a, w')) :
    (runCalls s [(now, c)]).run.run w = (.ok [.ok a], w') := by
  simp only [runCalls, run_bind, run_modify, run_attempt, ran, run_pure]

/-! ## The list in memory -/

/-- The identifier a fact gets from the `n`-th identifier drawn. -/
def factId (n : Nat) : String := "sem-" ++ String.ofList ((uuidHex n).toList.take 12)

/-- A fact to write with its defaults filled in: no category is `general`, and importance 0
is 5. -/
def WriteRequest.defaulted (r : WriteRequest) : WriteRequest :=
  { r with category := if r.category.isEmpty then "general" else r.category,
           importance := if r.importance = 0 then defaultImportance else r.importance }

/-- The fact a write of a checked request stores. -/
def written (r : WriteRequest) (id : String) (now : Clock.Instant) : Fact :=
  { id := id, content := r.content, category := r.category, source := r.source, confidence := defaultConfidence,
    importance := r.importance, createdAt := now, updatedAt := now, ttlDays := r.ttlDays, tags := some r.tags }

/-- A fact changed as asked, at a time. -/
def UpdateRequest.apply (req : UpdateRequest) (now : Clock.Instant) (f : Fact) : Fact :=
  { f with content := req.content.getD f.content, importance := req.importance.getD f.importance, updatedAt := now }

/-- Change the first fact with an identifier. -/
def changeFirst (id : String) (g : Fact → Fact) : List Fact → List Fact
  | [] => []
  | f :: rest => if f.id = id then g f :: rest else f :: changeFirst id g rest

/-- The facts as a list in memory, with the number of identifiers drawn. -/
structure Memory where
  facts : List Fact
  drawn : Nat

/-- One call on the list, at a time. -/
def Memory.step (m : Memory) (now : Clock.Instant) : Call → Except Failure Answer × Memory
  | .write req =>
    match req.validate with
    | .error e => (.error e, m)
    | .ok _ =>
      (.ok (.written (factId (m.drawn + 1))),
        ⟨m.facts ++ [written req.defaulted (factId (m.drawn + 1)) now], m.drawn + 1⟩)
  | .change id req =>
    match req.validate with
    | .error e => (.error e, m)
    | .ok () => (.ok (.found (m.facts.any (·.id == id))), { m with facts := changeFirst id (req.apply now) m.facts })
  | .delete id => (.ok (.found (m.facts.any (·.id == id))), { m with facts := m.facts.eraseP (·.id == id) })
  | .expire time =>
    (.ok (.removed (m.facts.countP (·.expired time))), { m with facts := m.facts.filter (!·.expired time) })

/-- Calls in turn on the list, each at its own time. -/
def Memory.run (m : Memory) : List (Clock.Instant × Call) → List (Except Failure Answer) × Memory
  | [] => ([], m)
  | (now, c) :: rest =>
    let next := m.step now c
    let after := next.2.run rest
    (next.1 :: after.1, after.2)

theorem Memory.run_single (m : Memory) (now : Clock.Instant) (c : Call) :
    m.run [(now, c)] = ([(m.step now c).1], (m.step now c).2) := rfl

theorem Memory.step_write (m : Memory) (now : Clock.Instant) {req r : WriteRequest} (ok : req.validate = .ok r) :
    m.step now (.write req) = (.ok (.written (factId (m.drawn + 1))),
      ⟨m.facts ++ [written req.defaulted (factId (m.drawn + 1)) now], m.drawn + 1⟩) := by
  rw [Memory.step, ok]

/-- What a call at a time needs for what it writes to read back: a write or a change at a
time with a written form in whole minutes, and a time to live of 64 bits. -/
def Call.Writable (now : Clock.Instant) : Call → Prop
  | .write req => now.writable ∧ now.offset % 60 = 0 ∧ ∀ n ∈ req.ttlDays, Json.Fits64 n
  | .change _ _ => now.writable ∧ now.offset % 60 = 0
  | .delete _ => True
  | .expire _ => True

instance (now : Clock.Instant) : (c : Call) → Decidable (c.Writable now)
  | .write req => inferInstanceAs (Decidable (_ ∧ _ ∧ ∀ n ∈ req.ttlDays, Json.Fits64 n))
  | .change _ _ => inferInstanceAs (Decidable (_ ∧ _))
  | .delete _ => instDecidableTrue
  | .expire _ => instDecidableTrue

/-- Every call of a run can write what it computes at its time, and every list the run goes
through has a document within the size the store reads. -/
def Memory.Fits : Memory → List (Clock.Instant × Call) → Prop
  | _, [] => True
  | m, (now, c) :: rest => c.Writable now ∧ Small (m.step now c).2.facts ∧ (m.step now c).2.Fits rest

instance Memory.decidableFits : (m : Memory) → (calls : List (Clock.Instant × Call)) → Decidable (m.Fits calls)
  | _, [] => instDecidableTrue
  | m, (now, c) :: rest =>
    have : Decidable ((m.step now c).2.Fits rest) := Memory.decidableFits _ rest
    inferInstanceAs (Decidable (_ ∧ _ ∧ _))

/-! ## Checked requests -/

theorem WriteRequest.validate_ok {req r : WriteRequest} (ok : req.validate = .ok r) :
    r = req.defaulted ∧ 1 ≤ r.importance ∧ r.importance ≤ 10 := by
  simp only [WriteRequest.validate, WriteRequest.defaulted, beq_iff_eq] at ok ⊢
  generalize (if req.category.isEmpty then "general" else req.category) = category at ok ⊢
  generalize (if req.importance = 0 then defaultImportance else req.importance) = importance at ok ⊢
  -- a failed check gives an error: each check passed, and the result carries both defaults
  by_cases blank : Text.isBlankText req.content = true
  case pos => simp [blank] at ok
  by_cases known : category ∈ categories
  case neg => simp [blank, known] at ok
  by_cases outside : importance < 1 ∨ 10 < importance
  case pos => simp [blank, known, outside] at ok
  have settled : r = { req with category := category, importance := importance } := by
    cases ttl : req.ttlDays with
    | none =>
      simp [blank, known, outside, ttl] at ok
      exact ok.symm
    | some d =>
      by_cases positive : d ≤ 0 <;> simp [blank, known, outside, ttl, positive] at ok
      exact ok.symm
  subst settled
  refine ⟨rfl, ?_⟩
  dsimp only
  omega

theorem UpdateRequest.validate_ok {req : UpdateRequest} (ok : req.validate = .ok ()) :
    ∀ n ∈ req.importance, 1 ≤ n ∧ n ≤ 10 := by
  obtain ⟨content, importance⟩ := req
  rintro n (rfl : importance = some n)
  by_contra inRange
  have outside : n < 1 ∨ 10 < n := by omega
  cases content with
  | none => simp [UpdateRequest.validate, outside] at ok
  | some text =>
    by_cases blank : Text.isBlankText text = true <;> simp [UpdateRequest.validate, blank, outside] at ok

/-- A checked change at a time with a written form in whole minutes keeps a fact one that
reads back. -/
theorem Fact.Storable.apply {f : Fact} (storable : f.Storable) {req : UpdateRequest} (ok : req.validate = .ok ())
    {now : Clock.Instant} (writable : now.writable) (minutes : now.offset % 60 = 0) :
    (req.apply now f).Storable where
  createdWritable := storable.createdWritable
  createdMinutes := storable.createdMinutes
  updatedWritable := writable
  updatedMinutes := minutes
  finite := storable.finite
  whole := storable.whole
  importance := by
    cases given : req.importance with
    | none => simpa [UpdateRequest.apply, given] using storable.importance
    | some n =>
      have inRange := UpdateRequest.validate_ok ok n given
      simp only [UpdateRequest.apply, given, Option.getD_some, Json.Fits64]
      omega
  ttlDays := storable.ttlDays

/-! ## The first fact with an identifier -/

section Lists

variable (id : String)

/-- With a fact of the identifier, the store's scan stops at the first one; changing or
removing the first such fact changes or removes that one. -/
theorem span_of_any {l : List Fact} (present : l.any (·.id == id) = true) :
    ∃ before f after, l.span (·.id != id) = (before, f :: after) ∧
      (∀ g, changeFirst id g l = before ++ g f :: after) ∧ l.eraseP (·.id == id) = before ++ after := by
  induction l with
  | nil => cases present
  | cons f rest ih =>
    by_cases same : f.id = id
    · refine ⟨[], f, rest, ?_, fun g => ?_, ?_⟩
      · simp [List.span_eq_takeWhile_dropWhile, same]
      · simp [changeFirst, same]
      · simp [same]
    · have later : rest.any (·.id == id) = true := by simpa [same] using present
      obtain ⟨before, g', after, spanned, changed, erased⟩ := ih later
      refine ⟨f :: before, g', after, ?_, fun g => ?_, ?_⟩
      · rw [List.span_eq_takeWhile_dropWhile] at spanned ⊢
        simp only [Prod.mk.injEq] at spanned
        simp [same, spanned]
      · simp [changeFirst, same, changed g]
      · simp [same, erased]

theorem span_of_not_any {l : List Fact} (absent : l.any (·.id == id) = false) :
    l.span (·.id != id) = (l, []) ∧ (∀ g, changeFirst id g l = l) ∧ l.eraseP (·.id == id) = l := by
  induction l with
  | nil => exact ⟨rfl, fun _ => rfl, rfl⟩
  | cons f rest ih =>
    have other : f.id ≠ id := by
      intro same
      simp [same] at absent
    obtain ⟨spanned, changed, erased⟩ := ih (by simpa [other] using absent)
    refine ⟨?_, fun g => ?_, ?_⟩
    · rw [List.span_eq_takeWhile_dropWhile] at spanned ⊢
      simp only [Prod.mk.injEq] at spanned
      simp [other, spanned]
    · simp [changeFirst, other, changed g]
    · simp [other, erased]

end Lists

theorem mem_changeFirst {id : String} {g : Fact → Fact} {l : List Fact} {f : Fact} (mem : f ∈ changeFirst id g l) :
    f ∈ l ∨ ∃ f₀ ∈ l, f = g f₀ := by
  induction l with
  | nil => cases mem
  | cons f₀ rest ih =>
    unfold changeFirst at mem
    split at mem
    · rcases List.mem_cons.mp mem with rfl | later
      · exact Or.inr ⟨f₀, List.mem_cons_self, rfl⟩
      · exact Or.inl (List.mem_cons_of_mem _ later)
    · rcases List.mem_cons.mp mem with rfl | later
      · exact Or.inl List.mem_cons_self
      · rcases ih later with old | ⟨f₁, mem₁, rfl⟩
        · exact Or.inl (List.mem_cons_of_mem _ old)
        · exact Or.inr ⟨f₁, List.mem_cons_of_mem _ mem₁, rfl⟩

theorem countP_expired (l : List Fact) (now : Clock.Instant) :
    l.length - (l.filter (fun f => !f.expired now)).length = l.countP (·.expired now) := by
  rw [List.length_eq_countP_add_countP (·.expired now), ← List.countP_eq_length_filter]
  simp

/-! ## One call -/

section Calls

variable {s : Store} {ns : List String} {name : String} {w : World} {facts : List Fact}

/-- A checked write whose locked change went through answers the identifier it drew, and
leaves the change's world with the write's log entry. -/
theorem run_write_of_update {req r : WriteRequest} (ok : req.validate = .ok r) (quiet : w.sink = none) {t : Tree}
    (updated : ∀ {α : Type} (change : List Fact → Act (Bool × List Fact × α)) (out : α),
      change facts = pure (true, facts ++ [written req.defaulted (factId (w.drawn + 1)) w.now], out) →
      (s.update change).run.run { w with drawn := w.drawn + 1 } = (.ok out, { w with drawn := w.drawn + 1, tree := t })) :
    ∃ log, (s.write req).run.run w = (.ok (factId (w.drawn + 1)), { w with drawn := w.drawn + 1, tree := t, log := log }) := by
  obtain ⟨rfl, -⟩ := WriteRequest.validate_ok ok
  obtain ⟨log, emitted⟩ := run_emit_quiet s.log .debug "fact written"
    [.text "fact_id" (factId (w.drawn + 1)), .text "category" req.defaulted.category]
    (show ({ w with drawn := w.drawn + 1, tree := t } : World).sink = none from quiet)
  refine ⟨log, ?_⟩
  simp only [Store.write, run_bind, ok, run_pure, run_freshHex, run_clock, run_attempt]
  rw [updated _ ()]
  · -- the identifier is the one `factId` spells out
    simp only [factId] at emitted ⊢
    rw [run_bind, emitted]
    rfl
  · rfl

theorem Holds.storable_write (holds : Holds s ns w facts) {req r : WriteRequest} (ok : req.validate = .ok r)
    (writable : Call.Writable w.now (.write req)) :
    ∀ f ∈ facts ++ [written req.defaulted (factId (w.drawn + 1)) w.now], f.Storable := by
  obtain ⟨nowWritable, minutes, ttl⟩ := writable
  obtain ⟨defaulted, inRange⟩ := WriteRequest.validate_ok ok
  intro f mem
  rcases List.mem_append.mp mem with old | new
  · exact holds.storable f old
  · rw [List.mem_singleton.mp new]
    exact Fact.storable_of_written rfl nowWritable minutes rfl (defaulted ▸ inRange) ttl

theorem Holds.run_write (placed : Placed s ns name) (holds : Holds s ns w facts) {req r : WriteRequest}
    (ok : req.validate = .ok r) (writable : Call.Writable w.now (.write req))
    (small : Small (facts ++ [written req.defaulted (factId (w.drawn + 1)) w.now])) :
    ∃ w', (s.write req).run.run w = (.ok (factId (w.drawn + 1)), w') ∧ w'.now = w.now ∧ w'.drawn = w.drawn + 1 ∧
      Holds s ns w' (facts ++ [written req.defaulted (factId (w.drawn + 1)) w.now]) := by
  have drawn : Holds s ns { w with drawn := w.drawn + 1 } facts := holds.frame rfl rfl rfl
  obtain ⟨t, holds', updated⟩ :=
    drawn.run_update placed true _ (fun _ => holds.storable_write ok writable) (fun _ => small)
  rw [if_pos rfl] at holds'
  obtain ⟨log, wrote⟩ := run_write_of_update ok holds.quiet updated
  exact ⟨_, wrote, rfl, rfl, holds'.frame rfl rfl rfl⟩

/-- Nothing bounds what a write stores: a checked write whose list has a document over the
size the store reads is written all the same, and from then on the store cannot load its
own file. -/
theorem Holds.run_write_unread (placed : Placed s ns name) (holds : Holds s ns w facts) {req r : WriteRequest}
    (ok : req.validate = .ok r) (writable : Call.Writable w.now (.write req))
    (large : ¬ Small (facts ++ [written req.defaulted (factId (w.drawn + 1)) w.now])) :
    ∃ w', (s.write req).run.run w = (.ok (factId (w.drawn + 1)), w') ∧ w'.now = w.now ∧
      ∃ msg, s.load.run.run w' = (.error ⟨.documentTooLarge, msg⟩, w') := by
  have drawn : Holds s ns { w with drawn := w.drawn + 1 } facts := holds.frame rfl rfl rfl
  obtain ⟨t, dirs, -, updated⟩ := drawn.run_update_writes placed _ (holds.storable_write ok writable)
  obtain ⟨log, wrote⟩ := run_write_of_update ok holds.quiet updated
  refine ⟨_, wrote, rfl, run_load_large placed ?_ (by simp [Tree.get?_put]) (Nat.lt_of_not_le large)⟩
  rw [placed.path]
  exact dirs.put_child placed.plain placed.named _

theorem Holds.run_change (placed : Placed s ns name) (holds : Holds s ns w facts) (id : String) {req : UpdateRequest}
    (ok : req.validate = .ok ()) (writable : Call.Writable w.now (.change id req))
    (small : Small (changeFirst id (req.apply w.now) facts)) :
    ∃ w', (s.change id req).run.run w = (.ok (facts.any (·.id == id)), w') ∧ w'.now = w.now ∧ w'.drawn = w.drawn ∧
      Holds s ns w' (changeFirst id (req.apply w.now) facts) := by
  obtain ⟨nowWritable, minutes⟩ := writable
  have storable : ∀ f ∈ changeFirst id (req.apply w.now) facts, f.Storable := by
    intro f mem
    rcases mem_changeFirst mem with old | ⟨f₀, mem₀, rfl⟩
    · exact holds.storable f old
    · exact (holds.storable f₀ mem₀).apply ok nowWritable minutes
  cases present : facts.any (·.id == id) with
  | true =>
    obtain ⟨before, f, after, spanned, changed, -⟩ := span_of_any id present
    obtain ⟨t, holds', updated⟩ := holds.run_update placed true _ (fun _ => storable) (fun _ => small)
    rw [if_pos rfl] at holds'
    refine ⟨{ w with tree := t }, ?_, rfl, rfl, holds'⟩
    simp only [Store.change, ok, run_bind, run_clock, run_attempt]
    rw [updated _ true]
    · rfl
    · simp only [present, if_true, spanned, changed (req.apply w.now)]
      rfl
  | false =>
    obtain ⟨-, unchanged, -⟩ := span_of_not_any id present
    obtain ⟨t, holds', updated⟩ := holds.run_update_unchanged placed
    rw [unchanged (req.apply w.now)]
    refine ⟨{ w with tree := t }, ?_, rfl, rfl, holds'⟩
    simp only [Store.change, ok, run_bind, run_clock, run_attempt]
    rw [updated _ false]
    · rfl
    · simp [present]

theorem Holds.run_delete (placed : Placed s ns name) (holds : Holds s ns w facts) (id : String) :
    ∃ w', (s.delete id).run.run w = (.ok (facts.any (·.id == id)), w') ∧ w'.now = w.now ∧ w'.drawn = w.drawn ∧
      Holds s ns w' (facts.eraseP (·.id == id)) := by
  have small : Small (facts.eraseP (·.id == id)) := holds.small.sublist List.eraseP_sublist
  have storable : ∀ f ∈ facts.eraseP (·.id == id), f.Storable :=
    fun f mem => holds.storable f (List.mem_of_mem_eraseP mem)
  cases present : facts.any (·.id == id) with
  | true =>
    obtain ⟨before, f, after, spanned, -, erased⟩ := span_of_any id present
    obtain ⟨t, holds', updated⟩ := holds.run_update placed true _ (fun _ => storable) (fun _ => small)
    rw [if_pos rfl] at holds'
    refine ⟨{ w with tree := t }, ?_, rfl, rfl, holds'⟩
    simp only [Store.delete, run_bind, run_attempt]
    rw [updated _ true]
    · rfl
    · simp only [spanned, erased]
  | false =>
    obtain ⟨spanned, -, erased⟩ := span_of_not_any id present
    obtain ⟨t, holds', updated⟩ := holds.run_update_unchanged placed
    rw [erased]
    refine ⟨{ w with tree := t }, ?_, rfl, rfl, holds'⟩
    simp only [Store.delete, run_bind, run_attempt]
    rw [updated _ false]
    · rfl
    · simp only [spanned]

theorem Holds.run_expire (placed : Placed s ns name) (holds : Holds s ns w facts) (time : Clock.Instant) :
    ∃ w', (s.expire time).run.run w = (.ok (facts.countP (·.expired time)), w') ∧ w'.now = w.now ∧
      w'.drawn = w.drawn ∧ Holds s ns w' (facts.filter (!·.expired time)) := by
  have small : Small (facts.filter (!·.expired time)) := holds.small.sublist List.filter_sublist
  have storable : ∀ f ∈ facts.filter (!·.expired time), f.Storable :=
    fun f mem => holds.storable f (List.mem_of_mem_filter mem)
  obtain ⟨t, holds', updated⟩ := holds.run_update placed (decide (facts.countP (·.expired time) > 0)) _
    (fun _ => storable) (fun _ => small)
  have kept : (if decide (facts.countP (·.expired time) > 0) then facts.filter (!·.expired time) else facts) =
      facts.filter (!·.expired time) := by
    split
    · rfl
    · next none =>
      have unexpired : ∀ f ∈ facts, f.expired time = false := by simpa [List.countP_eq_zero] using none
      exact (List.filter_eq_self.mpr (by simpa using unexpired)).symm
  rw [kept] at holds'
  simp only [Store.expire, run_bind, run_attempt]
  rw [updated _ (facts.countP (·.expired time))]
  · dsimp only
    split
    · -- something expired, which is logged
      obtain ⟨log, emitted⟩ := run_emit_quiet s.log .info "expired facts removed"
        [.int "removed" (facts.countP (·.expired time))] holds'.quiet
      refine ⟨{ w with tree := t, log := log }, ?_, rfl, rfl, holds'.frame rfl rfl rfl⟩
      rw [run_bind, emitted]
      rfl
    · exact ⟨{ w with tree := t }, rfl, rfl, rfl, holds'⟩
  · simp only [countP_expired]

/-- A checked write at a time with no written form fails, and the store keeps its facts. -/
theorem Holds.run_write_unwritable (placed : Placed s ns name) (holds : Holds s ns w facts) {req r : WriteRequest}
    (ok : req.validate = .ok r) (late : w.now.writable = false) :
    ∃ e w', (s.write req).run.run w = (.error e, w') ∧ Holds s ns w' facts := by
  obtain ⟨rfl, -⟩ := WriteRequest.validate_ok ok
  have drawn : Holds s ns { w with drawn := w.drawn + 1 } facts := holds.frame rfl rfl rfl
  cases refused : (Store.times (facts ++ [written req.defaulted (factId (w.drawn + 1)) w.now])).findSome?
      Clock.Instant.encodingProblem? with
  | none =>
    have now := writable_of_findSome?_eq_none refused w.now (by simp [Store.times, written])
    simp [late] at now
  | some problem =>
    obtain ⟨t, holds', updated⟩ := drawn.run_update_refused placed _ refused
    refine ⟨(encodeFailure s.path problem).within "writing fact", { w with drawn := w.drawn + 1, tree := t }, ?_,
      holds'.frame rfl rfl rfl⟩
    simp only [Store.write, run_bind, ok, run_pure, run_freshHex, run_clock, run_attempt]
    rw [updated _ ()]
    · rfl
    · rfl

/-- A call keeps the relation: the store answers as the list does, and afterwards stands for
the list's facts, having drawn as many identifiers. -/
theorem Holds.run_call (placed : Placed s ns name) {m : Memory} (holds : Holds s ns w m.facts)
    (drawn : w.drawn = m.drawn) {c : Call} (writable : c.Writable w.now) (small : Small (m.step w.now c).2.facts) :
    ∃ w', (attempt (c.run s)).run.run w = (.ok (m.step w.now c).1, w') ∧ w'.now = w.now ∧
      w'.drawn = (m.step w.now c).2.drawn ∧ Holds s ns w' (m.step w.now c).2.facts := by
  obtain ⟨facts, n⟩ := m
  subst drawn
  cases c with
  | write req =>
    cases checked : req.validate with
    | error e =>
      simp only [Memory.step, checked]
      refine ⟨w, ?_, rfl, rfl, holds⟩
      simp only [Call.run, run_attempt, run_map, Store.write, run_bind, checked]
      rfl
    | ok r =>
      simp only [Memory.step, checked] at small ⊢
      obtain ⟨w', ran, now, drawn, holds'⟩ := holds.run_write placed checked writable small
      exact ⟨w', by simp only [Call.run, run_attempt, run_map, ran], now, drawn, holds'⟩
  | change id req =>
    cases checked : req.validate with
    | error e =>
      simp only [Memory.step, checked]
      refine ⟨w, ?_, rfl, rfl, holds⟩
      simp only [Call.run, run_attempt, run_map, Store.change, run_bind, checked]
      rfl
    | ok u =>
      cases u
      simp only [Memory.step, checked] at small ⊢
      obtain ⟨w', ran, now, drawn, holds'⟩ := holds.run_change placed id checked writable small
      exact ⟨w', by simp only [Call.run, run_attempt, run_map, ran], now, drawn, holds'⟩
  | delete id =>
    obtain ⟨w', ran, now, drawn, holds'⟩ := holds.run_delete placed id
    exact ⟨w', by simp only [Call.run, Memory.step, run_attempt, run_map, ran], now, drawn, holds'⟩
  | expire time =>
    obtain ⟨w', ran, now, drawn, holds'⟩ := holds.run_expire placed time
    exact ⟨w', by simp only [Call.run, Memory.step, run_attempt, run_map, ran], now, drawn, holds'⟩

/-- A run of calls keeps the relation, call after call. -/
theorem Holds.run_runCalls (placed : Placed s ns name) (calls : List (Clock.Instant × Call)) {m : Memory}
    (holds : Holds s ns w m.facts) (drawn : w.drawn = m.drawn) (fits : m.Fits calls) :
    ∃ w', (runCalls s calls).run.run w = (.ok (m.run calls).1, w') ∧ w'.drawn = (m.run calls).2.drawn ∧
      Holds s ns w' (m.run calls).2.facts := by
  induction calls generalizing m w with
  | nil => exact ⟨w, rfl, drawn, holds⟩
  | cons call rest ih =>
    obtain ⟨now, c⟩ := call
    obtain ⟨writable, small, fits⟩ := fits
    have timed : Holds s ns { w with now := now } m.facts := holds.frame rfl rfl rfl
    obtain ⟨w₁, ran, -, drawn₁, holds₁⟩ := timed.run_call placed drawn writable small
    obtain ⟨w₂, ranRest, drawn₂, holds₂⟩ := ih holds₁ drawn₁ fits
    refine ⟨w₂, ?_, drawn₂, holds₂⟩
    simp only [runCalls, Memory.run, run_bind, run_modify, ran, ranRest, run_pure]

/-- From a store whose document is missing, a run of calls answers as the list in memory
does, and afterwards the store lists, counts, finds and searches the list's facts; this
holds as long as every call can write what it computes and every document fits. -/
theorem store_refines_fact_list (placed : Placed s ns name) (dirs : w.tree.DirsTo ns)
    (missing : w.tree.get? s.path = none) (lock : w.tree.get? (lockPath s.path) ≠ some .dir)
    (free : w.held.contains s.path = false) (quiet : w.sink = none) (calls : List (Clock.Instant × Call))
    (fits : (⟨[], w.drawn⟩ : Memory).Fits calls) :
    ∃ w', (runCalls s calls).run.run w = (.ok ((⟨[], w.drawn⟩ : Memory).run calls).1, w') ∧
      let facts := ((⟨[], w.drawn⟩ : Memory).run calls).2.facts
      s.list.run.run w' = (.ok facts, w') ∧ s.count.run.run w' = (.ok facts.length, w') ∧
      (∀ id, (s.get id).run.run w' = (.ok (facts.find? (·.id == id)), w')) ∧
      ∀ query limit, ∃ ranking, RanksByImportance (facts.filter (Matches query)) ranking ∧
        (s.search query limit).run.run w' = (.ok (ranking.take (if limit ≤ 0 then 10 else limit.toNat)), w') := by
  have start : Holds s ns w [] := ⟨dirs, lock, free, quiet, Or.inl ⟨missing, rfl⟩,
    fun _ mem => absurd mem List.not_mem_nil, by decide +kernel⟩
  obtain ⟨w', ran, -, holds⟩ := start.run_runCalls placed calls rfl fits
  exact ⟨w', ran, holds.run_list placed, holds.run_count placed, holds.run_get placed, holds.run_search placed⟩

end Calls

namespace Refinement

/-- A fact store at `/m/semantic.json`. -/
def factStore : Store := { path := "/m/semantic.json" }

def morning : Clock.Instant := Clock.Instant.ofCivil 2025 1 15 12 0 0

def evening : Clock.Instant := Clock.Instant.ofCivil 2025 1 15 18 0 0

/-- A world where the store's directory exists and its document does not. -/
def fresh : World := { tree := ⟨[("/", .dir), ("/m", .dir)]⟩, now := morning }

/-- A write, a rejected write, a change of the written fact, an expiry that finds nothing
to remove, and a delete of an unknown fact. -/
def session : List (Clock.Instant × Call) :=
  [(morning, .write { content := "deploys go out on fridays", importance := 7, tags := ["ops"] }),
   (morning, .write { content := " " }),
   (evening, .change "sem-010101010101" { importance := some 9 }),
   (evening, .expire evening),
   (evening, .delete "sem-missing")]

theorem factStore_placed : Placed factStore ["m"] "semantic.json" := ⟨by decide, by decide, by cbv⟩

theorem fresh_dirs : fresh.tree.DirsTo ["m"] := by
  intro i le
  simp only [List.length_cons, List.length_nil, zero_add] at le
  interval_cases i <;> cbv

end Refinement

open Refinement in
/-- The session on the fresh world answers as the list does, and leaves one fact. -/
theorem store_refines_fact_list_session :
    (⟨[], 0⟩ : Memory).Fits session ∧
      ((⟨[], 0⟩ : Memory).run session).1 = [.ok (.written "sem-010101010101"),
        .error ⟨.emptyContent, "fact content cannot be empty"⟩, .ok (.found true), .ok (.removed 0),
        .ok (.found false)] ∧
      ∃ w', (runCalls factStore session).run.run fresh = (.ok ((⟨[], 0⟩ : Memory).run session).1, w') ∧
        factStore.count.run.run w' = (.ok 1, w') := by
  have fits : (⟨[], 0⟩ : Memory).Fits session := by decide +kernel
  obtain ⟨w', ran, -, counted, -⟩ :=
    store_refines_fact_list factStore_placed fresh_dirs (by cbv) (by cbv; simp) rfl rfl session fits
  have one : ((⟨[], 0⟩ : Memory).run session).2.facts.length = 1 := by decide +kernel
  exact ⟨fits, by decide +kernel, w', ran, one ▸ counted⟩

namespace Refinement

/-- A content of `<` repeated one more time than a sixth of the largest document: each is
written as a six-character escape, so a document holding it is too large to read. -/
def markup : String := String.ofList (List.replicate (maxDocumentBytes / 6 + 1) '<')

theorem isBlankText_markup : Text.isBlankText markup = false := by
  simp [Text.isBlankText, markup, List.all_replicate, Text.isBlank]

theorem validate_markup :
    ({ content := markup } : WriteRequest).validate = .ok ({ content := markup } : WriteRequest).defaulted := by
  simp only [WriteRequest.validate, isBlankText_markup, Bool.false_eq_true, if_false]
  rfl

theorem large_of_markup {facts : List Fact} {f : Fact} (mem : f ∈ facts) (content : f.content = markup) :
    ¬ Small facts := by
  have escaped : (Json.quote .document markup).length = (maxDocumentBytes / 6 + 1) * 6 + 2 := by
    rw [markup, Json.length_quote_replicate]
    rfl
  rw [Small, Nat.not_le]
  calc maxDocumentBytes < (Json.quote .document markup).length := by rw [escaped]; omega
    _ = (Json.quote .document f.content).toList.length := by rw [content, String.length_toList]
    _ ≤ (documentText (Store.document facts)).toList.length := (Store.infix_content mem).length_le
    _ = (documentText (Store.document facts)).length := String.length_toList
    _ ≤ (documentText (Store.document facts)).utf8ByteSize := Text.length_le_utf8ByteSize _

end Refinement

open Refinement in
/-- A fact whose document is over 64 MiB is written, in the list and by the store, but the
store can then no longer read its file: counting fails where the list counts one fact. -/
theorem large_fact_written_uncounted :
    ((⟨[], 0⟩ : Memory).run [(morning, .write { content := markup })]).1 = [.ok (.written "sem-010101010101")] ∧
      ((⟨[], 0⟩ : Memory).run [(morning, .write { content := markup })]).2.facts.length = 1 ∧
      ∃ w', (runCalls factStore [(morning, .write { content := markup })]).run.run fresh =
          (.ok [.ok (.written "sem-010101010101")], w') ∧
        ∃ msg, factStore.count.run.run w' = (.error ⟨.documentTooLarge, msg⟩, w') := by
  have start : Holds factStore ["m"] { fresh with now := morning } [] :=
    ⟨fresh_dirs, by cbv; simp, rfl, rfl, Or.inl ⟨by cbv, rfl⟩, fun _ mem => absurd mem List.not_mem_nil,
      by decide +kernel⟩
  obtain ⟨w', wrote, -, msg, loaded⟩ := start.run_write_unread factStore_placed validate_markup (by decide)
    (large_of_markup (List.mem_append_right _ (List.mem_singleton_self _)) rfl)
  -- the identifier is spelled out before anything meets the content, which is never evaluated
  have named : factId ({ fresh with now := morning }.drawn + 1) = "sem-010101010101" := by decide
  have first : factId ((⟨[], 0⟩ : Memory).drawn + 1) = "sem-010101010101" := by decide
  rw [named] at wrote
  have answered := Memory.step_write ⟨[], 0⟩ morning validate_markup
  refine ⟨?_, ?_, w', runCalls_single factStore morning _ (Call.run_write wrote), msg, ?_⟩
  · rw [Memory.run_single, answered, first]
  · rw [Memory.run_single, answered]
    rfl
  · simp only [Store.count, run_bind, loaded]

end Semantic
end AgentMemory
