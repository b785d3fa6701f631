import AgentMemory.Proofs.Procedural.Merge
import AgentMemory.Proofs.Procedural.RoundTrip

namespace AgentMemory
namespace Procedural

open Storage Disk Json

/-!
# Locked updates of the rule document

Every change of the stored rules goes through `Store.update`: the lock of the document
is taken, the document is read, the change runs on what it held, and the document it
returns is written if the change asks for it.  `Store.run_update_ok` takes a run that
succeeded apart into these steps, so the operations built on it are proved from what
their change does, never by unfolding the lock again.

A merge is such an update, then one log entry.  `Store.merge_retention` says what a
merge that succeeded has written: the rules `retain` keeps of the stored ones and the
incoming ones, with what `Retained` says of them when the stored identifiers were
distinct.
-/

theorem RuleDocument.encode_ok {d : RuleDocument} {j : Json} (ok : d.encode = .ok j) : j = d.toJson := by
  unfold RuleDocument.encode at ok
  split at ok <;> cases ok
  rfl

theorem RuleDocument.encode_of_writable {d : RuleDocument}
    (rules : ∀ r ∈ d.rules, ∀ t ∈ r.instants, t.writable = true) (updated : ∀ t ∈ d.updated, t.writable = true) :
    d.encode = .ok d.toJson := by
  have ruleTimes : d.rules.findSome? (fun r => r.instants.findSome? Clock.Instant.encodingProblem?) = none := by
    rw [List.findSome?_eq_none_iff]
    intro r mem
    exact findSome?_encodingProblem_eq_none (rules r mem)
  have updatedTime : d.updated.bind Clock.Instant.encodingProblem? = none := by
    cases stamped : d.updated with
    | none => rfl
    | some t => simpa [Clock.Instant.writable] using updated t stamped
  unfold RuleDocument.encode
  rw [ruleTimes, updatedTime]

theorem RuleDocument.spelled_toJson {d : RuleDocument} (extras : ∀ r ∈ d.rules, ∀ kv ∈ r.extra, Spelled kv.2) :
    Spelled d.toJson := by
  refine (fieldsSpelled_iff _).mpr fun kv mem => ?_
  rcases List.mem_append.mp mem with rules | updated
  · rw [List.mem_singleton.mp rules]
    exact (itemsSpelled_iff _).mpr fun j mem => by
      obtain ⟨r, rule, rfl⟩ := List.mem_map.mp mem
      exact Rule.spelled_toJson (extras r rule)
  · cases stamped : d.updated with
    | none => simp [stamped] at updated
    | some t =>
      simp only [stamped, List.mem_singleton] at updated
      rw [updated]
      trivial

/-- A rule document with no extras, whose rules were read from documents and whose times
have written forms in UTC, reads back from its document form as itself. -/
theorem RuleDocument.read_toJson {d : RuleDocument} (rules : ∀ r ∈ d.rules, r.Readable ∧ r.Writable ∧ r.extra = [])
    (updated : ∀ t ∈ d.updated, t.writable = true ∧ t.offset = 0) : RuleDocument.read d.toJson = .ok d := by
  have each : ∀ r ∈ d.rules, (Rule.read r.toJson).mapError Failure.stopping = .ok r := by
    intro r mem
    obtain ⟨readable, writable, noExtra⟩ := rules r mem
    obtain ⟨extra, back, perm⟩ := Rule.read_toJson readable writable
    rw [noExtra, List.perm_nil] at perm
    rw [back, perm, ← noExtra]
    rfl
  have list := @readList_map Rule (fun x => (Rule.read x).mapError Failure.stopping) Rule.toJson
    "[]procedural.Rule" d.rules each
  obtain ⟨rs, stamp⟩ := d
  unfold RuleDocument.read RuleDocument.toJson
  rw [List.singleton_append, readRecord_cons (s := { rules := rs }) rfl (by simp only [list, Except.map, Option.getD_some])]
  cases stamp with
  | none => exact readRecord_nil _ _ _
  | some t =>
    obtain ⟨writable, utc⟩ := updated t rfl
    refine (readRecord_cons (s := { rules := rs, updated := some t }) rfl ?_).trans (readRecord_nil _ _ _)
    simp only [readInstant_rfc3339 writable (by rw [utc]; rfl), Except.map]

namespace Store

variable {α : Type}

/-- A locked update that succeeded: under the lock the document was read, the change ran
on what it held (an empty document if there was none), and what the change returned was
written when it asked for it. -/
theorem run_update_ok {s : Store} {change : RuleDocument → Act (Bool × RuleDocument × α)} {w w' : World}
    {out : α} (ran : (s.update change).run.run w = (.ok out, w')) :
    ∃ t d changed doc w₁, Locked w.tree s.path t ∧
      (readJson s.path RuleDocument.read).run.run { w with tree := t } = (.ok d, { w with tree := t }) ∧
      (change (d.getD {})).run.run { w with tree := t } = (.ok (changed, doc, out), w₁) ∧
      (if changed then (writeEncoded s.path doc.encode).run.run w₁ = (.ok (), w') else w₁ = w') := by
  obtain ⟨t, locked, body⟩ := run_withLock_ok ran
  obtain ⟨d, w₀, read, rest⟩ := run_bind_ok body
  have unchanged : w₀ = { w with tree := t } := by
    simpa [read] using run_readJson_world s.path RuleDocument.read { w with tree := t }
  subst unchanged
  obtain ⟨⟨changed, doc, out'⟩, w₁, changed_run, rest⟩ := run_bind_ok rest
  refine ⟨t, d, changed, doc, w₁, locked, read, ?_⟩
  dsimp only at rest
  cases changed with
  | false =>
    simp only [Bool.false_eq_true, if_false, run_pure] at rest
    obtain ⟨rfl, rfl⟩ := rest
    exact ⟨changed_run, rfl⟩
  | true =>
    simp only [if_true] at rest
    obtain ⟨u, w₂, wrote, finished⟩ := run_bind_ok rest
    simp only [run_pure] at finished
    obtain ⟨rfl, rfl⟩ := finished
    exact ⟨changed_run, wrote⟩

/-- A locked rewrite of the rule document: under its lock, reading the document gave the
stored rules, and the new document replaced it. -/
def Rewrote (s : Store) (w : World) (stored : List Rule) (doc : RuleDocument) (t' : Tree) : Prop :=
  ∃ t d, Locked w.tree s.path t ∧
    (readJson s.path RuleDocument.read).run.run { w with tree := t } = (.ok d, { w with tree := t }) ∧
    (d.getD {}).rules = stored ∧ t.replaceFile s.path (documentText doc.toJson) = .ok t'

/-- A merge that succeeded rewrote the document with the rules `retain` keeps at the time
of the clock, reported what `retain` counts, and then wrote one log entry. -/
theorem merge_rewrites {s : Store} {incoming : List Rule} {opts : MergeOptions} {w w' : World}
    {res : MergeResult} (ran : (s.merge incoming opts).run.run w = (.ok res, w')) :
    ∃ stored t', s.Rewrote w stored { rules := (retain w.now opts stored incoming).1, updated := some w.now } t' ∧
      res = (retain w.now opts stored incoming).2 ∧
      ∃ fields, w' = ((emit s.log .info "procedural rules merged" fields).run.run { w with tree := t' }).2 := by
  unfold merge at ran
  obtain ⟨now, w₀, clocked, rest⟩ := run_bind_ok ran
  simp only [clock, run_bind, run_get, run_pure] at clocked
  obtain ⟨rfl, rfl⟩ := clocked
  obtain ⟨r, w₁, attempted, rest⟩ := run_bind_ok rest
  rw [run_attempt] at attempted
  split at attempted
  · rename_i res₀ w₂ updated
    cases attempted
    obtain ⟨u, w₃, emitted, returned⟩ := run_bind_ok rest
    simp only [run_pure] at returned
    obtain ⟨rfl, rfl⟩ := returned
    obtain ⟨t, d, changed, doc, w₄, locked, read, changed_run, wrote⟩ := run_update_ok updated
    rcases kept : retain w.now opts (d.getD {}).rules incoming with ⟨keptRules, result⟩
    simp only [kept, run_pure] at changed_run
    obtain ⟨⟨rfl, rfl, rfl⟩, rfl⟩ := changed_run
    obtain ⟨j, t', encoded, replaced, rfl⟩ := run_writeEncoded_ok wrote
    rw [RuleDocument.encode_ok encoded] at replaced
    exact ⟨(d.getD {}).rules, t', ⟨t, d, locked, read, rfl, by rw [kept]; exact replaced⟩, by rw [kept],
      _, (congrArg Prod.snd emitted).symm⟩
  · cases attempted
    cases rest

/-- A merge that succeeded, with a cap of at least one rule, wrote the document of the
rules kept of the stored and the incoming ones, as `Retained` says when the stored
identifiers were distinct. -/
theorem merge_retention (s : Store) (incoming : List Rule) (opts : MergeOptions) (cap : 1 ≤ opts.maxRules)
    {w w' : World} {res : MergeResult} (ran : (s.merge incoming opts).run.run w = (.ok res, w')) :
    ∃ stored kept t', s.Rewrote w stored { rules := kept, updated := some w.now } t' ∧
      (∃ fields, w' = ((emit s.log .info "procedural rules merged" fields).run.run { w with tree := t' }).2) ∧
      ((stored.map Rule.id).Nodup → Retained w.now opts stored incoming kept res) := by
  obtain ⟨stored, t', rewrote, rfl, logged⟩ := merge_rewrites ran
  exact ⟨stored, _, t', rewrote, logged, fun distinct => retain_retained w.now opts distinct incoming cap⟩

/-- A merge under a lock that stands free, where the document reads as `d`, the kept
rules have written forms and the file can be replaced, succeeds: it reports what `retain`
counts and leaves the document of the kept rules, with one log entry. -/
theorem merge_of_read (s : Store) (incoming : List Rule) (opts : MergeOptions) {w : World} {d : RuleDocument}
    {fd : FileData} {t' : Tree} (made : w.tree.mkdirAll (parent s.path) = .ok w.tree)
    (lockFile : w.tree.get? (lockPath s.path) = some (.file fd)) (free : w.held.contains s.path = false)
    (quiet : w.sink = none) (read : (readJson s.path RuleDocument.read).run.run w = (.ok (some d), w))
    (writable : ∀ r ∈ (retain w.now opts d.rules incoming).1, ∀ t ∈ r.instants, t.writable = true)
    (nowWritable : w.now.writable = true)
    (replaced : w.tree.replaceFile s.path
      (documentText ({ rules := (retain w.now opts d.rules incoming).1, updated := some w.now } : RuleDocument).toJson) =
        .ok t') :
    ∃ log, (s.merge incoming opts).run.run w =
      (.ok (retain w.now opts d.rules incoming).2, { w with tree := t', log := log }) := by
  have encoded := RuleDocument.encode_of_writable
    (d := { rules := (retain w.now opts d.rules incoming).1, updated := some w.now }) writable fun t mem => by
      simp only [Option.mem_def, Option.some.injEq] at mem
      exact mem ▸ nowWritable
  rcases kept : retain w.now opts d.rules incoming with ⟨rules, result⟩
  rw [kept] at encoded replaced
  obtain ⟨log, emitted⟩ := run_emit_quiet s.log .info "procedural rules merged"
    [.int "added" result.added, .int "replaced" result.replaced, .int "dropped" result.dropped, .int "total" result.total]
    (show ({ w with tree := t' } : World).sink = none from quiet)
  refine ⟨log, ?_⟩
  simp only [merge, update, run_bind, run_clock, run_attempt, run_withLock_standing made lockFile free, read,
    Option.getD_some, kept, run_pure, if_true, encoded, writeEncoded, writeJson, run_writeText, replaced, emitted]

end Store

/-- A rule store at `/m/rules.json`. -/
def rulesStore : Store := { path := "/m/rules.json" }

/-- Three stored rules: one created two months before, one two days before and applied four
times, one three days before. -/
def storedRules : RuleDocument :=
  { rules :=
      [ { id := "r-lint", trigger := "lint", behavior := "run the linter", confidence := 0.9,
          createdAt := Clock.Instant.ofCivil 2024 1 1 0 0 0 },
        { id := "r-tests", trigger := "test", behavior := "run the tests", confidence := 0.8,
          createdAt := Clock.Instant.ofCivil 2024 2 28 0 0 0, timesApplied := 4 },
        { id := "r-style", trigger := "style", behavior := "keep the style", confidence := 0.75,
          createdAt := Clock.Instant.ofCivil 2024 2 27 0 0 0 } ],
    updated := some (Clock.Instant.ofCivil 2024 2 28 0 0 0) }

/-- The store holding them, with the lock file of the document, on the 1st of March 2024. -/
def rulesWorld : World :=
  { tree := ⟨[("/", .dir), ("/m", .dir), ("/m/rules.json", .file ⟨documentText storedRules.toJson, 0⟩),
      ("/m/rules.json.lock", .file ⟨"", 0⟩)]⟩,
    now := Clock.Instant.ofCivil 2024 3 1 0 0 0 }

/-- A more confident version of the tests rule, and a new rule. -/
def incomingRules : List Rule :=
  [ { id := "r-tests", trigger := "test", behavior := "run the tests first", confidence := 0.95 },
    { id := "r-docs", trigger := "docs", behavior := "update the docs", confidence := 0.85 } ]

/-- A weekly decay of 0.05 down to 0.3, rules under 0.7 dropped, at most two kept. -/
def keepTwo : MergeOptions := { decayPerWeek := 0.05, ageFloor := 0.3, minConfidence := 0.7, maxRules := 2 }

theorem storedRules_readable : ∀ r ∈ storedRules.rules, r.Readable ∧ r.Writable ∧ r.extra = [] := by
  intro r mem
  simp only [storedRules, List.mem_cons, List.not_mem_nil, or_false] at mem
  rcases mem with rfl | rfl | rfl <;>
    refine ⟨⟨?_, ?_, ?_, rfl, nofun, nofun, List.nodup_nil, nofun⟩, ⟨fun _ => ?_, nofun, nofun⟩, rfl⟩ <;>
    decide +kernel

/-- Merging into the stored rules: the tests rule is replaced by its more confident version,
the lint rule has aged under the least confidence and is dropped, and of the three rules
left the two most confident are kept. -/
theorem merge_retention_history :
    1 ≤ keepTwo.maxRules ∧
      ∃ w', (rulesStore.merge incomingRules keepTwo).run.run rulesWorld =
          (.ok { added := 1, replaced := 1, dropped := 2, total := 2 }, w') ∧
        ∃ stored kept t', rulesStore.Rewrote rulesWorld stored { rules := kept, updated := some rulesWorld.now } t' ∧
          (∃ fields, w' = ((emit rulesStore.log .info "procedural rules merged" fields).run.run
            { rulesWorld with tree := t' }).2) ∧
          ((stored.map Rule.id).Nodup → Retained rulesWorld.now keepTwo stored incomingRules kept
            { added := 1, replaced := 1, dropped := 2, total := 2 }) := by
  have cap : 1 ≤ keepTwo.maxRules := by decide
  have plain : ∀ n ∈ ["m"], Plain n := by decide
  have path : rulesStore.path = pathOf (["m"] ++ ["rules.json"]) := by cbv
  have dirs : rulesWorld.tree.DirsTo ["m"] := by
    intro i le
    simp only [List.length_cons, List.length_nil, zero_add] at le
    -- looked up by `simp`, which never evaluates the document the file holds
    interval_cases i <;> simp [pathOf, rulesWorld, Tree.get?]
  have made : rulesWorld.tree.mkdirAll (parent rulesStore.path) = .ok rulesWorld.tree := by
    rw [path, parent_pathOf plain (by decide), Tree.mkdirAll_of_dirsTo plain dirs]
  have lockFile : rulesWorld.tree.get? (lockPath rulesStore.path) = some (.file ⟨"", 0⟩) := by
    simp [lockPath, rulesStore, rulesWorld, Tree.get?]
  have file : fetch rulesWorld.tree rulesStore.path = .ok (some (documentText storedRules.toJson)) := by
    decide +kernel
  have read := readJson_documentText
    (RuleDocument.spelled_toJson fun r mem kv extra => by rw [(storedRules_readable r mem).2.2] at extra; cases extra)
    file (RuleDocument.read_toJson storedRules_readable fun _ stamped => by cases stamped; decide +kernel)
  have candidatesWritable : ∀ r ∈ candidates rulesWorld.now keepTwo (mergeIncoming rulesWorld.now storedRules.rules
      incomingRules).1, ∀ t ∈ r.instants, t.writable = true := by decide +kernel
  have notDir : rulesWorld.tree.get? (pathOf (["m"] ++ ["rules.json"])) ≠ some .dir := by
    simp [pathOf, rulesWorld, Tree.get?]
  obtain ⟨log, ran⟩ := Store.merge_of_read rulesStore incomingRules keepTwo made lockFile rfl rfl read
    (fun r mem => candidatesWritable r (mem_candidates_of_mem_retain mem)) (by decide +kernel)
    (path ▸ Tree.replaceFile_child plain (by decide) dirs notDir _)
  have counts : (retain rulesWorld.now keepTwo storedRules.rules incomingRules).2 =
      { added := 1, replaced := 1, dropped := 2, total := 2 } := by
    rw [retain_snd]
    decide +kernel
  rw [counts] at ran
  exact ⟨cap, _, ran, Store.merge_retention rulesStore incomingRules keepTwo cap ran⟩

end Procedural
end AgentMemory
