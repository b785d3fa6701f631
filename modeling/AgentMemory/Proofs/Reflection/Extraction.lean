import AgentMemory.Proofs.Storage.Rejection
import AgentMemory.Proofs.Episodic.Writes
import AgentMemory.Proofs.Episodic.Retrieval
import AgentMemory.Proofs.Secrets.Redaction
import AgentMemory.Reflection.Executor

namespace AgentMemory

/-!
# What an extraction stores

An extraction reads a transcript, takes a task, decisions, lessons and paths from its text
(`Transcript.Extractor.runOn`), and has the episode store write an episode built from them
(`Executor.buildEpisode`).  The texts that carry what the transcript said, the task, each
decision factor and each learning, are stored as the scrubber leaves them.

Main statement: `extract_stores_scrubbed_texts`.  Whenever an extraction succeeds, the
episode it returns, which is the one the episode store wrote, holds the scrubbed task,
decisions and lessons of the transcript it read, in order (`Extracted`); and while the
loggers keep their files apart from the store, its body on disk afterwards is the document
of that episode.

Scrubbing once does not make a text clean: a redaction can complete a secret that the
scrubber then finds in the scrubbed text.  With a bearer-token rule and a password rule,
the task `pwd=bearer ab` is stored as `pwd=[REDACTED]`, a password to the same scrubber
(`scrubbed_task_keeps_a_secret`).  The concrete run behind it needs a transcript read as
plain text, which rests on splitting a text without line feeds (`Text.splitOn_of_not_mem`).
-/

/-! ## Texts without a separator

Splitting walks the text by byte positions.  Where the separator's first character never
occurs, no position matches it, and the text comes back whole.
-/

namespace Text

open String

/-- Reading a character at a byte position gives a character of the text, or the default
character where none starts. -/
theorem utf8GetAux_mem_or_default (cs : List Char) (i p : Pos.Raw) :
    Pos.Raw.utf8GetAux cs i p ∈ cs ∨ Pos.Raw.utf8GetAux cs i p = default := by
  induction cs generalizing i with
  | nil => exact Or.inr rfl
  | cons c cs ih =>
    unfold Pos.Raw.utf8GetAux
    split
    · exact Or.inl List.mem_cons_self
    · rcases ih (i + c) with mem | missing
      · exact Or.inl (List.mem_cons_of_mem c mem)
      · exact Or.inr missing

theorem get_ne_of_not_mem {s : String} {c : Char} (absent : c ∉ s.toList) (notDefault : c ≠ default)
    (p : Pos.Raw) : p.get s ≠ c := by
  rcases utf8GetAux_mem_or_default s.toList 0 p with mem | missing
  · intro same
    exact absent (same ▸ mem)
  · intro same
    exact notDefault (same.symm.trans missing)

theorem utf8ByteSize_ofList_cons (c : Char) (cs : List Char) :
    (String.ofList (c :: cs)).utf8ByteSize = c.utf8Size + (String.ofList cs).utf8ByteSize := by
  rw [ofList_cons, utf8ByteSize_append, utf8ByteSize_singleton]

theorem extract_go₂_of_le (cs : List Char) (i e : Pos.Raw)
    (le : i.byteIdx + (String.ofList cs).utf8ByteSize ≤ e.byteIdx) : Pos.Raw.extract.go₂ cs i e = cs := by
  induction cs generalizing i with
  | nil => rfl
  | cons c cs ih =>
    rw [utf8ByteSize_ofList_cons] at le
    unfold Pos.Raw.extract.go₂
    have before : i ≠ e := by
      intro same
      rw [same] at le
      have := c.utf8Size_pos
      omega
    rw [if_neg before, ih (i + c) (by rw [Pos.Raw.byteIdx_add_char]; omega)]

theorem extract_zero_of_le {s : String} {e : Pos.Raw} (le : s.utf8ByteSize ≤ e.byteIdx) :
    (0 : Pos.Raw).extract s e = s := by
  show (if (0 : Pos.Raw).byteIdx ≥ e.byteIdx then "" else ofList (Pos.Raw.extract.go₁ s.toList 0 0 e)) = s
  split
  · rename_i empty
    have nothing : s.utf8ByteSize = 0 := by simp at empty; omega
    exact (utf8ByteSize_eq_zero_iff.mp nothing).symm
  · cases chars : s.toList with
    | nil => rw [show Pos.Raw.extract.go₁ [] 0 0 e = [] from rfl, ← chars, ofList_toList]
    | cons c rest =>
      rw [Pos.Raw.extract.go₁, if_pos rfl, ← chars, extract_go₂_of_le _ _ _ (by simpa using le), ofList_toList]

/-- Where no position of the text holds the separator's first character, splitting from any
position runs to the end of the text and keeps everything from the start. -/
theorem splitOnAux_of_get_ne {s sep : String} (miss : ∀ p : Pos.Raw, p.get s ≠ (0 : Pos.Raw).get sep) :
    ∀ i : Pos.Raw, ∃ e : Pos.Raw, s.utf8ByteSize ≤ e.byteIdx ∧
      splitOnAux s sep 0 i 0 [] = [(0 : Pos.Raw).extract s e] := by
  intro i
  -- the distance to the end of the text shrinks with every character passed
  induction h : s.utf8ByteSize - i.byteIdx using Nat.strong_induction_on generalizing i with
  | _ n ih =>
  rw [splitOnAux]
  split
  · rename_i atEnd
    exact ⟨i, by simpa [Pos.Raw.atEnd] using atEnd, rfl⟩
  · rename_i notEnd
    rw [if_neg (by simpa using miss i)]
    have shorter : s.utf8ByteSize - ((i.unoffsetBy 0).next s).byteIdx < n := by
      have passed := Pos.Raw.lt_next s i
      simp [Pos.Raw.atEnd] at notEnd
      simp [Pos.Raw.lt_iff] at passed
      simp [Pos.Raw.unoffsetBy]
      omega
    exact ih _ shorter _ rfl

/-- A text in which the separator's first character never occurs splits into itself. -/
theorem splitOn_of_not_mem {s sep : String} (nonempty : sep ≠ "") {c : Char} (first : (0 : Pos.Raw).get sep = c)
    (absent : c ∉ s.toList) (notDefault : c ≠ default) : s.splitOn sep = [s] := by
  obtain ⟨e, le, split⟩ := splitOnAux_of_get_ne (fun p => first ▸ get_ne_of_not_mem absent notDefault p) 0
  rw [splitOn, if_neg (by simpa using nonempty), split, extract_zero_of_le le]

end Text

namespace Reflection

open Storage

/-- The episode holds the texts of an extraction as a scrubber leaves them, in order. -/
structure Extracted (s : Secrets.Scrubber) (ext : Transcript.Extraction) (ep : Episodic.Episode) : Prop where
  task : ep.task = (s.scrub ext.task).text
  decisions : ep.decisionFactors = some (ext.decisions.map fun d => (s.scrub d).text)
  learnings : ep.learnings = some (ext.learnings.map fun l => (s.scrub l).text)

theorem Extracted.of_texts {s : Secrets.Scrubber} {ext : Transcript.Extraction} {ep ep' : Episodic.Episode}
    (extracted : Extracted s ext ep)
    (same : ep'.task = ep.task ∧ ep'.decisionFactors = ep.decisionFactors ∧ ep'.learnings = ep.learnings) :
    Extracted s ext ep' :=
  ⟨same.1.trans extracted.task, same.2.1.trans extracted.decisions, same.2.2.trans extracted.learnings⟩

/-- Scrubbing a list of texts scrubs each; the first, the next `n` and the rest of the
results are the scrubbed first text, next `n` and rest. -/
theorem scrubAll_split (s : Secrets.Scrubber) (first : String) (middle rest : List String) :
    let scrubbed := ((s.scrubAll ((first :: middle ++ rest).map some)).1.map (·.getD ""))
    scrubbed.headD first = (s.scrub first).text ∧
      (scrubbed.drop 1).take middle.length = middle.map (fun t => (s.scrub t).text) ∧
      (scrubbed.drop 1).drop middle.length = rest.map (fun t => (s.scrub t).text) := by
  simp only [Secrets.Scrubber.scrubAll_eq, List.map_map]
  simp

/-- Building the episode of an extraction never fails, and the episode holds its texts as
the scrubber leaves them. -/
theorem Executor.run_buildEpisode (x : Executor) (ext : Transcript.Extraction) (project sessionId : String)
    (w : World) : ∃ ep w', (x.buildEpisode ext project sessionId).run.run w = (.ok ep, w') ∧
      Extracted x.scrubber ext ep := by
  obtain ⟨task, decisions, learnings⟩ := scrubAll_split x.scrubber ext.task ext.decisions ext.learnings
  rcases scrubbed : x.scrubber.scrubAll ((ext.task :: ext.decisions ++ ext.learnings).map some) with ⟨texts, n⟩
  rw [scrubbed] at task decisions learnings
  simp only at task decisions learnings
  unfold Executor.buildEpisode
  simp only [run_bind, run_clock, scrubbed]
  split
  · obtain ⟨w', ran⟩ := run_emit x.log .info "secrets redacted from episode" [.int "fields" n] w
    rw [run_bind, ran]
    refine ⟨_, w', rfl, ?_⟩
    exact ⟨task, congrArg some decisions, congrArg some learnings⟩
  · refine ⟨_, w, rfl, ?_⟩
    exact ⟨task, congrArg some decisions, congrArg some learnings⟩

theorem texts_withImportance_identified (ep : Episodic.Episode) (now : Clock.Instant) (n : Nat) :
    let e := Episodic.Store.withImportance (ep.identified now n)
    e.task = ep.task ∧ e.decisionFactors = ep.decisionFactors ∧ e.learnings = ep.learnings := by
  unfold Episodic.Store.withImportance Episodic.Episode.identified
  dsimp only
  split_ifs <;> exact ⟨rfl, rfl, rfl⟩

theorem prepare_keeps_texts {ep ep' : Episodic.Episode} {w w' : World}
    (ran : (Episodic.Store.prepare ep).run.run w = (.ok ep', w')) :
    ep'.task = ep.task ∧ ep'.decisionFactors = ep.decisionFactors ∧ ep'.learnings = ep.learnings := by
  rw [Episodic.Store.run_prepare] at ran
  dsimp only at ran
  split_ifs at ran <;> cases ran <;> exact texts_withImportance_identified ep w.now w.drawn

theorem write_keeps_texts (s : Episodic.Store) {ep ep' : Episodic.Episode} {id : String} {w w' : World}
    (ran : (s.write ep).run.run w = (.ok (id, ep'), w')) :
    ep'.task = ep.task ∧ ep'.decisionFactors = ep.decisionFactors ∧ ep'.learnings = ep.learnings := by
  unfold Episodic.Store.write at ran
  obtain ⟨prepared, w₁, prep, rest⟩ := run_bind_ok ran
  obtain ⟨stored, w₂, -, rest⟩ := run_bind_ok rest
  cases stored with
  | error e => cases rest
  | ok u =>
    obtain ⟨u, w₃, -, rest⟩ := run_bind_ok rest
    cases rest
    exact prepare_keeps_texts prep

theorem run_resolve (p : String) (w : World) :
    (resolve p).run.run w = (.ok (if Disk.isAbsolute p then p else Disk.clean (Disk.join w.cwd p)), w) := by
  unfold resolve
  split <;> rfl

/-- An observed operation that succeeded ran its operation to the same value; the
observation only records a measurement. -/
theorem run_observed_ok {α : Type} {operation : String} {a : Act α} {w w' : World} {v : α}
    (ran : (observed operation a).run.run w = (.ok v, w')) :
    ∃ w₁, a.run.run w = (.ok v, w₁) ∧ w'.tree = w₁.tree ∧ w'.sink = w₁.sink := by
  unfold observed at ran
  obtain ⟨r, w₁, attempted, ran⟩ := run_bind_ok ran
  obtain ⟨_, w₂, measured, ran⟩ := run_bind_ok ran
  simp only [Storage.measure, run_modify] at measured
  cases measured
  rw [run_attempt] at attempted
  rcases first : a.run.run w with ⟨_ | a', w₀⟩ <;> rw [first] at attempted <;> cases attempted
  · obtain ⟨_, w₃, -, ran⟩ := run_bind_ok ran
    cases ran
  · cases ran
    exact ⟨_, rfl, rfl, rfl⟩

theorem count_frame {name : String} {n : Nat} {w w' : World} {r : Except Failure Unit}
    (ran : (count name n).run.run w = (r, w')) : w'.tree = w.tree ∧ w'.sink = w.sink := by
  unfold count at ran
  split at ran
  · simp only [Storage.measure, run_modify] at ran
    cases ran
    exact ⟨rfl, rfl⟩
  · cases ran
    exact ⟨rfl, rfl⟩

section Apart

open Episodic

variable {ns : List String}

/-- Noting what a transcript could not give logs at most two entries, under the executor's
logger. -/
theorem Executor.run_noteTranscript_apart (x : Executor) (path : String) (t : Transcript.Transcript) {w : World}
    (apart : LogsApart ns w) : ∃ w', (x.noteTranscript path t).run.run w = (.ok (), w') ∧ LogsOnly ns w w' := by
  have skipped : ∀ w₁, LogsApart ns w₁ → ∃ w₂, (if t.skipped > 0 then
      emit x.log .debug "transcript lines skipped" [.text "path" path, .int "skipped" t.skipped]
      else pure ()).run.run w₁ = (.ok (), w₂) ∧ LogsOnly ns w₁ w₂ := by
    intro w₁ apart₁
    split
    · exact run_emit_apart _ _ _ _ apart₁
    · exact ⟨w₁, rfl, LogsOnly.refl apart₁⟩
  unfold Executor.noteTranscript
  cases t.error with
  | some e =>
    obtain ⟨w₁, noted, only₁⟩ := run_emit_apart x.log .warn "transcript unreadable, extracting from empty text"
      [.text "path" path, Logging.Field.failure e] apart
    obtain ⟨w₂, rest, only₂⟩ := skipped w₁ only₁.apart
    exact ⟨w₂, by simp only [run_bind, noted, rest], only₁.trans only₂⟩
  | none => exact skipped w apart

theorem Executor.buildEpisode_logsOnly (x : Executor) (ext : Transcript.Extraction) (project sessionId : String)
    {w w' : World} {ep : Episode} (apart : LogsApart ns w)
    (ran : (x.buildEpisode ext project sessionId).run.run w = (.ok ep, w')) : LogsOnly ns w w' := by
  unfold Executor.buildEpisode at ran
  simp only [run_bind, run_clock] at ran
  split at ran
  · obtain ⟨w₁, logged, only⟩ := run_emit_apart x.log .info "secrets redacted from episode"
      [.int "fields" (x.scrubber.scrubAll ((ext.task :: ext.decisions ++ ext.learnings).map some)).2] apart
    rw [run_bind, logged] at ran
    cases ran
    exact only
  · cases ran
    exact LogsOnly.refl apart

end Apart

/-- What an extraction stores: whenever it succeeds, the episode it returns, the one the
episode store wrote, holds the scrubbed texts of the transcript it read from the tree; and
when the loggers keep their files apart from the episode store, the body the store wrote,
the document of that episode, is on disk at the path of its identifier and time. -/
theorem extract_stores_scrubbed_texts (x : Executor) (path project sessionId : String) {w w' : World}
    {ep : Episodic.Episode} (ran : (x.extract path project sessionId).run.run w = (.ok ep, w')) :
    Extracted x.scrubber (x.extractor.runOn (some (Transcript.loadFrom w.tree path
      (if Disk.isAbsolute path then path else Disk.clean (Disk.join w.cwd path))))) ep ∧
      ∀ ns, (∀ n ∈ ns, Disk.Plain n) → x.episodes.dir = Disk.pathOf ns → Episodic.LogsApart ns w →
        w'.tree.get? (x.episodes.bodyPath ep.id ep.timestamp) = some (.file ⟨documentText ep.toJson, 0⟩) := by
  obtain ⟨w₁, ran, tree₁, -⟩ := run_observed_ok ran
  obtain ⟨tree, w₂, read, ran⟩ := run_bind_ok ran
  rw [run_files] at read
  cases read
  obtain ⟨place, w₃, resolved, ran⟩ := run_bind_ok ran
  rw [run_resolve] at resolved
  cases resolved
  obtain ⟨_, w₄, noted, ran⟩ := run_bind_ok ran
  obtain ⟨built, w₅, build, ran⟩ := run_bind_ok ran
  obtain ⟨ep₀, w₅', build', extracted⟩ := x.run_buildEpisode
    (x.extractor.runOn (some (Transcript.loadFrom w.tree path _))) project _ w₄
  rw [build'] at build
  obtain ⟨rfl, rfl⟩ : ep₀ = built ∧ w₅ = w₅' := by
    obtain ⟨same, world⟩ := Prod.mk.inj build
    exact ⟨Except.ok.inj same, world.symm⟩
  obtain ⟨r, w₆, attempted, ran⟩ := run_bind_ok ran
  rw [run_attempt] at attempted
  rcases written : (x.episodes.write ep₀).run.run w₅ with ⟨_ | ⟨id, ep₁⟩, w₇⟩ <;>
    rw [written] at attempted <;> cases attempted
  · obtain ⟨_, _, failed, -⟩ := run_bind_ok ran
    cases failed
  obtain ⟨_, w₈, picked, ran⟩ := run_bind_ok ran
  cases picked
  obtain ⟨_, w₉, counted, ran⟩ := run_bind_ok ran
  obtain ⟨_, w₁₀, logged, ran⟩ := run_bind_ok ran
  cases ran
  refine ⟨extracted.of_texts (write_keeps_texts x.episodes written), fun ns plain dir apart => ?_⟩
  -- the loggers stay apart up to the write, which files the body; after it only a count,
  -- one log entry and a measurement follow, none of which touches the store's paths
  obtain ⟨w₄', noted', only₄⟩ := x.run_noteTranscript_apart path _ apart
  rw [noted'] at noted
  cases noted
  have only₅ := x.buildEpisode_logsOnly _ project _ only₄.apart build'
  obtain ⟨-, -, -, -, apart₇, idx, filed⟩ := Episodic.Store.filed_of_write plain dir only₅.apart written
  obtain ⟨tree₉, sink₉⟩ := count_frame counted
  have only₁₀ := Episodic.logsOnly_of_emit (Episodic.LogsOnly.of_frame apart₇ tree₉ sink₉).apart logged
  rw [Episodic.Store.bodyPath_eq plain dir filed.valid, tree₁,
    only₁₀.agree _ (Or.inr (Or.inr ⟨_, _, Episodic.plain_monthText _, Episodic.plain_bodyName filed.valid, rfl⟩)), tree₉]
  exact filed.body

/-! ## A redaction that completes a secret -/

/-- Building an episode fills in no identifier, stamps it with the clock and gives it the
importance of a success or of a failure; with a silent log it changes nothing. -/
theorem Executor.buildEpisode_fresh (x : Executor) (ext : Transcript.Extraction) (project sessionId : String)
    {w w' : World} {ep : Episodic.Episode} (ran : (x.buildEpisode ext project sessionId).run.run w = (.ok ep, w')) :
    ep.id = "" ∧ ep.timestamp = w.now ∧ (ep.importance = successImportance ∨ ep.importance = failureImportance) ∧
      (x.log.silent = true → w' = w) := by
  unfold Executor.buildEpisode at ran
  simp only [run_bind, run_clock] at ran
  split at ran
  · obtain ⟨w₁, logged⟩ := run_emit x.log .info "secrets redacted from episode"
      [.int "fields" (x.scrubber.scrubAll ((ext.task :: ext.decisions ++ ext.learnings).map some)).2] w
    rw [run_bind, logged] at ran
    cases ran
    refine ⟨rfl, rfl, by cases ext.success <;> simp, fun silent => ?_⟩
    simp only [emit, silent, if_true, run_pure] at logged
    exact (Prod.mk.inj logged).2.symm
  · cases ran
    exact ⟨rfl, rfl, by cases ext.success <;> simp, fun _ => rfl⟩

/-- With a silent log, an extraction whose built episode the store writes returns the
written episode, and leaves the files as the write left them. -/
theorem Executor.extract_returns_written (x : Executor) (path project sessionId : String) {w w' : World}
    {id : String} {ep e : Episodic.Episode} (silent : x.log.silent = true)
    (built : (x.buildEpisode (x.extractor.runOn (some (Transcript.loadFrom w.tree path
      (if Disk.isAbsolute path then path else Disk.clean (Disk.join w.cwd path))))) project
      (if sessionId.isEmpty then (Transcript.loadFrom w.tree path
        (if Disk.isAbsolute path then path else Disk.clean (Disk.join w.cwd path))).sessionId else sessionId)).run.run w =
      (.ok ep, w))
    (wrote : (x.episodes.write ep).run.run w = (.ok (id, e), w')) :
    ∃ w'', (x.extract path project sessionId).run.run w = (.ok e, w'') ∧ w''.tree = w'.tree := by
  have quietNote : ∀ t : Transcript.Transcript, (x.noteTranscript path t).run.run w = (.ok (), w) := by
    intro t
    unfold Executor.noteTranscript
    simp only [emit, silent, if_true, ite_self]
    split <;> simp only [run_bind, run_pure]
  unfold Executor.extract observed
  simp only [run_bind, run_attempt, run_files, run_resolve, quietNote, built, wrote]
  simp only [count, Storage.measure, run_modify, emit, silent, if_true, run_pure]
  exact ⟨_, rfl, rfl⟩

open Disk

/-- A policy with two rules, after the built-in bearer-token and password rules: a bearer
token, and an assignment to `pwd` of at least eight characters. -/
def bearerPolicy : Secrets.Policy :=
  { rules := [{ id := "bearer-token", pattern := "bearer [a-z]+" },
              { id := "password", pattern := "pwd=[^ ]\x7b8,\x7d" }] }

/-- The cold path with an episode store at `/m`, a scrubber and a silent log. -/
def bearerExecutor (s : Secrets.Scrubber) : Executor :=
  { settings := default, episodes := { dir := "/m" }, facts := default, rules := default, scrubber := s,
    log := Logging.Channel.nop }

/-- A world whose transcript `/s` reads `task: pwd=bearer ab`, with the episode store's month
directory and free lock in place and no index yet. -/
def transcriptWorld : World :=
  { tree := ⟨[("/", .dir), ("/s", .file ⟨"task: pwd=bearer ab", 0⟩), ("/m", .dir), ("/m/2025-01", .dir),
      ("/m/index.json.lock", .file ⟨"", 0⟩)]⟩,
    now := Clock.Instant.ofCivil 2025 1 15 12 0 0 }

/-- The bearer policy is checked; its scrubber redacts the bearer token of the task, and
finds the password rule's secret in what it leaves. -/
theorem bearerPolicy_scrubs : ∃ s, bearerPolicy.activate = .ok s ∧
    (s.scrub "pwd=bearer ab").text = "pwd=[REDACTED]" ∧ (s.scrub "pwd=[REDACTED]").findings ≠ [] := by
  have scrubs : (bearerPolicy.activate.toOption.map fun s =>
      (s.scrub "pwd=bearer ab").text == "pwd=[REDACTED]" && !(s.scrub "pwd=[REDACTED]").findings.isEmpty) =
      some true := by
    decide +kernel
  cases checked : bearerPolicy.activate with
  | error e =>
    rw [checked] at scrubs
    cases scrubs
  | ok s =>
    rw [checked] at scrubs
    simp only [Except.toOption, Option.map_some, Option.some.injEq, Bool.and_eq_true, beq_iff_eq,
      Bool.not_eq_true', List.isEmpty_eq_false_iff] at scrubs
    exact ⟨s, rfl, scrubs⟩

theorem transcriptWorld_loaded : Transcript.loadFrom transcriptWorld.tree "/s" "/s" =
    { path := "/s", content := "task: pwd=bearer ab" } := by
  have dirs : transcriptWorld.tree.DirsTo [] := by
    intro i le
    simp only [List.length_nil, Nat.le_zero] at le
    subst le
    cbv
  have key : pathOf ([] ++ ["s"]) = "/s" := by cbv
  have found : transcriptWorld.tree.get? (pathOf ([] ++ ["s"])) = some (.file ⟨"task: pwd=bearer ab", 0⟩) := by
    rw [key]
    simp [Tree.get?, transcriptWorld]
  have stat := Tree.look_child_of_get? (fun _ mem => absurd mem List.not_mem_nil) (by decide) dirs "stat" found
  rw [key] at stat
  have line : ("task: pwd=bearer ab").splitOn "\n" = ["task: pwd=bearer ab"] :=
    Text.splitOn_of_not_mem (by decide) rfl (by decide) (by decide)
  have plain : Transcript.firstLineIsObject "task: pwd=bearer ab" = false := by
    unfold Transcript.firstLineIsObject
    rw [line]
    decide +kernel
  have small : ¬ ({ text := "task: pwd=bearer ab" } : FileData).size > Transcript.maxTranscriptBytes := by
    decide +kernel
  rw [Transcript.loadFrom, Tree.stat, stat]
  simp only [Transcript.load, Transcript.parse, show Transcript.extension "/s" = "" by cbv, contents_of_text,
    if_neg small, plain, show Text.equalFold "" ".jsonl" = false by decide, Bool.or_false, Bool.false_eq_true,
    if_false]
  rfl

/-- Extracting the transcript `/s` with the bearer policy's scrubber succeeds and stores the
task `pwd=[REDACTED]`. -/
theorem extract_bearer_run {s : Secrets.Scrubber} (redacted : (s.scrub "pwd=bearer ab").text = "pwd=[REDACTED]") :
    ∃ ep w', ((bearerExecutor s).extract "/s" "p" "").run.run transcriptWorld = (.ok ep, w') ∧
      ep.task = "pwd=[REDACTED]" := by
  have task : ((bearerExecutor s).extractor.runOn (some { path := "/s", content := "task: pwd=bearer ab" })).task =
      "pwd=bearer ab" := by
    show Transcript.Extractor.task "task: pwd=bearer ab" = "pwd=bearer ab"
    decide +kernel
  obtain ⟨ep, w₁, built, extracted⟩ := (bearerExecutor s).run_buildEpisode
    ((bearerExecutor s).extractor.runOn (some { path := "/s", content := "task: pwd=bearer ab" })) "p" ""
    transcriptWorld
  obtain ⟨noId, stamped, importance, same⟩ := (bearerExecutor s).buildEpisode_fresh _ "p" "" built
  have unchanged : w₁ = transcriptWorld := same rfl
  subst unchanged
  have stored : ep.task = "pwd=[REDACTED]" := by
    rw [extracted.task, task]
    exact redacted
  have absolute : Disk.isAbsolute "/s" = true := by decide +kernel
  have plain : ∀ n ∈ ["m"], Plain n := by decide
  have plainMonth : ∀ n ∈ ["m", "2025-01"], Plain n := by decide
  have dir : (bearerExecutor s).episodes.dir = pathOf ["m"] := by
    show "/m" = pathOf ["m"]
    cbv
  have dirs : transcriptWorld.tree.DirsTo (["m"] ++ ["2025-01"]) := by
    intro i le
    simp only [List.cons_append, List.nil_append, List.length_cons, List.length_nil] at le
    interval_cases i <;> cbv
  have indexAt := Episodic.Store.indexPath_eq plain dir
  have made : transcriptWorld.tree.mkdirAll (parent (bearerExecutor s).episodes.indexPath) =
      .ok transcriptWorld.tree := by
    rw [indexAt, parent_pathOf plain (by decide)]
    exact Tree.mkdirAll_of_dirsTo plain (Tree.DirsTo.of_append dirs)
  have lockFile : transcriptWorld.tree.get? (lockPath (bearerExecutor s).episodes.indexPath) =
      some (.file ⟨"", 0⟩) := by
    rw [Episodic.Store.lockPath_indexPath plain dir,
      show pathOf (["m"] ++ ["index.json.lock"]) = "/m/index.json.lock" by cbv]
    simp [Tree.get?, transcriptWorld]
  have noIndex : fetch transcriptWorld.tree (bearerExecutor s).episodes.indexPath = .ok none := by
    rw [indexAt]
    refine fetch_of_get?_none plain (by decide) (Tree.DirsTo.of_append dirs) ?_
    rw [show pathOf (["m"] ++ ["index.json"]) = "/m/index.json" by cbv]
    simp [Tree.get?, transcriptWorld]
  have draws : ep.draws = true := by
    simp only [Episodic.Episode.draws, stored, noId]
    decide
  have identity : (ep.identified transcriptWorld.now transcriptWorld.drawn).id =
      Episodic.freshId transcriptWorld.now.utc (String.ofList ((uuidHex 1).toList.take 6)) := by
    simp [Episodic.Episode.identified, Episodic.Store.stamp, noId, stamped]
    rfl
  have passes : firstFailed (ep.checks transcriptWorld.now transcriptWorld.drawn) = none := by
    simp only [Episodic.Episode.checks, stored, identity]
    rcases importance with seven | five
    · rw [seven]
      decide +kernel
    · rw [five]
      decide +kernel
  have prepId : (ep.prepared transcriptWorld.now transcriptWorld.drawn).id =
      Episodic.freshId transcriptWorld.now.utc (String.ofList ((uuidHex 1).toList.take 6)) := by
    rw [Episodic.Episode.prepared, Episodic.id_withImportance, identity]
  have prepTime : (ep.prepared transcriptWorld.now transcriptWorld.drawn).timestamp = transcriptWorld.now.utc := by
    simp only [Episodic.Episode.prepared, Episodic.Store.withImportance, Episodic.Episode.identified,
      Episodic.Store.stamp, stamped, ite_self]
    split <;> split <;> rfl
  have valid : Episodic.validId (ep.prepared transcriptWorld.now transcriptWorld.drawn).id = true := by
    rw [prepId]
    decide +kernel
  have month : transcriptWorld.now.utc.monthText = "2025-01" := by decide +kernel
  have writable : ∀ t ∈ (ep.prepared transcriptWorld.now transcriptWorld.drawn).timestamp ::
      (({} : Episodic.Index).episodes.map (·.timestamp)), t.writable = true := by
    intro t mem
    simp only [List.map_nil, List.mem_singleton, prepTime] at mem
    rw [mem]
    decide +kernel
  have bodyAt : (bearerExecutor s).episodes.bodyPath (ep.prepared transcriptWorld.now transcriptWorld.drawn).id
      (ep.prepared transcriptWorld.now transcriptWorld.drawn).timestamp =
      pathOf (["m", "2025-01"] ++ [(ep.prepared transcriptWorld.now transcriptWorld.drawn).id ++ ".json"]) := by
    rw [Episodic.Store.bodyPath_eq plain dir valid, prepTime, month]
    rfl
  have bodyFree : transcriptWorld.tree.get?
      (pathOf (["m", "2025-01"] ++ [(ep.prepared transcriptWorld.now transcriptWorld.drawn).id ++ ".json"])) ≠
      some .dir := by
    have missing : (transcriptWorld.tree.get?
        (pathOf (["m", "2025-01"] ++ [(ep.prepared transcriptWorld.now transcriptWorld.drawn).id ++ ".json"]))).isNone =
        true := by
      rw [prepId]
      decide +kernel
    intro isDir
    rw [isDir] at missing
    cases missing
  have body : transcriptWorld.tree.replaceFile ((bearerExecutor s).episodes.bodyPath
      (ep.prepared transcriptWorld.now transcriptWorld.drawn).id
      (ep.prepared transcriptWorld.now transcriptWorld.drawn).timestamp)
      (documentText (ep.prepared transcriptWorld.now transcriptWorld.drawn).toJson) =
      .ok (transcriptWorld.tree.put
        (pathOf (["m", "2025-01"] ++ [(ep.prepared transcriptWorld.now transcriptWorld.drawn).id ++ ".json"]))
        (.file ⟨documentText (ep.prepared transcriptWorld.now transcriptWorld.drawn).toJson, 0⟩)) := by
    rw [bodyAt]
    exact Tree.replaceFile_child plainMonth (Episodic.plain_bodyName valid) dirs bodyFree _
  have indexFree : (transcriptWorld.tree.put
      (pathOf (["m", "2025-01"] ++ [(ep.prepared transcriptWorld.now transcriptWorld.drawn).id ++ ".json"]))
      (.file ⟨documentText (ep.prepared transcriptWorld.now transcriptWorld.drawn).toJson, 0⟩)).get?
      (pathOf (["m"] ++ ["index.json"])) ≠ some .dir := by
    rw [Tree.get?_put, if_neg (pathOf_ne_of_length_ne (Tree.Plain.snoc plain (by decide))
      (Tree.Plain.snoc plainMonth (Episodic.plain_bodyName valid)) (by simp)),
      show pathOf (["m"] ++ ["index.json"]) = "/m/index.json" by cbv]
    simp [Tree.get?, transcriptWorld]
  have index := Tree.replaceFile_child plain (by decide)
    (Tree.DirsTo.of_append (Tree.DirsTo.put_child dirs plainMonth (Episodic.plain_bodyName valid) _)) indexFree
    (documentText (({} : Episodic.Index).add (ep.prepared transcriptWorld.now transcriptWorld.drawn).summary).toJson)
  rw [← indexAt] at index
  have read : (bearerExecutor s).episodes.readIndex.run.run
      (if ep.draws then { transcriptWorld with drawn := transcriptWorld.drawn + 1 } else transcriptWorld) =
      (.ok ({}, false),
        if ep.draws then { transcriptWorld with drawn := transcriptWorld.drawn + 1 } else transcriptWorld) := by
    rw [if_pos draws]
    exact Episodic.Store.run_readIndex_missing _ _ noIndex
  have fresh : ({} : Episodic.Index).find? (ep.prepared transcriptWorld.now transcriptWorld.drawn).id = none := rfl
  obtain ⟨log, wrote⟩ := Episodic.Store.write_stored (bearerExecutor s).episodes passes rfl made lockFile rfl
    read fresh writable body index
  obtain ⟨w'', ran, -⟩ := (bearerExecutor s).extract_returns_written "/s" "p" "" rfl
    (by simp only [absolute, ↓reduceIte, transcriptWorld_loaded]; exact built) wrote
  have keeps : (ep.prepared transcriptWorld.now transcriptWorld.drawn).task = ep.task :=
    (texts_withImportance_identified ep transcriptWorld.now transcriptWorld.drawn).1
  exact ⟨_, _, ran, keeps.trans stored⟩

/-- An extraction with the bearer policy's scrubber stores the scrubbed task of its
transcript, and leaves the episode's body on disk. -/
theorem extract_stores_scrubbed_texts_bearer : ∃ s ep w', bearerPolicy.activate = .ok s ∧
    ((bearerExecutor s).extract "/s" "p" "").run.run transcriptWorld = (.ok ep, w') ∧
    Extracted s ((bearerExecutor s).extractor.runOn (some (Transcript.loadFrom transcriptWorld.tree "/s"
      (if Disk.isAbsolute "/s" then "/s" else Disk.clean (Disk.join transcriptWorld.cwd "/s"))))) ep ∧
    w'.tree.get? ((bearerExecutor s).episodes.bodyPath ep.id ep.timestamp) = some (.file ⟨documentText ep.toJson, 0⟩) := by
  obtain ⟨s, checked, redacted, -⟩ := bearerPolicy_scrubs
  obtain ⟨ep, w', ran, -⟩ := extract_bearer_run redacted
  obtain ⟨extracted, body⟩ := extract_stores_scrubbed_texts (bearerExecutor s) "/s" "p" "" ran
  exact ⟨s, ep, w', checked, ran, extracted,
    body ["m"] (by decide) (by show "/m" = pathOf ["m"]; cbv) (Episodic.logsApart_of_quiet rfl)⟩

/-- Scrubbing once does not clear a text: with an enabled policy of two rules, extracting a
transcript whose task holds a bearer token after `pwd=` succeeds, and the task it stores,
`pwd=[REDACTED]`, is a secret to the same scrubber. -/
theorem scrubbed_task_keeps_a_secret : bearerPolicy.enabled = true ∧ ∃ s, bearerPolicy.activate = .ok s ∧
    ∃ ep w', ((bearerExecutor s).extract "/s" "p" "").run.run transcriptWorld = (.ok ep, w') ∧
      (s.scrub ep.task).findings ≠ [] := by
  obtain ⟨s, checked, redacted, found⟩ := bearerPolicy_scrubs
  obtain ⟨ep, w', ran, stored⟩ := extract_bearer_run redacted
  exact ⟨rfl, s, checked, ep, w', ran, by rw [stored]; exact found⟩

end Reflection
end AgentMemory
