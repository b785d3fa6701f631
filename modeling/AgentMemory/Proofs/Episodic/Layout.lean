import AgentMemory.Proofs.Storage.Files
import AgentMemory.Proofs.Episodic.Migration

namespace AgentMemory
namespace Episodic

open Storage Disk

/-!
# How the episode store lays out its files

A store whose directory is the path through plain names `ns` keeps its index at
`ns/index.json`, takes the lock `ns/index.json.lock`, exports to `ns/legacy-index.json`,
and files each episode as `ns/<month>/<id>.json`.  Months are written with digits and
dashes only (`monthLike_monthText`) and valid identifiers hold no separator
(`plain_bodyName`), so every one of these paths is a path through plain names and the
lemmas of `Disk` apply to it.

The store reads the tree only at the `Watched` paths (the directories down to it, the
months and the files in them) and at the index; trees that `Agree` there look alike to it.
A logger writes to its own file, so one whose file lies elsewhere (`LogsApart`) leaves the
store's files as they are (`run_emit_apart`).
-/

/-! ## Names -/

/-- A name made of digits and dashes only, as the name of a month is. -/
def monthLike (m : String) : Bool := m.toList.all (fun c => c.isDigit || c == '-')

example : monthLike "2024-05" = true := by decide
example : monthLike "index.json" = false := by decide

/-- The month of an instant is written with digits and dashes only, whatever its year. -/
theorem monthLike_monthText (t : Clock.Instant) : monthLike t.monthText = true := by
  have padded : ∀ w n c, c ∈ (Clock.Instant.pad w n).toList → (c.isDigit || c == '-') = true := by
    intro w n c mem
    simp [Clock.Instant.isDigit_of_mem_pad mem]
  unfold monthLike Clock.Instant.monthText
  split
  rename_i y mo _ _ _ _ _ _
  rw [List.all_eq_true]
  intro c mem
  simp only [String.toList_append, List.mem_append] at mem
  rcases mem with (year | dash) | month
  · unfold Clock.Instant.yearText at year
    split at year
    · simp only [String.toList_append, List.mem_append] at year
      rcases year with sign | digits
      · simp at sign
        simp [sign]
      · exact padded _ _ c digits
    · exact padded _ _ c year
  · simp at dash
    simp [dash]
  · exact padded _ _ c month

theorem plain_of_monthLike {m : String} (like : monthLike m = true) (nonempty : m ≠ "") : Plain m := by
  unfold monthLike at like
  rw [List.all_eq_true] at like
  refine ⟨nonempty, fun slash => by simpa using like '/' slash, ?_, ?_⟩
  · rintro rfl
    simp at like
  · rintro rfl
    simp at like

theorem plain_monthText (t : Clock.Instant) : Plain t.monthText := by
  refine plain_of_monthLike (monthLike_monthText t) ?_
  intro empty
  have dash : '-' ∈ t.monthText.toList := by
    unfold Clock.Instant.monthText
    split
    simp
  rw [empty] at dash
  cases dash

/-- The file name of a valid identifier is plain: identifiers hold no separator. -/
theorem plain_bodyName {id : String} (valid : validId id = true) : Plain (id ++ ".json") := by
  have long : ∀ n, n = id ++ ".json" → 5 ≤ n.length := by
    rintro n rfl
    have suffix : ".json".length = 5 := rfl
    rw [String.length_append, suffix]
    omega
  unfold validId at valid
  split at valid
  · rename_i rest chars
    simp only [Bool.and_eq_true, Bool.not_eq_true'] at valid
    obtain ⟨⟨-, allId⟩, -⟩ := valid
    refine ⟨?_, ?_, ?_, ?_⟩
    · intro empty
      exact absurd (long _ empty.symm) (by decide)
    · intro slash
      rw [String.toList_append, chars] at slash
      simp only [List.cons_append, List.mem_cons, List.mem_append] at slash
      rcases slash with e | p | dash | inRest | inSuffix
      · cases e
      · cases p
      · cases dash
      · have allowed := List.all_eq_true.mp allId '/' inRest
        simp [idChar] at allowed
      · simp at inSuffix
    · intro dot
      exact absurd (long _ dot.symm) (by decide)
    · intro dots
      exact absurd (long _ dots.symm) (by decide)
  · cases valid

theorem bodyName_inj {a b : String} (same : a ++ ".json" = b ++ ".json") : a = b := by
  rw [← String.toList_inj, String.toList_append, String.toList_append] at same
  exact String.toList_inj.mp (List.append_cancel_right same)

theorem stem_bodyName (id : String) :
    (if (id ++ ".json").endsWith ".json" then
      String.ofList ((id ++ ".json").toList.take ((id ++ ".json").length - 5)) else id ++ ".json") = id := by
  have ends : (id ++ ".json").endsWith ".json" = true := by
    simp [← String.endsWith_toSlice]
  have suffix : ".json".length = 5 := rfl
  rw [if_pos ends, String.length_append, suffix, Nat.add_sub_cancel, String.toList_append,
    List.take_left' String.length_toList, String.ofList_toList]

/-! ## The store's paths -/

namespace Store

variable {s : Store} {ns : List String}

theorem indexPath_eq (plain : ∀ n ∈ ns, Plain n) (dir : s.dir = pathOf ns) :
    s.indexPath = pathOf (ns ++ ["index.json"]) := by
  rw [indexPath, dir, join_pathOf plain (by decide)]

theorem legacyIndexPath_eq (plain : ∀ n ∈ ns, Plain n) (dir : s.dir = pathOf ns) :
    s.legacyIndexPath = pathOf (ns ++ ["legacy-index.json"]) := by
  rw [legacyIndexPath, dir, join_pathOf plain (by decide)]

theorem lockPath_indexPath (plain : ∀ n ∈ ns, Plain n) (dir : s.dir = pathOf ns) :
    lockPath s.indexPath = pathOf (ns ++ ["index.json.lock"]) := by
  rw [indexPath_eq plain dir, lockPath, pathOf_snoc_append]
  rfl

theorem bodyPath_eq (plain : ∀ n ∈ ns, Plain n) (dir : s.dir = pathOf ns) {id : String} (valid : validId id = true)
    (ts : Clock.Instant) : s.bodyPath id ts = pathOf (ns ++ [ts.monthText, id ++ ".json"]) := by
  have names : ∀ n ∈ [ts.monthText, id ++ ".json"], Plain n := by
    intro n mem
    simp only [List.mem_cons, List.not_mem_nil, or_false] at mem
    rcases mem with month | name
    · rw [month]
      exact plain_monthText ts
    · rw [name]
      exact plain_bodyName valid
  rw [bodyPath, dir, joinAll_pathOf plain names]

end Store

/-! ## The paths the store reads -/

/-- The paths besides the index whose entries the store reads: the store directory and
those above it, the months, and the files in the months. -/
def Watched (ns : List String) (k : String) : Prop :=
  (∃ i ≤ ns.length, k = pathOf (ns.take i)) ∨ (∃ m, Plain m ∧ monthLike m = true ∧ k = pathOf (ns ++ [m])) ∨
    (∃ m f, Plain m ∧ Plain f ∧ k = pathOf (ns ++ [m, f]))

/-- Two trees that hold the same entries at the watched paths. -/
def Agree (ns : List String) (t t' : Disk.Tree) : Prop := ∀ k, Watched ns k → t'.get? k = t.get? k

section Frame

variable {ns : List String} {t t' : Disk.Tree}

theorem Agree.refl (t : Disk.Tree) : Agree ns t t := fun _ _ => rfl

theorem Agree.trans {t'' : Disk.Tree} (first : Agree ns t t') (second : Agree ns t' t'') : Agree ns t t'' :=
  fun k watched => (second k watched).trans (first k watched)

theorem Agree.dirsTo (agree : Agree ns t t') (dirs : t.DirsTo ns) : t'.DirsTo ns := by
  intro i le
  rw [agree _ (Or.inl ⟨i, le, rfl⟩)]
  exact dirs i le

theorem agree_put {k : String} (unwatched : ¬ Watched ns k) (e : Entry) : Agree ns t (t.put k e) := by
  intro k' watched
  rw [Tree.get?_put, if_neg]
  rintro rfl
  exact unwatched watched

theorem unwatched_child (plain : ∀ n ∈ ns, Plain n) {n : String} (name : Plain n) (notMonth : monthLike n = false) :
    ¬ Watched ns (pathOf (ns ++ [n])) := by
  have child : ∀ x ∈ ns ++ [n], Plain x := plain_append plain (by simpa using name)
  rintro (⟨i, le, above⟩ | ⟨m, plainM, like, month⟩ | ⟨m, f, plainM, plainF, deeper⟩)
  · have taken : ∀ x ∈ ns.take i, Plain x := fun x mem => plain x (List.mem_of_mem_take mem)
    refine pathOf_ne_of_length_ne child taken ?_ above
    simp only [List.length_append, List.length_singleton, List.length_take]
    omega
  · have same := List.singleton_inj.mp ((pathOf_append_inj plain (by simpa using name) (by simpa using plainM)).mp month)
    rw [same, like] at notMonth
    cases notMonth
  · have names : ∀ x ∈ [m, f], Plain x := by simp [plainM, plainF]
    exact pathOf_ne_of_length_ne child (plain_append plain names) (by simp) deeper

theorem index_put_child (plain : ∀ n ∈ ns, Plain n) {n : String} (name : Plain n) (other : n ≠ "index.json")
    (e : Entry) : (t.put (pathOf (ns ++ [n])) e).get? (pathOf (ns ++ ["index.json"])) =
      t.get? (pathOf (ns ++ ["index.json"])) := by
  rw [Tree.get?_put, if_neg]
  intro same
  exact other (List.singleton_inj.mp ((pathOf_append_inj plain (by decide) (by simpa using name)).mp same)).symm

end Frame

/-! ## Logging beside the store -/

/-- The logger, when one is open, keeps its file off the paths the store reads: the
directories down to the store, the months and their files, and the index. -/
def LogsApart (ns : List String) (w : World) : Prop :=
  ∀ sink ∈ w.sink, ¬ Watched ns (Disk.clean sink.logger.options.file) ∧
    Disk.clean sink.logger.options.file ≠ pathOf (ns ++ ["index.json"])

theorem logsApart_of_quiet {ns : List String} {w : World} (quiet : w.sink = none) : LogsApart ns w := by
  intro sink mem
  rw [quiet] at mem
  cases mem

/-- What logging under a logger apart from the store leaves: the paths the store reads and
the index as they were, and the logger still apart. -/
structure LogsOnly (ns : List String) (w w' : World) : Prop where
  agree : Agree ns w.tree w'.tree
  index : w'.tree.get? (pathOf (ns ++ ["index.json"])) = w.tree.get? (pathOf (ns ++ ["index.json"]))
  apart : LogsApart ns w'

theorem LogsOnly.refl {ns : List String} {w : World} (apart : LogsApart ns w) : LogsOnly ns w w :=
  ⟨Agree.refl _, rfl, apart⟩

theorem LogsOnly.of_frame {ns : List String} {w w' : World} (apart : LogsApart ns w) (tree : w'.tree = w.tree)
    (sink : w'.sink = w.sink) : LogsOnly ns w w' :=
  ⟨fun _ _ => by rw [tree], by rw [tree], fun s mem => apart s (sink ▸ mem)⟩

theorem LogsOnly.trans {ns : List String} {w w' w'' : World} (first : LogsOnly ns w w') (second : LogsOnly ns w' w'') :
    LogsOnly ns w w'' :=
  ⟨first.agree.trans second.agree, second.index.trans first.index, second.apart⟩

/-- A logger whose file lies apart from the store takes an entry by appending to that file,
if anywhere, and stays apart. -/
theorem Sink.take_apart {ns : List String} (sink : Sink) {w W : World} (tree : W.tree = w.tree) (e : Logging.Entry)
    (unwatched : ¬ Watched ns (Disk.clean sink.logger.options.file))
    (notIndex : Disk.clean sink.logger.options.file ≠ pathOf (ns ++ ["index.json"])) :
    LogsOnly ns w (sink.take W e) := by
  have apart : LogsApart ns (sink.take W e) := by
    intro sink' mem
    simp only [Sink.take, Option.mem_def, Option.some.injEq] at mem
    subst mem
    exact ⟨unwatched, notIndex⟩
  unfold Sink.take at apart ⊢
  dsimp only at apart ⊢
  split
  · exact ⟨fun _ _ => by rw [tree], by rw [tree], apart⟩
  · rename_i written
    rw [if_neg written] at apart
    cases appended : W.tree.appendFile sink.logger.options.file
        (String.join ((sink.logger.write { seen := sink.written.seen } e
          ⟨Logging.isoMillis W.now, sink.caller, sink.stack⟩).file.map (· ++ "\n"))) with
    | error _ =>
      simp only [Except.toOption, Option.getD_none] at apart ⊢
      exact ⟨fun _ _ => by rw [tree], by rw [tree], apart⟩
    | ok t =>
      simp only [Except.toOption, Option.getD_some] at apart ⊢
      obtain ⟨-, put⟩ := Tree.appendFile_eq_ok appended
      have put : ∃ entry, t = w.tree.put (Disk.clean sink.logger.options.file) entry := by
        rw [← tree]
        rcases put with ⟨-, rfl⟩ | ⟨d, -, rfl⟩ <;> exact ⟨_, rfl⟩
      obtain ⟨entry, rfl⟩ := put
      exact ⟨agree_put unwatched entry, by rw [Tree.get?_put, if_neg (Ne.symm notIndex)], apart⟩

/-- Logging under a logger apart from the store leaves the store's files alone. -/
theorem run_emit_apart {ns : List String} (ch : Logging.Channel) (level : Logging.Level) (message : String)
    (fields : List Logging.Field) {w : World} (apart : LogsApart ns w) :
    ∃ w', (emit ch level message fields).run.run w = (.ok (), w') ∧ LogsOnly ns w w' := by
  unfold emit
  split
  · exact ⟨w, rfl, Agree.refl _, rfl, apart⟩
  · refine ⟨_, rfl, ?_⟩
    cases sunk : w.sink with
    | none =>
      simp only [sunk]
      refine ⟨fun _ _ => rfl, rfl, ?_⟩
      intro sink mem
      simp at mem
    | some sink =>
      simp only [sunk]
      obtain ⟨unwatched, notIndex⟩ := apart sink (by simp [sunk])
      refine Sink.take_apart sink ?_ _ unwatched notIndex
      rfl

theorem logsOnly_of_emit {ns : List String} {ch : Logging.Channel} {level : Logging.Level} {message : String}
    {fields : List Logging.Field} {w w' : World} {r : Except Failure Unit} (apart : LogsApart ns w)
    (ran : (emit ch level message fields).run.run w = (r, w')) : LogsOnly ns w w' := by
  obtain ⟨w'', logged, only⟩ := run_emit_apart ch level message fields apart
  rw [logged] at ran
  cases ran
  exact only

end Episodic
end AgentMemory
