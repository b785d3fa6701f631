import AgentMemory.Proofs.Storage.Run
import AgentMemory.Proofs.Disk.Tree

namespace AgentMemory
namespace Storage

open Disk

/-!
# What actions do to the files

The actions of `Storage.World` and `Storage.Document`, run on a world, stated once for
every store.  An action that only reads (`ReadsOnly`) changes no file while no logger is
open: reading files, the clock, drawing identifiers, logging, and every sequence of them.
A predicate of the world that each action of a sequence keeps, the sequence keeps
(`Keeps.bind`).

Taking a lock adds at most the lock file before the guarded action runs
(`run_withLock`); writing a text replaces one file or fails with the world unchanged
(`run_writeText`); a document holding an instant with no written form is refused before
anything is written (`run_writeJsonTimed`).  Reading a file below existing directories
gives what the tree holds there (`fetch_of_get?_file`, `fetch_of_get?_none`).
-/

variable {α β : Type}

@[simp] theorem run_get (w : World) : (get : Act World).run.run w = (.ok w, w) := rfl

theorem run_attempt (x : Act α) (w : World) :
    (attempt x).run.run w = match x.run.run w with
      | (.ok a, w') => (.ok (.ok a), w')
      | (.error e, w') => (.ok (.error e), w') := by
  unfold attempt
  rw [ExceptT.run_tryCatch, StateT.run_bind, ExceptT.run_bind, StateT.run_bind]
  rcases x.run.run w with ⟨_ | a, w'⟩ <;> rfl

/-! ## Actions that only read -/

/-- An action that changes no file and opens no logger, while none is open. -/
def ReadsOnly (x : Act α) : Prop :=
  ∀ w, w.sink = none → (x.run.run w).2.tree = w.tree ∧ (x.run.run w).2.sink = none

theorem ReadsOnly.bind {x : Act α} {f : α → Act β} (first : ReadsOnly x) (rest : ∀ a, ReadsOnly (f a)) :
    ReadsOnly (x >>= f) := by
  intro w quiet
  obtain ⟨tree, sink⟩ := first w quiet
  rw [run_bind]
  rcases ran : x.run.run w with ⟨_ | a, w'⟩
  · rw [ran] at tree sink
    exact ⟨tree, sink⟩
  · rw [ran] at tree sink
    obtain ⟨tree', sink'⟩ := rest a w' sink
    exact ⟨tree'.trans tree, sink'⟩

theorem readsOnly_pure (a : α) : ReadsOnly (pure a : Act α) := fun _ quiet => ⟨rfl, quiet⟩

theorem readsOnly_fail (e : Failure) : ReadsOnly (fail e : Act α) := fun _ quiet => ⟨rfl, quiet⟩

theorem readsOnly_files : ReadsOnly files := fun _ quiet => ⟨rfl, quiet⟩

theorem readsOnly_get : ReadsOnly (get : Act World) := fun _ quiet => ⟨rfl, quiet⟩

theorem readsOnly_clock : ReadsOnly clock := fun _ quiet => ⟨rfl, quiet⟩

theorem readsOnly_freshHex (digits : Nat) : ReadsOnly (freshHex digits) := fun _ quiet => ⟨rfl, quiet⟩

@[simp] theorem run_modify (f : World → World) (w : World) : (modify f : Act Unit).run.run w = (.ok (), f w) := rfl

theorem run_emit_quiet (ch : Logging.Channel) (level : Logging.Level) (message : String)
    (fields : List Logging.Field) {w : World} (quiet : w.sink = none) :
    ∃ log, (emit ch level message fields).run.run w = (.ok (), { w with log := log }) := by
  unfold emit
  split
  · exact ⟨w.log, rfl⟩
  · simp only [run_modify, quiet]
    exact ⟨_, rfl⟩

theorem readsOnly_emit (ch : Logging.Channel) (level : Logging.Level) (message : String)
    (fields : List Logging.Field) : ReadsOnly (emit ch level message fields) := by
  intro w quiet
  unfold emit
  split
  · exact ⟨rfl, quiet⟩
  · rw [run_modify]
    simp [quiet]

theorem ReadsOnly.attempt {x : Act α} (reads : ReadsOnly x) : ReadsOnly (attempt x) := by
  intro w quiet
  rw [run_attempt]
  obtain ⟨tree, sink⟩ := reads w quiet
  rcases ran : x.run.run w with ⟨_ | a, w'⟩
  · rw [ran] at tree sink
    exact ⟨tree, sink⟩
  · rw [ran] at tree sink
    exact ⟨tree, sink⟩

theorem run_readText_world (path : String) (w : World) : ((readText path).run.run w).2 = w := by
  unfold readText
  simp only [run_bind, run_files]
  split <;> rfl

theorem run_readJson_world {σ : Type} (path : String) (read : Json → Except Failure σ) (w : World) :
    ((readJson path read).run.run w).2 = w := by
  unfold readJson
  rw [run_bind]
  have same := run_readText_world path w
  rcases ran : (readText path).run.run w with ⟨_ | r, w'⟩
  · rw [ran] at same
    exact same
  · rw [ran] at same
    subst same
    dsimp only
    split
    · rfl
    · split
      · rfl
      · split <;> rfl

theorem readsOnly_readText (path : String) : ReadsOnly (readText path) := by
  intro w quiet
  rw [run_readText_world]
  exact ⟨rfl, quiet⟩

theorem readsOnly_readJson {σ : Type} (path : String) (read : Json → Except Failure σ) :
    ReadsOnly (readJson path read) := by
  intro w quiet
  rw [run_readJson_world]
  exact ⟨rfl, quiet⟩

/-! ## Predicates kept by actions -/

/-- An action keeps a predicate of the world: run from a world that has it, it leaves a
world that has it, whether it fails or not. -/
def Keeps (P : World → Prop) (x : Act α) : Prop := ∀ w, P w → P (x.run.run w).2

theorem Keeps.bind {P : World → Prop} {x : Act α} {f : α → Act β} (first : Keeps P x)
    (rest : ∀ a, Keeps P (f a)) : Keeps P (x >>= f) := by
  intro w holds
  have after := first w holds
  rw [run_bind]
  rcases ran : x.run.run w with ⟨_ | a, w'⟩
  · rw [ran] at after
    exact after
  · rw [ran] at after
    exact rest a w' after

theorem Keeps.attempt {P : World → Prop} {x : Act α} (kept : Keeps P x) : Keeps P (attempt x) := by
  intro w holds
  have after := kept w holds
  rw [run_attempt]
  rcases ran : x.run.run w with ⟨_ | a, w'⟩
  · rw [ran] at after
    exact after
  · rw [ran] at after
    exact after

theorem keeps_pure (P : World → Prop) (a : α) : Keeps P (pure a : Act α) := fun _ holds => holds

theorem keeps_fail (P : World → Prop) (e : Failure) : Keeps P (fail e : Act α) := fun _ holds => holds

/-- A predicate that only looks at the files and needs no logger open is kept by every
action that only reads. -/
theorem ReadsOnly.keeps {P : World → Prop} {x : Act α} (reads : ReadsOnly x) (quiet : ∀ w, P w → w.sink = none)
    (frame : ∀ w w', w'.tree = w.tree → w'.sink = none → P w → P w') : Keeps P x := by
  intro w holds
  obtain ⟨tree, sink⟩ := reads w (quiet w holds)
  exact frame w _ tree sink holds

/-! ## Locks and writes -/

/-- Taking a lock where the directory stands already: the lock file is added if it is
missing, and then either the lock fails or the guarded action runs. -/
theorem run_withLock {path : String} {body : Act α} {w : World}
    (made : w.tree.mkdirAll (parent path) = .ok w.tree) :
    ∃ t, (t = w.tree ∨ t = w.tree.put (lockPath path) (.file ⟨"", 0⟩)) ∧
      ((∃ e, (withLock path body).run.run w = (.error e, { w with tree := t })) ∨
        (withLock path body).run.run w = body.run.run { w with tree := t }) := by
  unfold withLock
  simp only [run_bind, run_files, made, run_setFiles]
  split
  · -- a directory stands where the lock goes
    refine ⟨w.tree, Or.inl rfl, ?_⟩
    simp only [run_bind, run_fail]
    exact Or.inl ⟨_, rfl⟩
  · refine ⟨w.tree, Or.inl rfl, ?_⟩
    simp only [run_bind, run_get]
    split
    · simp only [run_bind, run_fail]
      exact Or.inl ⟨_, rfl⟩
    · exact Or.inr rfl
  · refine ⟨_, Or.inr rfl, ?_⟩
    simp only [run_bind, run_setFiles, run_get]
    split
    · simp only [run_bind, run_fail]
      exact Or.inl ⟨_, rfl⟩
    · exact Or.inr rfl

/-- Where taking the lock of a document leaves the tree: its directory made, and the lock
file added if it was missing. -/
def Locked (t : Tree) (path : String) (t₀ : Tree) : Prop :=
  ∃ t₁, t.mkdirAll (parent path) = .ok t₁ ∧ (t₀ = t₁ ∨ t₀ = t₁.put (lockPath path) (.file ⟨"", 0⟩))

/-- A guarded action that succeeded ran on the tree with the lock taken, and the lock
changed nothing else. -/
theorem run_withLock_ok {path : String} {body : Act α} {w w' : World} {a : α}
    (ran : (withLock path body).run.run w = (.ok a, w')) :
    ∃ t, Locked w.tree path t ∧ body.run.run { w with tree := t } = (.ok a, w') := by
  unfold withLock at ran
  simp only [run_bind, run_files] at ran
  split at ran
  · cases ran
  · rename_i t₁ made
    simp only [run_setFiles, run_bind, run_files] at ran
    split at ran
    · cases ran
    · simp only [run_bind, run_get] at ran
      split at ran
      · cases ran
      · exact ⟨t₁, ⟨t₁, made, Or.inl rfl⟩, ran⟩
    · simp only [run_setFiles, run_bind, run_get] at ran
      split at ran
      · cases ran
      · exact ⟨_, ⟨t₁, made, Or.inr rfl⟩, ran⟩

theorem plain_lock {n : String} (named : Plain n) : Plain (n ++ ".lock") := by
  obtain ⟨nonempty, noSlash, notDot, notDots⟩ := named
  have longer : (n ++ ".lock").length = n.length + 5 := by
    rw [String.length_append]
    rfl
  refine ⟨?_, ?_, ?_, ?_⟩
  · simp
  · simpa using noSlash
  · intro dot
    have one : (".").length = 1 := rfl
    have := congrArg String.length dot
    omega
  · intro dots
    have two : ("..").length = 2 := rfl
    have := congrArg String.length dots
    omega

theorem lockPath_pathOf (ns : List String) (n : String) :
    lockPath (pathOf (ns ++ [n])) = pathOf (ns ++ [n ++ ".lock"]) := by
  rw [lockPath, pathOf_snoc_append]

theorem lockPath_ne {ns : List String} (plain : ∀ x ∈ ns, Plain x) {n : String} (named : Plain n) :
    lockPath (pathOf (ns ++ [n])) ≠ pathOf (ns ++ [n]) := by
  rw [lockPath_pathOf]
  intro same
  have names := (pathOf_append_inj plain (by simpa using plain_lock named) (by simpa using named)).mp same
  have := congrArg String.length (List.singleton_inj.mp names)
  simp at this

/-- Taking a lock whose directory and lock file stand already, and that no one holds,
changes nothing: the guarded action runs on the world as it was. -/
theorem run_withLock_standing {path : String} {body : Act α} {w : World}
    (made : w.tree.mkdirAll (parent path) = .ok w.tree) {d : FileData}
    (lockFile : w.tree.get? (lockPath path) = some (.file d)) (free : w.held.contains path = false) :
    (withLock path body).run.run w = body.run.run w := by
  unfold withLock
  simp only [run_bind, run_files, made, run_setFiles, lockFile, run_get, free, Bool.false_eq_true, if_false]

/-- Taking a lock that no one holds, where its directory stands and no directory is in its
place, never fails: the guarded action runs with the lock file added if it was missing. -/
theorem run_withLock_free {path : String} {w : World}
    (made : w.tree.mkdirAll (parent path) = .ok w.tree) (notDir : w.tree.get? (lockPath path) ≠ some .dir)
    (free : w.held.contains path = false) :
    ∃ t, (t = w.tree ∨ t = w.tree.put (lockPath path) (.file ⟨"", 0⟩)) ∧
      ∀ {γ : Type} (body : Act γ), (withLock path body).run.run w = body.run.run { w with tree := t } := by
  cases lock : w.tree.get? (lockPath path) with
  | none =>
    refine ⟨_, Or.inr rfl, fun body => ?_⟩
    unfold withLock
    simp only [run_bind, run_files, made, run_setFiles, lock, run_get, free, Bool.false_eq_true, if_false]
  | some entry =>
    cases entry with
    | dir => exact absurd lock notDir
    | file d =>
      refine ⟨w.tree, Or.inl rfl, fun body => ?_⟩
      unfold withLock
      simp only [run_bind, run_files, made, run_setFiles, lock, run_get, free, Bool.false_eq_true, if_false]

/-- Holding a lock runs the guarded action after taking it, from the world taking the lock
leaves, unless taking it failed. -/
theorem run_withLock_body (path : String) (body : Act α) (w : World) :
    (withLock path body).run.run w = match (withLock path (pure ())).run.run w with
      | (.ok (), w') => body.run.run w'
      | (.error e, w') => (.error e, w') := by
  unfold withLock
  simp only [run_bind, run_files]
  -- the lock is taken in the same steps whatever the guarded action is
  cases made : w.tree.mkdirAll (Disk.parent path) with
  | error e => rfl
  | ok t =>
    simp only [run_bind, run_setFiles, run_files]
    cases lock : t.get? (lockPath path) with
    | none =>
      simp only [run_bind, run_setFiles, run_get]
      split <;> simp only [run_bind, run_fail, run_pure]
    | some entry =>
      cases entry with
      | dir => simp only [run_bind, run_fail]
      | file data =>
        simp only [run_bind, run_get]
        split <;> simp only [run_bind, run_fail, run_pure]

/-- Writing a text replaces the file, or fails and changes nothing. -/
theorem run_writeText (path text : String) (w : World) :
    (writeText path text).run.run w = match w.tree.replaceFile path text with
      | .ok t => (.ok (), { w with tree := t })
      | .error e => (.error e, w) := by
  unfold writeText
  simp only [run_bind, run_files]
  cases replaced : w.tree.replaceFile path text with
  | ok t => simp only [run_setFiles]
  | error e => simp only [run_fail]

theorem run_writeText_ok {path text : String} {w w' : World} (ran : (writeText path text).run.run w = (.ok (), w')) :
    ∃ t, w.tree.replaceFile path text = .ok t ∧ w' = { w with tree := t } := by
  rw [run_writeText] at ran
  split at ran
  · rename_i t replaced
    cases ran
    exact ⟨t, replaced, rfl⟩
  · cases ran

/-- Writing an encoded document that failed changed nothing: the value had no encoding, or
replacing the file failed. -/
theorem run_writeEncoded_error {path : String} {e : Except String Json} {w w' : World} {f : Failure}
    (ran : (writeEncoded path e).run.run w = (.error f, w')) : w' = w := by
  cases e with
  | error why =>
    simp only [writeEncoded, run_fail] at ran
    cases ran
    rfl
  | ok j =>
    simp only [writeEncoded, writeJson, run_writeText] at ran
    split at ran
    · cases ran
    · cases ran
      rfl

/-- Writing an encoded document that succeeded replaced the file with the text of the
encoding. -/
theorem run_writeEncoded_ok {path : String} {e : Except String Json} {w w' : World}
    (ran : (writeEncoded path e).run.run w = (.ok (), w')) :
    ∃ j t, e = .ok j ∧ w.tree.replaceFile path (documentText j) = .ok t ∧ w' = { w with tree := t } := by
  cases e with
  | error why =>
    simp only [writeEncoded, run_fail] at ran
    cases ran
  | ok j =>
    simp only [writeEncoded, writeJson] at ran
    obtain ⟨t, replaced, rfl⟩ := run_writeText_ok ran
    exact ⟨j, t, rfl, replaced, rfl⟩

/-- A document holding an instant with no written form is refused and nothing is
written. -/
theorem run_writeJsonTimed (path : String) (times : List Clock.Instant) (j : Json) (w : World) :
    (writeJsonTimed path times j).run.run w = match times.findSome? Clock.Instant.encodingProblem? with
      | some problem => (.error (encodeFailure path problem), w)
      | none => (writeText path (documentText j)).run.run w := by
  unfold writeJsonTimed writeJson
  cases found : times.findSome? Clock.Instant.encodingProblem? with
  | none => rfl
  | some problem => rfl

theorem findSome?_encodingProblem_eq_none {times : List Clock.Instant} (writable : ∀ t ∈ times, t.writable = true) :
    times.findSome? Clock.Instant.encodingProblem? = none := by
  rw [List.findSome?_eq_none_iff]
  intro t mem
  simpa [Clock.Instant.writable] using writable t mem

theorem writable_of_findSome?_eq_none {times : List Clock.Instant}
    (none : times.findSome? Clock.Instant.encodingProblem? = none) : ∀ t ∈ times, t.writable = true := by
  rw [List.findSome?_eq_none_iff] at none
  intro t mem
  simpa [Clock.Instant.writable] using none t mem

/-! ## Reading files below existing directories -/

@[simp] theorem contents_of_text (text : String) : (⟨text, 0⟩ : FileData).contents = text := rfl

theorem fetch_of_get?_none {t : Tree} {xs : List String} (plain : ∀ x ∈ xs, Plain x) {n : String} (name : Plain n)
    (dirs : Tree.DirsTo t xs) (missing : t.get? (pathOf (xs ++ [n])) = none) : fetch t (pathOf (xs ++ [n])) = .ok none := by
  unfold fetch Tree.stat
  rw [Tree.look_child_of_none plain name dirs "stat" missing]

/-- Reading a file below existing directories gives its contents, unless it is over the
document limit. -/
theorem fetch_of_get?_file {t : Tree} {xs : List String} (plain : ∀ x ∈ xs, Plain x) {n : String} (name : Plain n)
    (dirs : Tree.DirsTo t xs) {d : FileData} (found : t.get? (pathOf (xs ++ [n])) = some (.file d)) :
    fetch t (pathOf (xs ++ [n])) = if d.size > maxDocumentBytes then
      .error ⟨.documentTooLarge, "document too large: " ++ pathOf (xs ++ [n]) ++ " is " ++ toString d.size ++ " bytes"⟩
    else .ok (some d.contents) := by
  unfold fetch Tree.stat
  rw [Tree.look_child_of_get? plain name dirs "stat" found]

theorem fetch_eq_ok_some {t : Tree} {p text : String} (fetched : fetch t p = .ok (some text)) :
    ∃ d, t.get? (clean p) = some (.file d) ∧ text = d.contents := by
  unfold fetch at fetched
  split at fetched
  · split at fetched <;> cases fetched
  · cases fetched
  · rename_i d stat
    split at fetched
    · cases fetched
    · cases fetched
      exact ⟨d, Tree.get?_of_look stat, rfl⟩

end Storage
end AgentMemory
