import AgentMemory.Storage.Processes
import AgentMemory.Proofs.Storage.Files

namespace AgentMemory
namespace Storage

open Disk

/-!
# Updates from many processes serialize

Processes updating one document (`Storage.Processes`) interleave their steps in any order,
and yet the updates behave as if they ran one at a time, in the order the processes took the
lock.

The argument is an invariant of the interleaved runs (`Serial`).  The processes that tried
to take the lock, newest first, explain the state: those that finished returned what their
updates return when run one after another in that order, and what is left of the holder's
update, run from the present world, ends where that serial run ends.  Only the holder of the
lock changes the world, and each of its steps moves the world and what is left of its update
together (`Call.rest_next`), so one step keeps the invariant (`Serial.step`) and so does every
run (`serial_of_reachable`).
-/

variable {σ : Type}

namespace Call

/-- What is left of a process's update in a phase, as an action. -/
def rest (c : Call σ) (path : String) : Phase σ → Act σ
  | .waiting => c.run path
  | .holding => do
    let loaded ← readJson path c.read
    applyChange path c.encode c.change loaded.isSome (loaded.getD c.empty)
  | .loaded existed doc => applyChange path c.encode c.change existed doc
  | .changed doc => do
    writeEncoded path (c.encode doc)
    return doc
  | .finished (.ok doc) => pure doc
  | .finished (.error e) => fail e

/-- An update run alone takes the lock, and then runs what is left of it from the world
taking the lock leaves. -/
theorem run_run (c : Call σ) (path : String) (w : World) :
    (c.run path).run.run w = match (takeLock path).run.run w with
      | (.ok (), w') => (c.rest path .holding).run.run w'
      | (.error e, w') => (.error e, w') := by
  have body : c.run path = withLock path (c.rest path .holding) := rfl
  rcases taken : (takeLock path).run.run w with ⟨_ | _, w'⟩ <;>
    simp only [body, run_withLock_body, show (withLock path (pure ())).run.run w = _ from taken]

theorem run_rest_finished (c : Call σ) (path : String) (r : Except Failure σ) (w : World) :
    (c.rest path (.finished r)).run.run w = (r, w) := by
  cases r <;> rfl

/-- A step of the process holding the lock moves the world and what is left of its update
together: what is left, run from before the step, ends where what is left after the step
ends, run from after it. -/
theorem rest_next (c : Call σ) (path : String) (w : World) {ph : Phase σ} (holds : ph.holds = true) :
    (c.rest path ph).run.run w = (c.rest path (c.next path w ph).1).run.run (c.next path w ph).2 := by
  cases ph with
  | waiting => cases holds
  | finished r => cases holds
  | holding =>
    simp only [rest, next, run_bind]
    rcases (readJson path c.read).run.run w with ⟨_ | loaded, w'⟩ <;> rfl
  | loaded existed doc =>
    simp only [rest, next, applyChange]
    rcases c.change existed doc with e | ⟨_ | _, doc'⟩
    · rfl
    · simp
    · rfl
  | changed doc =>
    simp only [rest, next, run_bind]
    rcases (writeEncoded path (c.encode doc)).run.run w with ⟨_ | u, w'⟩ <;> rfl

theorem next_finished (c : Call σ) (path : String) (w : World) {ph : Phase σ} (holds : ph.holds = true)
    (released : (c.next path w ph).1.holds = false) : ∃ r, (c.next path w ph).1 = .finished r := by
  cases ph with
  | waiting => cases holds
  | finished r => cases holds
  | holding | loaded _ _ | changed _ =>
    -- each of its steps ends in a phase that holds the lock or in a finished one
    simp only [next] at released ⊢
    split <;> simp_all [Phase.holds]

end Call

namespace System

@[simp] theorem setPhase_phase (s : System σ) (p q : Nat) (ph : Phase σ) :
    (s.setPhase p ph).phase q = if q = p then ph else s.phase q := rfl

@[simp] theorem setPhase_world (s : System σ) (p : Nat) (ph : Phase σ) : (s.setPhase p ph).world = s.world := rfl

@[simp] theorem setPhase_holder (s : System σ) (p : Nat) (ph : Phase σ) :
    (s.setPhase p ph).holder = s.holder := rfl

end System

/-! ## Running the updates one at a time -/

/-- The updates of the processes in `order`, the newest first, run one at a time from `w`:
the world after the last of them. -/
def serialWorld (path : String) (calls : Nat → Call σ) : List Nat → World → World
  | [], w => w
  | p :: earlier, w => (((calls p).run path).run.run (serialWorld path calls earlier w)).2

/-- What the update of process `p` returns when it runs alone after the updates of
`earlier` (the newest first) ran one at a time from `w`. -/
def serialResult (path : String) (calls : Nat → Call σ) (earlier : List Nat) (w : World) (p : Nat) :
    Except Failure σ :=
  (((calls p).run path).run.run (serialWorld path calls earlier w)).1

theorem split_cons {p q : Nat} {order newer earlier : List Nat} (split : p :: order = newer ++ q :: earlier) :
    (q = p ∧ newer = [] ∧ earlier = order) ∨ ∃ newer', order = newer' ++ q :: earlier := by
  cases newer with
  | nil =>
    simp only [List.nil_append, List.cons.injEq] at split
    exact .inl ⟨split.1.symm, rfl, split.2.symm⟩
  | cons x xs =>
    simp only [List.cons_append, List.cons.injEq] at split
    exact .inr ⟨xs, split.2⟩

theorem split_first {p : Nat} {earlier newer earlier' : List Nat} (nodup : (p :: earlier).Nodup)
    (split : p :: earlier = newer ++ p :: earlier') : earlier' = earlier := by
  rcases split_cons split with ⟨-, -, same⟩ | ⟨newer', later⟩
  · exact same
  · exact absurd (by rw [later]; simp) (List.nodup_cons.mp nodup).1

/-! ## The invariant -/

/-- A state of processes updating the document at `path` from the world `w₀`, explained by
running their updates one at a time: `order` lists the processes that tried to take the lock,
the newest first. -/
structure Serial (path : String) (calls : Nat → Call σ) (w₀ : World) (s : System σ) (order : List Nat) :
    Prop where
  nodup : order.Nodup
  /-- A process that never tried to take the lock is waiting, or gave up. -/
  outside : ∀ p ∉ order, s.phase p = .waiting ∨ s.phase p = .finished (.error (lockTimeoutFailure path))
  /-- A process that tried, and holds no lock, finished as its update finishes run alone after
  the earlier ones. -/
  finished : ∀ newer p earlier, order = newer ++ p :: earlier → s.holder ≠ some p →
    s.phase p = .finished (serialResult path calls earlier w₀ p)
  /-- With no holder, the world is where the serial run ends. -/
  idle : s.holder = none → s.world = serialWorld path calls order w₀
  /-- The holder is the newest, and what is left of its update, run from the present world,
  ends as its update does run alone after the earlier ones. -/
  busy : ∀ h, s.holder = some h → ∃ earlier, order = h :: earlier ∧ (s.phase h).holds = true ∧
    ((calls h).rest path (s.phase h)).run.run s.world = ((calls h).run path).run.run (serialWorld path calls earlier w₀)

namespace Serial

variable {path : String} {calls : Nat → Call σ} {w₀ : World} {s : System σ} {order : List Nat}

theorem not_mem_of_waiting (inv : Serial path calls w₀ s order) {p : Nat} (waiting : s.phase p = .waiting) :
    p ∉ order := by
  intro mem
  obtain ⟨newer, earlier, split⟩ := List.append_of_mem mem
  by_cases held : s.holder = some p
  · obtain ⟨_, _, holds, _⟩ := inv.busy p held
    rw [waiting] at holds
    cases holds
  · have done := inv.finished newer p earlier split held
    rw [waiting] at done
    cases done

theorem start : Serial path calls w₀ (System.start w₀) [] where
  nodup := List.nodup_nil
  outside := fun _ _ => .inl rfl
  finished := fun newer p earlier split _ => by simp at split
  idle := fun _ => rfl
  busy := fun _ held => by cases held

/-- A process that tries to take the lock no one holds is the newest to try: it holds the
lock, and what is left of its update is all of it but taking the lock, or it finished with
the failure of taking it, as it does run alone. -/
theorem take (inv : Serial path calls w₀ s order) {p : Nat} (waiting : s.phase p = .waiting)
    (free : s.holder = none) : Serial path calls w₀ (s.took p ((takeLock path).run.run s.world)) (p :: order) := by
  have fresh : p ∉ order := inv.not_mem_of_waiting waiting
  have alone := (calls p).run_run path s.world
  have outside : ∀ q ∉ p :: order, q ≠ p ∧ q ∉ order := fun q out => by simpa using out
  have earlier : ∀ newer q earlier, p :: order = newer ++ q :: earlier → q ≠ p →
      s.phase q = .finished (serialResult path calls earlier w₀ q) := by
    intro newer q earlier split other
    rcases split_cons split with ⟨same, -, -⟩ | ⟨newer', later⟩
    · exact absurd same other
    · exact inv.finished newer' q earlier later (by rw [free]; simp)
  rcases taken : (takeLock path).run.run s.world with ⟨_ | _, w'⟩
  · rw [taken, inv.idle free] at alone
    refine ⟨List.nodup_cons.mpr ⟨fresh, inv.nodup⟩, fun q out => ?_, fun newer q earlier' split _ => ?_,
      fun _ => ?_, fun h held => ?_⟩
    · simpa [System.took, (outside q out).1] using inv.outside q (outside q out).2
    · by_cases same : q = p
      · subst same
        have first := split_first (List.nodup_cons.mpr ⟨fresh, inv.nodup⟩) split
        subst first
        simp [System.took, serialResult, alone]
      · simpa [System.took, same] using earlier newer q earlier' split same
    · simp [System.took, serialWorld, alone]
    · simp [System.took, free] at held
  · rw [taken, inv.idle free] at alone
    refine ⟨List.nodup_cons.mpr ⟨fresh, inv.nodup⟩, fun q out => ?_, fun newer q earlier' split notHeld => ?_,
      fun idle => ?_, fun h held => ?_⟩
    · simpa [System.took, (outside q out).1] using inv.outside q (outside q out).2
    · have other : q ≠ p := fun same => notHeld (by simp [System.took, same])
      simpa [System.took, other] using earlier newer q earlier' split other
    · simp [System.took] at idle
    · simp only [System.took, Option.some.injEq] at held
      subst held
      exact ⟨order, rfl, by simp [System.took, Phase.holds], by simpa [System.took] using alone.symm⟩

theorem giveUp (inv : Serial path calls w₀ s order) {p : Nat} (waiting : s.phase p = .waiting) :
    Serial path calls w₀ (s.setPhase p (.finished (.error (lockTimeoutFailure path)))) order := by
  have fresh := inv.not_mem_of_waiting waiting
  refine ⟨inv.nodup, fun q out => ?_, fun newer q earlier split notHeld => ?_, inv.idle, fun h held => ?_⟩
  · by_cases same : q = p
    · simp [same]
    · simpa [same] using inv.outside q out
  · have other : q ≠ p := by
      rintro rfl
      exact fresh (by rw [split]; simp)
    simpa [other] using inv.finished newer q earlier split notHeld
  · obtain ⟨earlier, split, holds, rest⟩ := inv.busy h held
    have other : h ≠ p := by
      rintro rfl
      rw [waiting] at holds
      cases holds
    exact ⟨earlier, split, by simpa [other] using holds, by simpa [other] using rest⟩

/-- A step of the holder: it still holds the lock, with less of its update left, or it
finished as its update finishes run alone, and released the lock. -/
theorem advance (inv : Serial path calls w₀ s order) {h : Nat} (held : s.holder = some h) :
    Serial path calls w₀ (s.advanced calls path h) order := by
  obtain ⟨earlier, split, holds, rest⟩ := inv.busy h held
  have moved := (calls h).rest_next path s.world holds
  have released := (calls h).next_finished path s.world holds
  rcases stepped : (calls h).next path s.world (s.phase h) with ⟨ph, w'⟩
  rw [stepped] at moved released
  rw [moved] at rest
  simp only [System.advanced, stepped]
  refine ⟨inv.nodup, fun q out => ?_, fun newer q earlier' split' notHeld => ?_, fun idle => ?_, fun h' held' => ?_⟩
  · have other : q ≠ h := by
      rintro rfl
      exact out (by rw [split]; simp)
    simpa [other] using inv.outside q out
  · by_cases same : q = h
    · -- the holder released the lock, so it finished, as its update does run alone
      subst same
      have free : ph.holds = false := by
        cases free : ph.holds
        · rfl
        · simp [free] at notHeld
      obtain ⟨r, rfl⟩ := released free
      have first := split_first (split ▸ inv.nodup) (split ▸ split')
      subst first
      rw [Call.run_rest_finished] at rest
      simp [serialResult, ← rest]
    · have notHeld' : s.holder ≠ some q := by
        rw [held]
        simpa using Ne.symm same
      simpa [same] using inv.finished newer q earlier' split' notHeld'
  · have free : ph.holds = false := by
      cases free : ph.holds
      · rfl
      · simp [free] at idle
    obtain ⟨r, rfl⟩ := released free
    rw [Call.run_rest_finished] at rest
    rw [split, serialWorld, ← rest]
  · have both : ph.holds = true ∧ h = h' := by
      cases free : ph.holds <;> simp_all
    obtain ⟨stillHolds, rfl⟩ := both
    exact ⟨earlier, split, by simpa using stillHolds, by simpa using rest⟩

/-- One step of any process keeps the state explained by the serial runs. -/
theorem step (inv : Serial path calls w₀ s order) {t : System σ} (step : Step path calls s t) :
    ∃ order', Serial path calls w₀ t order' := by
  cases step with
  | take waiting free => exact ⟨_, inv.take waiting free⟩
  | giveUp waiting => exact ⟨_, inv.giveUp waiting⟩
  | advance held => exact ⟨_, inv.advance held⟩

end Serial

/-- Every state that processes reach, in any interleaving of their steps, is explained by
the serial runs. -/
theorem serial_of_reachable {path : String} {calls : Nat → Call σ} {w₀ : World} {s : System σ}
    (reach : Reachable path calls w₀ s) : ∃ order, Serial path calls w₀ s order := by
  induction reach with
  | start => exact ⟨[], Serial.start⟩
  | step _ step ih =>
    obtain ⟨order, inv⟩ := ih
    exact inv.step step

/-! ## The document's file -/

/-- Taking a lock, whether it succeeds or fails, leaves the tree as it was or as `Locked`
says. -/
theorem run_takeLock_world (path : String) (w : World) :
    ∃ t, (t = w.tree ∨ Locked w.tree path t) ∧ ((takeLock path).run.run w).2 = { w with tree := t } := by
  unfold takeLock withLock
  simp only [run_bind, run_files]
  cases made : w.tree.mkdirAll (Disk.parent path) with
  | error e => exact ⟨w.tree, .inl rfl, rfl⟩
  | ok t₁ =>
    simp only [run_bind, run_setFiles, run_files]
    cases lock : t₁.get? (lockPath path) with
    | none =>
      refine ⟨_, .inr ⟨t₁, made, .inr rfl⟩, ?_⟩
      simp only [run_bind, run_setFiles, run_get]
      split <;> rfl
    | some entry =>
      refine ⟨t₁, .inr ⟨t₁, made, .inl rfl⟩, ?_⟩
      cases entry with
      | dir => rfl
      | file data =>
        simp only [run_bind, run_get]
        split <;> rfl

theorem takeLock_eq_ok {path : String} {w w' : World} (taken : (takeLock path).run.run w = (.ok (), w')) :
    ∃ t, Locked w.tree path t ∧ w' = { w with tree := t } := by
  obtain ⟨t, locked, body⟩ := run_withLock_ok taken
  rw [run_pure] at body
  exact ⟨t, locked, (Prod.mk.inj body).2.symm⟩

theorem Call.next_world (c : Call σ) (path : String) (w : World) {ph : Phase σ}
    (stillHolds : (c.next path w ph).1.holds = true) : (c.next path w ph).2 = w := by
  cases ph with
  | holding =>
    have same := run_readJson_world path c.read w
    simp only [Call.next]
    rcases ran : (readJson path c.read).run.run w with ⟨_ | _, w'⟩ <;> simpa [ran] using same
  | loaded existed doc =>
    simp only [Call.next]
    split <;> rfl
  | changed doc =>
    simp only [Call.next] at stillHolds
    split at stillHolds <;> simp [Phase.holds] at stillHolds
  | waiting => rfl
  | finished r => rfl

section File

variable {dirs : List String} {n : String}

/-- Taking the lock of a document reached through plain names leaves the document's file as
it was: the directories made are above it, and the lock file is beside it. -/
theorem Locked.get?_document (plain : ∀ x ∈ dirs, Plain x) (name : Plain n) {t t' : Tree}
    (locked : Locked t (pathOf (dirs ++ [n])) t') :
    t'.get? (pathOf (dirs ++ [n])) = t.get? (pathOf (dirs ++ [n])) := by
  obtain ⟨t₁, made, rfl | rfl⟩ := locked
  all_goals
    rw [parent_pathOf plain name] at made
    have above : ∀ i ≤ dirs.length, pathOf (dirs ++ [n]) ≠ pathOf (dirs.take i) := fun i le =>
      pathOf_ne_of_length_ne (Tree.Plain.snoc plain name) (fun x mem => plain x (List.mem_of_mem_take mem))
        (by simp; omega)
    have made := (Tree.mkdirAll_eq_ok plain made).2 _ above
  · exact made
  · rw [Tree.get?_put, if_neg (lockPath_ne plain name).symm, made]

theorem takeLock_get?_document (plain : ∀ x ∈ dirs, Plain x) (name : Plain n) (w : World) :
    ((takeLock (pathOf (dirs ++ [n]))).run.run w).2.tree.get? (pathOf (dirs ++ [n])) =
      w.tree.get? (pathOf (dirs ++ [n])) := by
  obtain ⟨t, same | locked, ran⟩ := run_takeLock_world (pathOf (dirs ++ [n])) w
  · rw [ran, same]
  · rw [ran]
    exact locked.get?_document plain name

/-- What one update, run alone, does to the document's file: it leaves it as it was, unless
its change, run on the document as read once the lock was taken, asked to write a value that
encodes; then the update returned that value and the file holds the text of its encoding. -/
theorem Call.run_document (plain : ∀ x ∈ dirs, Plain x) (name : Plain n) (c : Call σ) {w w' : World}
    {r : Except Failure σ} (ran : (c.run (pathOf (dirs ++ [n]))).run.run w = (r, w')) :
    w'.tree.get? (pathOf (dirs ++ [n])) = w.tree.get? (pathOf (dirs ++ [n])) ∨
      ∃ t loaded doc j, Locked w.tree (pathOf (dirs ++ [n])) t ∧
        (readJson (pathOf (dirs ++ [n])) c.read).run.run { w with tree := t } = (.ok loaded, { w with tree := t }) ∧
        c.change loaded.isSome (loaded.getD c.empty) = .ok (true, doc) ∧ c.encode doc = .ok j ∧ r = .ok doc ∧
        w'.tree.get? (pathOf (dirs ++ [n])) = some (.file ⟨documentText j, 0⟩) := by
  rw [Call.run_run] at ran
  rcases taken : (takeLock (pathOf (dirs ++ [n]))).run.run w with ⟨_ | _, w₁⟩
  · -- taking the lock failed, having made at most the directories and the lock file
    rw [taken] at ran
    cases ran
    have file := takeLock_get?_document plain name w
    rw [taken] at file
    exact .inl file
  · rw [taken] at ran
    obtain ⟨t, locked, rfl⟩ := takeLock_eq_ok taken
    have kept := locked.get?_document plain name
    simp only [Call.rest, run_bind] at ran
    have same := run_readJson_world (pathOf (dirs ++ [n])) c.read { w with tree := t }
    rcases read : (readJson (pathOf (dirs ++ [n])) c.read).run.run { w with tree := t } with ⟨_ | loaded, w₂⟩
    · -- the document could not be read
      rw [read] at ran same
      cases ran
      simp only at same
      rw [same]
      exact .inl kept
    · rw [read] at ran same
      subst same
      simp only [applyChange] at ran
      rcases changed : c.change loaded.isSome (loaded.getD c.empty) with e | ⟨_ | _, doc⟩
      · -- the change failed
        rw [changed] at ran
        cases ran
        exact .inl kept
      · -- the change asked to write nothing
        rw [changed] at ran
        simp only [Bool.false_eq_true, if_false, run_pure] at ran
        cases ran
        exact .inl kept
      · rw [changed] at ran
        simp only [if_true, run_bind] at ran
        rcases wrote : (writeEncoded (pathOf (dirs ++ [n])) (c.encode doc)).run.run { w with tree := t } with
          ⟨_ | _, w₃⟩
        · -- the value had no encoding, or replacing the file failed: nothing was written
          rw [wrote] at ran
          cases ran
          rw [run_writeEncoded_error wrote]
          exact .inl kept
        · rw [wrote] at ran
          simp only [run_pure] at ran
          cases ran
          obtain ⟨j, t', encoded, replaced, rfl⟩ := run_writeEncoded_ok wrote
          obtain ⟨made, -, -, rfl⟩ := Tree.replaceFile_eq_ok replaced
          refine .inr ⟨t, loaded, doc, j, locked, read, changed, encoded, rfl, ?_⟩
          simp [Tree.get?_put, clean_pathOf (Tree.Plain.snoc plain name)]

/-- After updates run one at a time, the document's file is as it was at the start, or it
holds the encoding of the value one of them returned: that one wrote it, and the later ones
left it. -/
theorem serialWorld_document (plain : ∀ x ∈ dirs, Plain x) (name : Plain n) (calls : Nat → Call σ) (w₀ : World)
    (order : List Nat) :
    (serialWorld (pathOf (dirs ++ [n])) calls order w₀).tree.get? (pathOf (dirs ++ [n])) =
        w₀.tree.get? (pathOf (dirs ++ [n])) ∨
      ∃ newer p earlier doc j, order = newer ++ p :: earlier ∧
        serialResult (pathOf (dirs ++ [n])) calls earlier w₀ p = .ok doc ∧ (calls p).encode doc = .ok j ∧
        (serialWorld (pathOf (dirs ++ [n])) calls (p :: earlier) w₀).tree.get? (pathOf (dirs ++ [n])) =
          some (.file ⟨documentText j, 0⟩) ∧
        (serialWorld (pathOf (dirs ++ [n])) calls order w₀).tree.get? (pathOf (dirs ++ [n])) =
          some (.file ⟨documentText j, 0⟩) := by
  induction order with
  | nil => exact .inl rfl
  | cons p earlier ih =>
    rcases ran : ((calls p).run (pathOf (dirs ++ [n]))).run.run (serialWorld (pathOf (dirs ++ [n])) calls earlier w₀)
      with ⟨r, w'⟩
    have world : serialWorld (pathOf (dirs ++ [n])) calls (p :: earlier) w₀ = w' := by
      simp [serialWorld, ran]
    rcases (calls p).run_document plain name ran with same | ⟨t, loaded, doc, j, -, -, -, encoded, rfl, wrote⟩
    · -- the newest update left the file, so it is as the earlier ones left it
      rcases ih with initial | ⟨newer, q, earlier', doc, j, split, result, encoded, put, kept⟩
      · exact .inl (by rw [world, same, initial])
      · exact .inr ⟨p :: newer, q, earlier', doc, j, by rw [split]; rfl, result, encoded, put,
          by rw [world, same, kept]⟩
    · exact .inr ⟨[], p, earlier, doc, j, rfl, by simp [serialResult, ran], encoded, by rw [world]; exact wrote,
        by rw [world]; exact wrote⟩

/-- While a process holds the lock, the document's file is as the updates before it left it:
taking the lock, reading and changing write nothing. -/
def Unwritten (path : String) (calls : Nat → Call σ) (w₀ : World) (s : System σ) (order : List Nat) : Prop :=
  ∀ h, s.holder = some h → ∃ earlier, order = h :: earlier ∧
    s.world.tree.get? path = (serialWorld path calls earlier w₀).tree.get? path

variable {calls : Nat → Call σ} {w₀ : World} {s : System σ}

/-- Every state that processes reach is explained by the serial runs, and the file of a
document reached through plain names is, while a process holds the lock, as the updates before
it left it. -/
theorem unwritten_of_reachable (plain : ∀ x ∈ dirs, Plain x) (name : Plain n)
    (reach : Reachable (pathOf (dirs ++ [n])) calls w₀ s) :
    ∃ order, Serial (pathOf (dirs ++ [n])) calls w₀ s order ∧ Unwritten (pathOf (dirs ++ [n])) calls w₀ s order := by
  induction reach with
  | start => exact ⟨[], Serial.start, fun _ held => by cases held⟩
  | @step s t _ step ih =>
    obtain ⟨order, inv, unwritten⟩ := ih
    cases step with
    | @take p waiting free =>
      refine ⟨_, inv.take waiting free, fun h held => ?_⟩
      have file := takeLock_get?_document plain name s.world
      rcases taken : (takeLock (pathOf (dirs ++ [n]))).run.run s.world with ⟨_ | _, w'⟩
      · rw [taken] at held
        simp [System.took, free] at held
      · rw [taken] at held file
        simp only [System.took, Option.some.injEq] at held
        subst held
        exact ⟨order, rfl, by simpa [System.took, inv.idle free] using file⟩
    | giveUp waiting => exact ⟨_, inv.giveUp waiting, fun h held => by simpa using unwritten h held⟩
    | @advance p held =>
      refine ⟨_, inv.advance held, fun h held' => ?_⟩
      obtain ⟨earlier, split, file⟩ := unwritten p held
      have world := @Call.next_world _ (calls p) (pathOf (dirs ++ [n])) s.world (s.phase p)
      rcases stepped : (calls p).next (pathOf (dirs ++ [n])) s.world (s.phase p) with ⟨ph, w'⟩
      simp only [stepped] at world
      simp only [System.advanced, stepped] at held' ⊢
      cases holds : ph.holds
      · simp [holds] at held'
      · simp only [holds, if_true, Option.some.injEq] at held'
        subst held'
        rw [world holds]
        exact ⟨earlier, split, file⟩

/-- At every moment the file of a document reached through plain names holds what the updates
finished so far, run one at a time in the order they took the lock, left there; each of them
finished as it does in that serial run. -/
theorem file_of_reachable (plain : ∀ x ∈ dirs, Plain x) (name : Plain n)
    (reach : Reachable (pathOf (dirs ++ [n])) calls w₀ s) :
    ∃ done : List Nat, done.Nodup ∧
      (∀ newer p earlier, done = newer ++ p :: earlier →
        s.phase p = .finished (serialResult (pathOf (dirs ++ [n])) calls earlier w₀ p)) ∧
      s.world.tree.get? (pathOf (dirs ++ [n])) = (serialWorld (pathOf (dirs ++ [n])) calls done w₀).tree.get? (pathOf (dirs ++ [n])) := by
  obtain ⟨order, inv, unwritten⟩ := unwritten_of_reachable plain name reach
  cases held : s.holder with
  | none =>
    exact ⟨order, inv.nodup, fun newer p earlier split => inv.finished newer p earlier split (by simp [held]),
      by rw [inv.idle held]⟩
  | some h =>
    -- the holder has written nothing yet, so the file is as the ones before it left it
    obtain ⟨earlier, split, file⟩ := unwritten h held
    have nodup : (h :: earlier).Nodup := split ▸ inv.nodup
    refine ⟨earlier, (List.nodup_cons.mp nodup).2, fun newer p earlier' later => ?_, file⟩
    have other : p ≠ h := by
      rintro rfl
      exact (List.nodup_cons.mp nodup).1 (by rw [later]; simp)
    exact inv.finished (h :: newer) p earlier' (by rw [split, later]; rfl) (by rw [held]; simpa using Ne.symm other)

end File

/-! ## Updates from many processes -/

/-- Whenever no process holds the lock, the world and every result are those of the updates
run one at a time in the order the processes took the lock; a process that never tried to take
it is waiting, or gave up. -/
theorem serializes_when_idle {path : String} {calls : Nat → Call σ} {w₀ : World} {s : System σ}
    (reach : Reachable path calls w₀ s) (idle : s.holder = none) :
    ∃ order : List Nat, order.Nodup ∧ s.world = serialWorld path calls order w₀ ∧
      (∀ newer p earlier, order = newer ++ p :: earlier →
        s.phase p = .finished (serialResult path calls earlier w₀ p)) ∧
      ∀ p ∉ order, s.phase p = .waiting ∨ s.phase p = .finished (.error (lockTimeoutFailure path)) := by
  obtain ⟨order, inv⟩ := serial_of_reachable reach
  exact ⟨order, inv.nodup, inv.idle idle,
    fun newer p earlier split => inv.finished newer p earlier split (by simp [idle]), inv.outside⟩

/-- Updates of one document from any number of processes, in any interleaving of their steps,
behave as the same updates run one at a time in the order the processes took the lock.
Whenever no process holds the lock, the world and every result are those of that serial run.
At every moment the document's file holds what the updates finished so far left there, run in
that order, and after a serial run the file is as it was or holds, whole, the encoding of the
value one update returned and wrote; so a reader that takes no lock finds the file as it was
or as a finished update wrote it.  And an update changes the file only by replacing it with the encoding of the
value its change asked to write, having read the document under the lock, and then succeeds
with that value: an update that cannot read the document, whose change fails or writes
nothing, or whose value has no encoding leaves the file as it was. -/
theorem updates_serialize {dirs : List String} {n path : String} (plain : ∀ x ∈ dirs, Plain x) (name : Plain n)
    (located : path = pathOf (dirs ++ [n])) (calls : Nat → Call σ) (w₀ : World) :
    (∀ s, Reachable path calls w₀ s → s.holder = none →
      ∃ order : List Nat, order.Nodup ∧ s.world = serialWorld path calls order w₀ ∧
        (∀ newer p earlier, order = newer ++ p :: earlier →
          s.phase p = .finished (serialResult path calls earlier w₀ p)) ∧
        ∀ p ∉ order, s.phase p = .waiting ∨ s.phase p = .finished (.error (lockTimeoutFailure path))) ∧
    (∀ s, Reachable path calls w₀ s →
      ∃ done : List Nat, done.Nodup ∧
        (∀ newer p earlier, done = newer ++ p :: earlier →
          s.phase p = .finished (serialResult path calls earlier w₀ p)) ∧
        s.world.tree.get? path = (serialWorld path calls done w₀).tree.get? path) ∧
    (∀ order : List Nat, (serialWorld path calls order w₀).tree.get? path = w₀.tree.get? path ∨
      ∃ newer p earlier doc j, order = newer ++ p :: earlier ∧ serialResult path calls earlier w₀ p = .ok doc ∧
        (calls p).encode doc = .ok j ∧
        (serialWorld path calls (p :: earlier) w₀).tree.get? path = some (.file ⟨documentText j, 0⟩) ∧
        (serialWorld path calls order w₀).tree.get? path = some (.file ⟨documentText j, 0⟩)) ∧
    ∀ (c : Call σ) (w w' : World) (r : Except Failure σ), (c.run path).run.run w = (r, w') →
      w'.tree.get? path = w.tree.get? path ∨
        ∃ t loaded doc j, Locked w.tree path t ∧
          (readJson path c.read).run.run { w with tree := t } = (.ok loaded, { w with tree := t }) ∧
          c.change loaded.isSome (loaded.getD c.empty) = .ok (true, doc) ∧ c.encode doc = .ok j ∧
          r = .ok doc ∧ w'.tree.get? path = some (.file ⟨documentText j, 0⟩) := by
  subst located
  exact ⟨fun _ reach idle => serializes_when_idle reach idle, fun _ reach => file_of_reachable plain name reach,
    serialWorld_document plain name calls w₀, fun c _ _ _ ran => c.run_document plain name ran⟩

/-! ## A change that cannot be written -/

/-- The states of process `0` running its update while no other process moves: it tries to
take the lock, and then takes `k` more steps. -/
def soloRun (path : String) (calls : Nat → Call σ) (w : World) : Nat → System σ
  | 0 => (System.start w).took 0 ((takeLock path).run.run w)
  | k + 1 => (soloRun path calls w k).advanced calls path 0

/-- Process `0` running alone reaches each of its states, as long as it held the lock before
each step. -/
theorem soloRun_reachable {path : String} {calls : Nat → Call σ} {w : World} {k : Nat}
    (held : ∀ i < k, (soloRun path calls w i).holder = some 0) : Reachable path calls w (soloRun path calls w k) := by
  induction k with
  | zero => exact .step .start (.take rfl rfl)
  | succ k ih =>
    exact .step (ih fun i lt => held i (by omega)) (.advance (held k (by omega)))

/-- A document holding one instant, which an update sets to `t`.  An instant is written in its
RFC 3339 form, which instants outside the years 0 to 9999 lack. -/
def stampCall (t : Clock.Instant) : Call Clock.Instant where
  read := fun j => match j with
    | .str text => match Clock.Instant.parseStrict text with
      | some t => .ok t
      | none => .error (Failure.plain ("invalid stamp " ++ text))
    | _ => .error (Failure.plain "stamp is not a string")
  empty := ⟨0, 0⟩
  encode := fun t => match t.encodingProblem? with
    | some problem => .error (instantEncodingText problem)
    | none => .ok (.str t.rfc3339)
  change := fun _ _ => .ok (true, t)

/-- The first instant of the year 10000. -/
def yearTenThousand : Clock.Instant := ⟨253402300800000000000, 0⟩

/-- A world with nothing stored. -/
def bareWorld : World := { tree := ⟨[("/", .dir)]⟩, now := ⟨0, 0⟩ }

/-- Processes that all stamp the document with the first instant of the year 10000. -/
def farStamps : Nat → Call Clock.Instant := fun _ => stampCall yearTenThousand

deriving instance DecidableEq for Phase

theorem farStamp_held : ∀ i < 3, (soloRun "/m/stamp.json" farStamps bareWorld i).holder = some 0 := by
  decide +kernel

/-- An update whose change asks to write a value with no encoding fails, and the change is
lost: the document stays missing. -/
theorem unencodable_change_is_lost :
    (farStamps 0).change false (farStamps 0).empty = .ok (true, yearTenThousand) ∧
      Reachable "/m/stamp.json" farStamps bareWorld (soloRun "/m/stamp.json" farStamps bareWorld 3) ∧
      (soloRun "/m/stamp.json" farStamps bareWorld 3).holder = none ∧
      (soloRun "/m/stamp.json" farStamps bareWorld 3).phase 0 =
        .finished (.error (encodeFailure "/m/stamp.json" "year outside of range [0,9999]")) ∧
      ((soloRun "/m/stamp.json" farStamps bareWorld 3).world.tree.get? "/m/stamp.json").isNone = true :=
  ⟨rfl, soloRun_reachable farStamp_held, by decide +kernel, by decide +kernel, by decide +kernel⟩

deriving instance DecidableEq for FileData, Entry

/-- Processes stamping one document: process `1` with an instant that has no encoding, every
other process with the epoch. -/
def twoStamps : Nat → Call Clock.Instant := fun p => if p = 1 then stampCall yearTenThousand else stampCall ⟨0, 0⟩

/-- Process `1` takes the lock first and runs its update to its end, while process `2` gives
up waiting; then process `0` takes the lock and runs its update. -/
def interleavedStamps : System Clock.Instant :=
  let path := "/m/stamp.json"
  let taken := (System.start bareWorld).took 1 ((takeLock path).run.run bareWorld)
  let gaveUp := taken.setPhase 2 (.finished (.error (lockTimeoutFailure path)))
  let first := ((gaveUp.advanced twoStamps path 1).advanced twoStamps path 1).advanced twoStamps path 1
  let retaken := first.took 0 ((takeLock path).run.run first.world)
  ((retaken.advanced twoStamps path 0).advanced twoStamps path 0).advanced twoStamps path 0

theorem interleavedStamps_reachable : Reachable "/m/stamp.json" twoStamps bareWorld interleavedStamps := by
  have begun : Reachable "/m/stamp.json" twoStamps bareWorld (System.start bareWorld) := .start
  have taken := begun.step (.take (p := 1) rfl rfl)
  have gaveUp := taken.step (.giveUp (p := 2) (by decide +kernel))
  have read := gaveUp.step (.advance (p := 1) (by decide +kernel))
  have changed := read.step (.advance (p := 1) (by decide +kernel))
  have failed := changed.step (.advance (p := 1) (by decide +kernel))
  have retaken := failed.step (.take (p := 0) (by decide +kernel) (by decide +kernel))
  have read' := retaken.step (.advance (p := 0) (by decide +kernel))
  have changed' := read'.step (.advance (p := 0) (by decide +kernel))
  exact changed'.step (.advance (p := 0) (by decide +kernel))

/-- The interleaved stamping run ends with no process holding the lock, as the serial run of
an order in which both processes that took the lock stand; the document holds the epoch,
which the second update wrote after the first failed to write its stamp. -/
theorem interleaved_stamps_serialize :
    (∀ x ∈ ["m"], Plain x) ∧ Plain "stamp.json" ∧ "/m/stamp.json" = pathOf (["m"] ++ ["stamp.json"]) ∧
      interleavedStamps.holder = none ∧
      ∃ order : List Nat, order.Nodup ∧ 0 ∈ order ∧ 1 ∈ order ∧
        interleavedStamps.world = serialWorld "/m/stamp.json" twoStamps order bareWorld ∧
        interleavedStamps.world.tree.get? "/m/stamp.json" =
          some (.file ⟨documentText (.str (⟨0, 0⟩ : Clock.Instant).rfc3339), 0⟩) := by
  have plain : ∀ x ∈ ["m"], Plain x := by
    intro x mem
    simp only [List.mem_singleton] at mem
    subst mem
    exact ⟨by decide, by decide, by decide, by decide⟩
  have name : Plain "stamp.json" := ⟨by decide, by decide, by decide, by decide⟩
  have located : "/m/stamp.json" = pathOf (["m"] ++ ["stamp.json"]) := by decide
  have idle : interleavedStamps.holder = none := by decide +kernel
  obtain ⟨order, nodup, world, -, outside⟩ :=
    (updates_serialize plain name located twoStamps bareWorld).1 _ interleavedStamps_reachable idle
  -- a process that neither waits nor gave up took the lock, so it stands in the order
  have ordered : ∀ p, interleavedStamps.phase p ≠ .waiting →
      interleavedStamps.phase p ≠ .finished (.error (lockTimeoutFailure "/m/stamp.json")) → p ∈ order := by
    intro p moved stayed
    by_contra out
    rcases outside p out with waiting | gaveUp
    · exact moved waiting
    · exact stayed gaveUp
  exact ⟨plain, name, located, idle, order, nodup, ordered 0 (by decide +kernel) (by decide +kernel),
    ordered 1 (by decide +kernel) (by decide +kernel), world, by decide +kernel⟩

end Storage
end AgentMemory
