import AgentMemory.Proofs.Storage.Rejection
import AgentMemory.Proofs.Episodic.Migration

namespace AgentMemory
namespace Episodic

open Storage

/-!
# Storing an episode

A write prepares the episode (its time, identifier and importance filled in) and then,
under the lock of the index, reads the index, refuses an identifier it holds, writes the
episode's body into its month directory, and writes the index back with the episode's
summary added.  `Store.write_stored` says that when the episode passes its checks, its
identifier is new and both files can be put in place, the write succeeds: it returns the
prepared episode and leaves the tree with the two files written.
-/

/-- The episode a write stores, at the time `now` once `n` identifiers have been drawn. -/
def Episode.prepared (ep : Episode) (now : Clock.Instant) (n : Nat) : Episode :=
  Store.withImportance (ep.identified now n)

namespace Store

theorem run_readIndex_missing (s : Store) (w : World) (missing : fetch w.tree s.indexPath = .ok none) :
    s.readIndex.run.run w = (.ok ({}, false), w) := by
  simp only [readIndex, run_bind, run_files, missing, run_pure]

/-- A locked change that says it changed the index, where the lock stands free and the
index reads without repair, writes the changed index once and returns what the change
returned. -/
theorem update_changes (s : Store) {α : Type} {change : Index → Act (Bool × Index × α)} {w w₁ w₂ : World}
    {idx idx' : Index} {out : α}
    (made : w.tree.mkdirAll (Disk.parent s.indexPath) = .ok w.tree) {d : Disk.FileData}
    (lockFile : w.tree.get? (lockPath s.indexPath) = some (.file d)) (free : w.held.contains s.indexPath = false)
    (read : s.readIndex.run.run w = (.ok (idx, false), w))
    (changed : (change idx).run.run w = (.ok (true, idx', out), w₁))
    (written : (s.writeIndex idx').run.run w₁ = (.ok (), w₂)) :
    (s.update change).run.run w = (.ok out, w₂) := by
  rw [update, run_withLock_standing made lockFile free, run_bind, read]
  simp only [run_bind, run_attempt, changed, Bool.true_or, if_true, written, run_pure]

/-- An episode that passes its checks, whose identifier the index does not hold, and whose
body and index files can be put in place, is stored: the write returns the prepared
episode and its identifier, and leaves the tree with the body written and then the index
with the episode's summary added. -/
theorem write_stored (s : Store) {ep : Episode} {w : World} {idx : Index} {t₁ t₂ : Disk.Tree}
    (passes : firstFailed (ep.checks w.now w.drawn) = none) (quiet : w.sink = none)
    (made : w.tree.mkdirAll (Disk.parent s.indexPath) = .ok w.tree) {d : Disk.FileData}
    (lockFile : w.tree.get? (lockPath s.indexPath) = some (.file d)) (free : w.held.contains s.indexPath = false)
    (read : s.readIndex.run.run (if ep.draws then { w with drawn := w.drawn + 1 } else w) =
      (.ok (idx, false), if ep.draws then { w with drawn := w.drawn + 1 } else w))
    (fresh : idx.find? (ep.prepared w.now w.drawn).id = none)
    (writable : ∀ t ∈ (ep.prepared w.now w.drawn).timestamp :: idx.episodes.map (·.timestamp),
      t.writable = true)
    (body : w.tree.replaceFile (s.bodyPath (ep.prepared w.now w.drawn).id (ep.prepared w.now w.drawn).timestamp)
      (documentText (ep.prepared w.now w.drawn).toJson) = .ok t₁)
    (index : t₁.replaceFile s.indexPath
      (documentText (idx.add (ep.prepared w.now w.drawn).summary).toJson) = .ok t₂) :
    ∃ log, (s.write ep).run.run w = (.ok ((ep.prepared w.now w.drawn).id, ep.prepared w.now w.drawn),
      { (if ep.draws then { w with drawn := w.drawn + 1 } else w) with tree := t₂, log := log }) := by
  set w₀ := if ep.draws then { w with drawn := w.drawn + 1 } else w with drawn
  set e := ep.prepared w.now w.drawn
  have sameTree : w₀.tree = w.tree := by
    rw [drawn]
    split <;> rfl
  have sameHeld : w₀.held = w.held := by
    rw [drawn]
    split <;> rfl
  have bodyTimes : [e.timestamp].findSome? Clock.Instant.encodingProblem? = none :=
    findSome?_encodingProblem_eq_none fun t mem => writable t (by simp_all)
  have indexTimes : (idx.add e.summary).episodes.map (·.timestamp) = idx.episodes.map (·.timestamp) ++ [e.timestamp] := by
    simp [Index.add, Episode.summary]
  have indexWritable : ((idx.add e.summary).episodes.map (·.timestamp)).findSome? Clock.Instant.encodingProblem? = none := by
    refine findSome?_encodingProblem_eq_none fun t mem => writable t ?_
    rw [indexTimes, List.mem_append, List.mem_singleton] at mem
    rcases mem with listed | rfl
    · exact List.mem_cons_of_mem _ listed
    · exact List.mem_cons_self
  have written : (s.writeIndex (idx.add e.summary)).run.run { w₀ with tree := t₁ } =
      (.ok (), { w₀ with tree := t₂ }) := by
    simp only [writeIndex, run_writeJsonTimed, indexWritable, run_writeText, index]
  have stillQuiet : ({ w₀ with tree := t₂ } : World).sink = none := by
    rw [drawn]
    split <;> exact quiet
  obtain ⟨log, logged⟩ := run_emit_quiet s.log .debug "episode written"
    [.text "episode_id" e.id, .text "project" e.project, ⟨"tags", .texts (e.tags.getD [])⟩] stillQuiet
  refine ⟨log, ?_⟩
  rw [write, run_bind, prepare_passes passes]
  simp only [run_bind, run_attempt]
  rw [update_changes s (by rw [sameTree]; exact made) (by rw [sameTree]; exact lockFile)
    (by rw [sameHeld]; exact free) read ?changed written]
  case changed =>
    rw [show withImportance (ep.identified w.now w.drawn) = e from rfl]
    simp only [fileEpisode, fresh, Option.isSome_none, Bool.false_eq_true, if_false, run_bind, run_pure,
      run_writeJsonTimed, bodyTimes, run_writeText, sameTree, body]
    rfl
  rw [show withImportance (ep.identified w.now w.drawn) = e from rfl]
  simp only [run_bind, logged, run_pure]

end Store

end Episodic
end AgentMemory
