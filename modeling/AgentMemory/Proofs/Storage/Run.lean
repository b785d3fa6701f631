import AgentMemory.Storage.Document
import AgentMemory.Proofs.Json.RoundTrip

namespace AgentMemory
namespace Storage

/-!
# Running actions

An action runs from a world to its result and the world after it, `x.run.run w`.  The
lemmas here say what the primitives of `Storage.World` give when run, and how a sequence
runs (`run_bind`, `run_map`): proofs about the operations of a store compute their runs
by rewriting with them, never unfolding the monad.

Main statement: `readJson_documentText`, a file that holds the text a document is written
as reads back, through `readJson`, as what the reader makes of the document.
-/

variable {α β : Type}

/-- A sequence runs its first action, then the rest from the world it left, unless the
first failed. -/
theorem run_bind (x : Act α) (f : α → Act β) (w : World) :
    (x >>= f).run.run w = match x.run.run w with
      | (.ok a, w') => (f a).run.run w'
      | (.error e, w') => (.error e, w') := by
  rw [ExceptT.run_bind, StateT.run_bind]
  rcases x.run.run w with ⟨_ | _, w'⟩ <;> rfl

/-- A sequence that succeeded ran its first action to a value, and the rest from the world
it left. -/
theorem run_bind_ok {x : Act α} {f : α → Act β} {w w' : World} {b : β}
    (ran : (x >>= f).run.run w = (.ok b, w')) :
    ∃ a w₁, x.run.run w = (.ok a, w₁) ∧ (f a).run.run w₁ = (.ok b, w') := by
  rw [run_bind] at ran
  rcases first : x.run.run w with ⟨_ | a, w₁⟩
  · rw [first] at ran
    cases ran
  · rw [first] at ran
    exact ⟨a, w₁, rfl, ran⟩

theorem run_ok_of_isOk {x : Act α} {w : World} (ok : (x.run.run w).1.isOk = true) :
    ∃ a w', x.run.run w = (.ok a, w') := by
  rcases ran : x.run.run w with ⟨_ | a, w'⟩
  · rw [ran] at ok
    cases ok
  · exact ⟨a, w', rfl⟩

theorem run_map (f : α → β) (x : Act α) (w : World) :
    (f <$> x).run.run w = match x.run.run w with
      | (.ok a, w') => (.ok (f a), w')
      | (.error e, w') => (.error e, w') := by
  rw [ExceptT.run_map, StateT.run_map]
  rcases x.run.run w with ⟨_ | _, w'⟩ <;> rfl

@[simp] theorem run_pure (a : α) (w : World) : (pure a : Act α).run.run w = (.ok a, w) := rfl

@[simp] theorem run_fail (e : Failure) (w : World) : (fail e : Act α).run.run w = (.error e, w) := rfl

@[simp] theorem run_files (w : World) : files.run.run w = (.ok w.tree, w) := rfl

@[simp] theorem run_setFiles (t : Disk.Tree) (w : World) :
    (setFiles t).run.run w = (.ok (), { w with tree := t }) := rfl

/-- A change of the files sets the tree it gives, or fails with its error and changes
nothing. -/
theorem run_onFiles (op : Disk.Tree → Except Disk.IoError Disk.Tree) (w : World) :
    (onFiles op).run.run w = match op w.tree with
      | .ok t => (.ok (), { w with tree := t })
      | .error e => (.error e.toFailure, w) := by
  unfold onFiles
  rw [run_bind, run_files]
  dsimp only
  cases op w.tree <;> rfl

@[simp] theorem run_clock (w : World) : clock.run.run w = (.ok w.now, w) := rfl

@[simp] theorem run_freshHex (digits : Nat) (w : World) :
    (freshHex digits).run.run w =
      (.ok (String.ofList ((uuidHex (w.drawn + 1)).toList.take digits)), { w with drawn := w.drawn + 1 }) := rfl

theorem run_emit (ch : Logging.Channel) (level : Logging.Level) (message : String)
    (fields : List Logging.Field) (w : World) : ∃ w', (emit ch level message fields).run.run w = (.ok (), w') := by
  unfold emit
  split
  · exact ⟨w, rfl⟩
  · exact ⟨_, rfl⟩

theorem run_readText {path : String} {w : World} {r : Option String} (file : fetch w.tree path = .ok r) :
    (readText path).run.run w = (.ok r, w) := by
  simp only [readText, run_bind, run_files, file, run_pure]

theorem documentText_ne_empty (j : Json) : documentText j ≠ "" := by
  intro empty
  have length := congrArg String.length empty
  simp [documentText] at length

theorem infix_documentText {fs : List (String × Json)} (k : String) {v : Json} (mem : (k, v) ∈ fs) :
    (Json.indentedAt .document 1 v).toList <:+: (documentText (.obj fs)).toList := by
  have whole : (documentText (.obj fs)).toList = (Json.indentedAt .document 0 (.obj fs)).toList ++ ['\n'] := by
    simp [documentText, Json.indented]
  rw [whole]
  exact (Json.infix_indentedAt_obj .document 0 k mem).trans (List.prefix_append _ _).isInfix

theorem sublist_documentText_single (k : String) {v v' : Json}
    (sub : (Json.indentedAt .document 1 v).toList.Sublist (Json.indentedAt .document 1 v').toList) :
    (documentText (.obj [(k, v)])).toList.Sublist (documentText (.obj [(k, v')])).toList := by
  have shape : ∀ u : Json, (documentText (.obj [(k, u)])).toList =
      '{' :: '\n' :: (List.replicate 2 ' ' ++ (Json.quote .document k).toList ++ [':', ' ']) ++
        (Json.indentedAt .document 1 u).toList ++ ['\n', '}', '\n'] := by
    intro u
    simp [documentText, Json.indented, Json.toList_indentedAt_obj, Json.toList_indentedFields_single]
  rw [shape, shape]
  exact (sub.append_left _).append_right _

/-- A file holding the text of a document reads back, through any reader, as what the
reader makes of the document. -/
theorem readJson_documentText {σ : Type} {path : String} {w : World} {j : Json} {read : Json → Except Failure σ}
    {v : σ} (spelt : Json.Spelled j) (file : fetch w.tree path = .ok (some (documentText j)))
    (back : read j = .ok v) : (readJson path read).run.run w = (.ok (some v), w) := by
  have parsed : Json.parseDocument (documentText j) = .ok j := Json.parseDocument_indented j spelt
  simp only [readJson, run_bind, run_readText file, documentText_ne_empty, String.isEmpty_iff, parsed, Except.bind, back,
    run_pure, if_false]

end Storage
end AgentMemory
