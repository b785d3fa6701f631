import AgentMemory.Proofs.Json.Records
import AgentMemory.Episodic.Store

namespace AgentMemory
namespace Episodic

open Json

/-!
# Episode documents read back

An episode is stored as its document (`Episode.toJson`) and read back by `Episode.read`
when the index is rebuilt; a summary is stored in the index document and read back by
`Summary.read`.  Main statements: `Episode.read_toJson` and `Summary.read_toJson`, each
record that is `Storable` reads back as itself; with `Storage.readJson_documentText` its
file then reads back as the record.

`Storable` is what writing loses otherwise: the timestamp must have a written form (its
year 0..9999, its offset less than a day) and an offset of whole minutes, and the numbers
must be 64-bit integers.  Actions and alternatives always read back.
-/

/-- A summary whose document reads back as itself. -/
structure Summary.Storable (s : Summary) : Prop where
  writable : s.timestamp.writable
  minutes : s.timestamp.offset % 60 = 0
  importance : Fits64 s.importance

/-- An episode whose document reads back as itself. -/
structure Episode.Storable (e : Episode) : Prop where
  writable : e.timestamp.writable
  minutes : e.timestamp.offset % 60 = 0
  importance : Fits64 e.importance
  testsPassed : ∀ n ∈ e.testsPassed, Fits64 n
  durationMinutes : ∀ n ∈ e.durationMinutes, Fits64 n

theorem readOptInt_optJson (o : Option Int) (fits : ∀ n ∈ o, Fits64 n) :
    readOptInt (optJson ofInt o) = .ok o := by
  cases o with
  | none => rfl
  | some n =>
    show Except.map some (readInt (ofInt n) 0) = .ok (some n)
    rw [readInt_ofInt (fits n rfl)]
    rfl

theorem readOptString_optJson (o : Option String) : readOptString (optJson Json.str o) = .ok o := by
  cases o <;> rfl

theorem Alternative.read_toJson (a : Alternative) : Alternative.read a.toJson = .ok a := by
  simp only [Alternative.read, Alternative.toJson]
  refine (readRecord_cons rfl rfl).trans ?_
  refine (readRecord_cons rfl rfl).trans ?_
  rfl

/-- An action is written in the current form only, which reads back as itself: an empty
kind or target falls back to the older form's, which is empty too. -/
theorem Action.read_toJson (a : Action) : Action.read a.toJson = .ok a := by
  have raw : readRecord
      [ ⟨"action_type", fun v a => (Json.readString v a.kind).map fun s => { a with kind := s }⟩,
        ⟨"target", fun v a => (Json.readString v a.target).map fun s => { a with target := s }⟩,
        ⟨"description", fun v a => (Json.readString v a.description).map fun s => { a with description := s }⟩,
        ⟨"success", fun v a => (readOptBool v).map fun b => { a with success := b }⟩,
        ⟨"error", fun v a => (readOptString v).map fun s => { a with error := s }⟩,
        ⟨"type", fun v a => (Json.readString v a.legacyKind).map fun s => { a with legacyKind := s }⟩,
        ⟨"file", fun v a => (Json.readString v a.legacyFile).map fun s => { a with legacyFile := s }⟩ ]
      ({} : ActionText) "episodic.Action" a.toJson =
      .ok { kind := a.kind, target := a.target, description := a.description, success := some a.success,
            error := a.error } := by
    simp only [Action.toJson]
    refine (readRecord_cons rfl rfl).trans ?_
    refine (readRecord_cons rfl rfl).trans ?_
    refine (readRecord_cons rfl rfl).trans ?_
    refine (readRecord_cons rfl rfl).trans ?_
    refine (readRecord_cons rfl (by simp [readOptString_optJson]; rfl)).trans ?_
    rfl
  simp only [Action.read, raw, except_ok_bind]
  cases a with
  | mk kind target description success error =>
    by_cases noKind : kind.isEmpty <;> by_cases noTarget : target.isEmpty <;>
      simp_all [String.isEmpty_iff]

theorem Summary.read_toJson (s : Summary) (storable : s.Storable) : Summary.read s.toJson = .ok s := by
  simp only [Summary.read, Summary.toJson]
  refine (readRecord_cons rfl rfl).trans ?_
  refine (readRecord_cons rfl
    (by simp [instantJson, readInstant_rfc3339 storable.writable storable.minutes]; rfl)).trans ?_
  refine (readRecord_cons rfl rfl).trans ?_
  refine (readRecord_cons rfl rfl).trans ?_
  refine (readRecord_cons rfl rfl).trans ?_
  refine (readRecord_cons rfl (by simp [readInt_ofInt storable.importance]; rfl)).trans ?_
  refine (readRecord_cons rfl (by simp [readStrings_ofStrings]; rfl)).trans ?_
  rfl

theorem readAlternatives_optJson (o : Option (List Alternative)) :
    readList Alternative.read "[]episodic.Alternative" (optJson (fun xs => .arr (xs.map Alternative.toJson)) o) =
      .ok o := by
  cases o with
  | none => rfl
  | some xs => exact readList_map _ xs (fun a _ => Alternative.read_toJson a)

theorem readActions_optJson (o : Option (List Action)) :
    readActions (optJson (fun xs => .arr (xs.map Action.toJson)) o) = .ok o := by
  cases o with
  | none => rfl
  | some xs => exact readList_map _ xs (fun a _ => by simp [Action.read_toJson a]; rfl)

theorem Episode.read_toJson (e : Episode) (storable : e.Storable) : Episode.read e.toJson = .ok e := by
  simp only [Episode.read, Episode.toJson]
  refine (readRecord_cons rfl rfl).trans ?_
  refine (readRecord_cons rfl
    (by simp [instantJson, readInstant_rfc3339 storable.writable storable.minutes]; rfl)).trans ?_
  refine (readRecord_cons rfl rfl).trans ?_
  refine (readRecord_cons rfl rfl).trans ?_
  refine (readRecord_cons rfl rfl).trans ?_
  refine (readRecord_cons rfl rfl).trans ?_
  refine (readRecord_cons rfl (by simp [readStrings_ofStrings]; rfl)).trans ?_
  refine (readRecord_cons rfl rfl).trans ?_
  refine (readRecord_cons rfl (by simp [readAlternatives_optJson]; rfl)).trans ?_
  refine (readRecord_cons rfl (by simp [readStrings_ofStrings]; rfl)).trans ?_
  refine (readRecord_cons rfl (by simp [readActions_optJson]; rfl)).trans ?_
  refine (readRecord_cons rfl rfl).trans ?_
  refine (readRecord_cons rfl (by simp [readOptInt_optJson _ storable.testsPassed]; rfl)).trans ?_
  refine (readRecord_cons rfl (by simp [readOptString_optJson]; rfl)).trans ?_
  refine (readRecord_cons rfl (by simp [readStrings_ofStrings]; rfl)).trans ?_
  refine (readRecord_cons rfl (by simp [readStrings_ofStrings]; rfl)).trans ?_
  refine (readRecord_cons rfl (by simp [readStrings_ofStrings]; rfl)).trans ?_
  refine (readRecord_cons rfl (by simp [readInt_ofInt storable.importance]; rfl)).trans ?_
  refine (readRecord_cons rfl (by simp [readOptInt_optJson _ storable.durationMinutes]; rfl)).trans ?_
  rfl

end Episodic
end AgentMemory
