import AgentMemory.Proofs.Decimal.Literal
import AgentMemory.Proofs.Storage.Files
import AgentMemory.Semantic.Store

namespace AgentMemory
namespace Semantic

open Json

/-!
# Fact documents read back

The fact store keeps its facts in one document, written by `Store.document` and read back
by `Store.readFacts` each time the store is used.  Main statements: `Fact.read_toJson`, a
fact that is `Storable` reads back as itself, and `Store.readFacts_document`, so does the
document of a list of such facts, in order.  With `Storage.readJson_documentText` the
store's file then reads back as its facts.

`Storable` is what writing loses otherwise: both times must have a written form in whole
minutes, the numbers must be 64-bit integers, and the confidence must be a finite double
written as a whole number, which the only confidence a written fact has, 1, is
(`Fact.storable_of_written`).
-/

/-- A fact whose document reads back as itself. -/
structure Fact.Storable (f : Fact) : Prop where
  createdWritable : f.createdAt.writable
  createdMinutes : f.createdAt.offset % 60 = 0
  updatedWritable : f.updatedAt.writable
  updatedMinutes : f.updatedAt.offset % 60 = 0
  finite : Decimal.isFiniteValue f.confidence = true
  whole : ∃ i : Int, Decimal.documentText f.confidence = toString i
  importance : Fits64 f.importance
  ttlDays : ∀ n ∈ f.ttlDays, Fits64 n

theorem readOptInt_ofInt {n : Int} (fits : Fits64 n) : readOptInt (ofInt n) = .ok (some n) := by
  show (readInt (ofInt n) 0).map some = .ok (some n)
  rw [readInt_ofInt fits]
  rfl

theorem Fact.read_toJson (f : Fact) (storable : f.Storable) : Fact.read f.toJson = .ok f := by
  simp only [Fact.read, Fact.toJson]
  refine (readRecord_cons rfl rfl).trans ?_
  refine (readRecord_cons rfl rfl).trans ?_
  refine (readRecord_cons rfl rfl).trans ?_
  refine (readRecord_cons rfl rfl).trans ?_
  refine (readRecord_cons rfl (by simp [readFloat_ofFloat storable.finite]; rfl)).trans ?_
  refine (readRecord_cons rfl (by simp [readInt_ofInt storable.importance]; rfl)).trans ?_
  refine (readRecord_cons rfl
    (by simp [readInstant_rfc3339 storable.createdWritable storable.createdMinutes]; rfl)).trans ?_
  refine (readRecord_cons rfl
    (by simp [readInstant_rfc3339 storable.updatedWritable storable.updatedMinutes]; rfl)).trans ?_
  -- the time to live is written by cases on it, and read back in the same cases
  split
  next n present =>
    refine (readRecord_cons rfl (by simp [readOptInt_ofInt (storable.ttlDays n present)]; rfl)).trans ?_
    refine (readRecord_cons rfl (by simp [readStrings_ofStrings]; rfl)).trans ?_
    rw [readRecord_nil, ← present]
  next absent =>
    refine (readRecord_cons rfl rfl).trans ?_
    refine (readRecord_cons rfl (by simp [readStrings_ofStrings]; rfl)).trans ?_
    rw [readRecord_nil, ← absent]

theorem Fact.integral_toJson (f : Fact) (storable : f.Storable) : Integral f.toJson := by
  obtain ⟨i, whole⟩ := storable.whole
  refine ⟨trivial, trivial, trivial, trivial, ⟨i, whole⟩, integral_ofInt _, trivial, trivial, ?_,
    integral_ofStrings _, trivial⟩
  cases f.ttlDays with
  | none => trivial
  | some n => exact integral_ofInt n

namespace Store

theorem integral_document {facts : List Fact} (storable : ∀ f ∈ facts, f.Storable) : Integral (document facts) :=
  ⟨itemsIntegral_map _ _ (fun f mem => f.integral_toJson (storable f mem)), trivial⟩

/-- The document of facts that each read back reads back as the facts, in order. -/
theorem readFacts_document {facts : List Fact} (storable : ∀ f ∈ facts, f.Storable) :
    readFacts (document facts) = .ok facts := by
  have items : readList Fact.read "[]semantic.Fact" (.arr (facts.map Fact.toJson)) = .ok (some facts) :=
    readList_map _ facts (fun f mem => f.read_toJson (storable f mem))
  simp only [readFacts, document]
  rw [readRecord_cons rfl items]
  rfl

theorem infix_content {facts : List Fact} {f : Fact} (mem : f ∈ facts) :
    (quote .document f.content).toList <:+: (Storage.documentText (document facts)).toList := by
  have content : (indentedAt .document 3 (.str f.content)).toList <:+: (indentedAt .document 2 f.toJson).toList :=
    infix_indentedAt_obj .document 2 "content" (by simp)
  have item : (indentedAt .document 2 f.toJson).toList <:+:
      (indentedAt .document 1 (.arr (facts.map Fact.toJson))).toList :=
    infix_indentedAt_arr .document 1 (List.mem_map_of_mem mem)
  rw [indentedAt_str] at content
  exact content.trans (item.trans (Storage.infix_documentText "facts" (List.mem_singleton_self _)))

end Store

/-- The fact a write stores: its confidence is 1 and both its times are the clock's. -/
theorem Fact.storable_of_written {f : Fact} (confidence : f.confidence = defaultConfidence)
    (created : f.createdAt.writable) (minutes : f.createdAt.offset % 60 = 0) (same : f.updatedAt = f.createdAt)
    (importance : 1 ≤ f.importance ∧ f.importance ≤ 10) (ttlDays : ∀ n ∈ f.ttlDays, Fits64 n) : f.Storable where
  createdWritable := created
  createdMinutes := minutes
  updatedWritable := same ▸ created
  updatedMinutes := same ▸ minutes
  finite := confidence ▸ (by decide +kernel)
  whole := ⟨1, confidence ▸ (by decide +kernel)⟩
  importance := ⟨by omega, by omega⟩
  ttlDays := ttlDays

end Semantic
end AgentMemory
