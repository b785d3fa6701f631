import AgentMemory.Proofs.Episodic.Migration

namespace AgentMemory
namespace Episodic

open Storage

/-!
# Searching the episode index

A search selects summaries of the log through the inverted indices: the identifiers listed
under the project asked for, and under any of the tags asked for.  `SearchQuery.Matches`
reads the same filters off a summary alone.  When the inverted indices agree exactly with
the log (`Index.Exact`, which every regenerated index satisfies, `Index.exact_reindex`),
the two select the same summaries, so a search answers the summaries that match, ranked by
importance with ties in log order, cut to the limit (`Store.run_search_of_exact`).

The check that reading the index runs is weaker than `Index.Exact`: it asks that every
listed identifier be logged, not that its summary carry the tag it is listed under.  An
index with such a stale listing passes the check and is searched as it stands
(`stale_tag_passes_check`).
-/

/-- A summary answers a query, read off the summary alone: it is in the project asked for,
it carries one of the tags asked for, and its task holds the query text in any case; a
filter left empty lets every summary through. -/
def SearchQuery.Matches (q : SearchQuery) (s : Summary) : Bool :=
  (q.project.isEmpty || s.project == q.project) &&
    (q.tags.isEmpty || q.tags.any fun t => (s.tags.getD []).contains t) &&
    ((Text.lower q.query).isEmpty || Text.containsText (Text.lower s.task) (Text.lower q.query))

/-- Summaries ranked by importance, most important first, those of equal importance in the
order they had. -/
structure RanksByImportance (hits ranking : List Summary) : Prop where
  perm : ranking.Perm hits
  ranked : ranking.Pairwise (fun a b => b.importance ≤ a.importance)
  stable : ∀ a b, List.Sublist [a, b] hits → b.importance ≤ a.importance → List.Sublist [a, b] ranking

theorem summaryImportance_trans (a b c : Summary) (hab : decide (a.importance ≥ b.importance) = true)
    (hbc : decide (b.importance ≥ c.importance) = true) : decide (a.importance ≥ c.importance) = true := by
  simp only [decide_eq_true_eq] at *
  omega

theorem summaryImportance_total (a b : Summary) :
    (decide (a.importance ≥ b.importance) || decide (b.importance ≥ a.importance)) = true := by
  simp only [Bool.or_eq_true, decide_eq_true_eq]
  omega

theorem ranksByImportance_byImportance (hits : List Summary) : RanksByImportance hits (Store.byImportance hits) where
  perm := List.mergeSort_perm _ _
  ranked := by
    have sorted := List.pairwise_mergeSort summaryImportance_trans summaryImportance_total hits
    exact sorted.imp fun ordered => by simpa using ordered
  stable a b pair tie := List.pair_sublist_mergeSort summaryImportance_trans summaryImportance_total
    (by simpa using tie) pair

namespace Index

variable {idx : Index}

theorem Exact.eq_of_id (exact : idx.Exact) {s s' : Summary} (mem : s ∈ idx.episodes) (mem' : s' ∈ idx.episodes)
    (same : s.id = s'.id) : s = s' :=
  List.inj_on_of_nodup_map exact.distinct mem mem' same

theorem Exact.listed_project (exact : idx.Exact) {s : Summary} (mem : s ∈ idx.episodes) (p : String) :
    s.id ∈ refs idx.projects p ↔ s.project = p := by
  rw [exact.inProject]
  constructor
  · rintro ⟨s', mem', same, rfl⟩
    rw [exact.eq_of_id mem mem' same.symm]
  · rintro rfl
    exact ⟨s, mem, rfl, rfl⟩

theorem Exact.listed_tag (exact : idx.Exact) {s : Summary} (mem : s ∈ idx.episodes) (t : String) :
    s.id ∈ refs idx.tags t ↔ t ∈ s.tags.getD [] := by
  rw [exact.tagged]
  constructor
  · rintro ⟨s', mem', same, has⟩
    rwa [exact.eq_of_id mem mem' same.symm]
  · intro has
    exact ⟨s, mem, rfl, has⟩

end Index

namespace Store

/-- Searching an index whose inverted indices agree with its log answers the summaries of
the log that match the query, ranked by importance with ties in log order: at most the
limit of them, or 10 when the limit is not positive. -/
theorem run_search_of_exact (s : Store) (q : SearchQuery) {w w' : World} {idx : Index}
    (loaded : s.loadIndex.run.run w = (.ok idx, w')) (exact : idx.Exact) :
    ∃ ranking, RanksByImportance (idx.episodes.filter q.Matches) ranking ∧
      (s.search q).run.run w = (.ok (ranking.take (limitOf q.limit)), w') := by
  refine ⟨_, ranksByImportance_byImportance _, ?_⟩
  simp only [search, run_bind, loaded, run_pure]
  have hits : ∀ sum ∈ idx.episodes,
      (((if q.project.isEmpty then none else some (refs idx.projects q.project)).map (·.contains sum.id)).getD true &&
        ((if q.tags.isEmpty then none else some (q.tags.flatMap (refs idx.tags))).map (·.contains sum.id)).getD true &&
        ((Text.lower q.query).isEmpty || Text.containsText (Text.lower sum.task) (Text.lower q.query))) =
      q.Matches sum := by
    intro sum mem
    have project : ((if q.project.isEmpty then none else some (refs idx.projects q.project)).map
        (·.contains sum.id)).getD true = (q.project.isEmpty || sum.project == q.project) := by
      by_cases empty : q.project.isEmpty = true
      · simp [empty]
      · rw [Bool.eq_iff_iff]
        simp [empty, exact.listed_project mem]
    have tagged : ((if q.tags.isEmpty then none else some (q.tags.flatMap (refs idx.tags))).map
        (·.contains sum.id)).getD true = (q.tags.isEmpty || q.tags.any fun t => (sum.tags.getD []).contains t) := by
      by_cases empty : q.tags.isEmpty = true
      · simp [empty]
      · rw [Bool.eq_iff_iff]
        simp [empty, exact.listed_tag mem]
    rw [project, tagged]
    rfl
  rw [List.filter_congr hits]

end Store

/-- An index whose tag `x` still lists an episode that now carries only the tag `y`. -/
def staleIndex : Index :=
  { episodes := [{ id := "ep-1", task := "deploy", project := "p", importance := 5, tags := some ["y"] }],
    tags := [("x", ["ep-1"]), ("y", ["ep-1"])],
    projects := [("p", ["ep-1"])] }

/-- A stale listing passes the check that reading runs, so reading keeps the index as it
is (`Index.settle_of_consistent`), while the summary listed under the tag does not match
a search by that tag. -/
theorem stale_tag_passes_check :
    staleIndex.consistent = true ∧ "ep-1" ∈ refs staleIndex.tags "x" ∧
      (staleIndex.episodes.filter ({ tags := ["x"] } : SearchQuery).Matches).isEmpty = true := by
  decide +kernel

end Episodic
end AgentMemory
