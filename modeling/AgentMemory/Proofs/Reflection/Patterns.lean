import AgentMemory.Proofs.Reflection.Extraction
import AgentMemory.Proofs.Episodic.Export
import AgentMemory.Proofs.Procedural.Merge

namespace AgentMemory
namespace Reflection

open Storage Episodic Disk

/-!
# Mining patterns from the episode log

Pattern detection reads the summaries of the episode log and counts their tags, those of
successful episodes apart from those of failed ones.  What it counts is occurrences: each
tag each episode lists, in log order, so that an episode listing a tag twice counts twice
and is named twice among the tag's source episodes.  `tagOccurrences` lists them and
`tagCounts` counts them the way a reader would, tag by tag in the order tags were first
seen; the store's incremental tally agrees with it (`tallyTags_eq`).

Main statement: `Executor.detectPatterns_counts_occurrences`.  On a stored, consistent
index, detection succeeds; with fewer summaries than the threshold it mines nothing, and
otherwise it mines, for each outcome, a rule for each of its most frequent tags (at most
three for successes and two for failures, ties first seen first) that occurs at least the
threshold number of times.  The identifiers of the rules are pairwise distinct.

Counting occurrences is counting sessions only while no episode lists a tag twice: then a
tag's count is the number of episodes that list it, and its sources are theirs
(`tagCounts_of_nodup`, part of the main statement).  Nothing on the way to the log removes a repeated tag, and one
episode tagged `go` three times makes a rule of three sessions
(`tag_listed_thrice_counts_three_sessions`).
-/

variable {α : Type}

/-! ## Counting tags -/

/-- Each tag of each episode of one outcome, with the episode, in log order: a tag an
episode lists twice occurs twice. -/
def tagOccurrences (succeeded : Bool) (sums : List Summary) : List (String × String) :=
  (sums.filter (·.success == succeeded)).flatMap fun s => (s.tags.getD []).map fun t => (t, s.id)

/-- The tags of occurrences, first seen first, each with its number of occurrences and the
episodes of its first `maxSourceEpisodes` occurrences. -/
def tagCounts (occ : List (String × String)) : List TagCount :=
  (occ.map Prod.fst).eraseDups.map fun t =>
    ⟨t, occ.countP (·.1 == t), ((occ.filter (·.1 == t)).map Prod.snd).take maxSourceEpisodes⟩

@[simp] theorem tagCounts_nil : tagCounts [] = [] := rfl

theorem take_append_singleton (l : List α) (a : α) (n : Nat) :
    (if l.length < n then l.take n ++ [a] else l.take n) = (l ++ [a]).take n := by
  rw [List.take_append]
  by_cases short : l.length < n
  · rw [if_pos short, List.take_of_length_le (by omega), List.take_of_length_le (by simp; omega)]
  · rw [if_neg short, Nat.sub_eq_zero_of_le (by omega), List.take_zero, List.append_nil]

theorem eraseDups_append_singleton (xs : List String) (a : String) :
    (xs ++ [a]).eraseDups = xs.eraseDups ++ (if a ∈ xs then [] else [a]) := by
  rw [List.eraseDups_append, Procedural.removeAll_singleton]
  split <;> simp [List.eraseDups_cons]

theorem tally_tagCounts (occ : List (String × String)) (tag id : String) :
    tally (tagCounts occ) tag id = tagCounts (occ ++ [(tag, id)]) := by
  by_cases seen : tag ∈ occ.map Prod.fst
  · -- the tag has its entry, which counts one more; the other entries stay
    have listed : (tagCounts occ).any (·.tag == tag) = true := by
      simpa [tagCounts, List.mem_eraseDups] using seen
    rw [tally, if_pos listed, tagCounts, tagCounts, List.map_append, List.map_singleton, eraseDups_append_singleton,
      if_pos seen, List.append_nil, List.map_map]
    apply List.map_congr_left
    intro t _
    by_cases same : t = tag
    · subst same
      simpa [List.countP_append, List.filter_append] using
        take_append_singleton ((occ.filter (·.1 == t)).map Prod.snd) id maxSourceEpisodes
    · simp [same, Ne.symm same, List.countP_append, List.filter_append]
  · -- a new tag goes last, seen once
    have absent : ∀ p ∈ occ, p.1 ≠ tag := fun p mem same => seen (List.mem_map.mpr ⟨p, mem, same⟩)
    have listed : (tagCounts occ).any (·.tag == tag) = false := by
      simpa [tagCounts, List.mem_eraseDups] using fun t id' mem => absent (t, id') mem
    rw [tally, if_neg (by simp [listed]), tagCounts, tagCounts, List.map_append, List.map_singleton,
      eraseDups_append_singleton, if_neg seen, List.map_append]
    congr 1
    · apply List.map_congr_left
      intro t mem
      have other : t ≠ tag := fun same => seen (same ▸ List.mem_eraseDups.mp mem)
      simp [Ne.symm other, List.countP_append, List.filter_append]
    · have none : occ.countP (·.1 == tag) = 0 := by
        simpa [List.countP_eq_zero] using fun t id' mem => absent (t, id') mem
      have empty : occ.filter (·.1 == tag) = [] := by
        simpa [List.filter_eq_nil_iff] using fun t id' mem => absent (t, id') mem
      simp [List.countP_append, List.filter_append, none, empty, maxSourceEpisodes]

theorem foldl_tallyTag (s : Summary) (tags : List String) (good bad : List (String × String)) :
    tags.foldl (tallyTag s) (tagCounts good, tagCounts bad) =
      if s.success then (tagCounts (good ++ tags.map (·, s.id)), tagCounts bad)
      else (tagCounts good, tagCounts (bad ++ tags.map (·, s.id))) := by
  induction tags generalizing good bad with
  | nil => split <;> simp
  | cons tag rest ih =>
    cases succeeded : s.success with
    | true =>
      rw [List.foldl_cons, tallyTag, if_pos succeeded, tally_tagCounts, ih, if_pos succeeded]
      simp
    | false =>
      rw [List.foldl_cons, tallyTag, if_neg (by simp [succeeded]), tally_tagCounts, ih,
        if_neg (by simp [succeeded])]
      simp

/-- The store's tally of the log is the count of its tag occurrences, outcome by outcome. -/
theorem tallyTags_eq (sums : List Summary) :
    tallyTags sums = (tagCounts (tagOccurrences true sums), tagCounts (tagOccurrences false sums)) := by
  suffices counted : ∀ good bad : List (String × String),
      sums.foldl (fun acc s => (s.tags.getD []).foldl (tallyTag s) acc) (tagCounts good, tagCounts bad) =
        (tagCounts (good ++ tagOccurrences true sums), tagCounts (bad ++ tagOccurrences false sums)) by
    simpa [tallyTags] using counted [] []
  induction sums with
  | nil => simp [tagOccurrences]
  | cons s rest ih =>
    intro good bad
    rw [List.foldl_cons, foldl_tallyTag]
    cases succeeded : s.success with
    | true => simp [ih, tagOccurrences, succeeded]
    | false => simp [ih, tagOccurrences, succeeded]

theorem nodup_tags_tagCounts (occ : List (String × String)) : ((tagCounts occ).map (·.tag)).Nodup := by
  simpa [tagCounts, List.map_map, Function.comp_def] using Procedural.nodup_eraseDups (occ.map Prod.fst)

/-! ## Episodes that list each tag once -/

/-- The episodes of one outcome that list a tag, in log order. -/
def sessionsWith (succeeded : Bool) (sums : List Summary) (tag : String) : List Summary :=
  sums.filter fun s => s.success == succeeded && (s.tags.getD []).contains tag

/-- The tally by sessions: each tag, first seen first, with the number of episodes of the
outcome that list it and the first `maxSourceEpisodes` of them. -/
def sessionCounts (succeeded : Bool) (sums : List Summary) : List TagCount :=
  ((tagOccurrences succeeded sums).map Prod.fst).eraseDups.map fun t =>
    ⟨t, (sessionsWith succeeded sums t).length, ((sessionsWith succeeded sums t).map (·.id)).take maxSourceEpisodes⟩

theorem filter_beq_of_nodup {l : List String} (distinct : l.Nodup) (a : String) :
    l.filter (· == a) = if a ∈ l then [a] else [] := by
  rw [List.filter_beq, distinct.count]
  split <;> rfl

/-- While no episode lists a tag twice, the occurrences of a tag are the sessions that
list it. -/
theorem occurrences_of_nodup {succeeded : Bool} {sums : List Summary}
    (once : ∀ s ∈ sums, (s.tags.getD []).Nodup) (tag : String) :
    (tagOccurrences succeeded sums).filter (·.1 == tag) =
      (sessionsWith succeeded sums tag).map fun s => (tag, s.id) := by
  induction sums with
  | nil => rfl
  | cons s rest ih =>
    have listed : ((s.tags.getD []).map fun t => (t, s.id)).filter (·.1 == tag) =
        if tag ∈ s.tags.getD [] then [(tag, s.id)] else [] := by
      rw [List.filter_map]
      have own := filter_beq_of_nodup (once s List.mem_cons_self) tag
      simp only [Function.comp_def] at own ⊢
      rw [own]
      split <;> rfl
    have later := ih fun s' mem => once s' (List.mem_cons_of_mem s mem)
    simp only [tagOccurrences, sessionsWith, List.filter_cons] at later ⊢
    by_cases same : s.success = succeeded
    · by_cases has : tag ∈ s.tags.getD []
      · simp [same, has, List.filter_append, listed, later]
      · simp [same, has, List.filter_append, listed, later]
    · simp [same, later]

/-- While no episode lists a tag twice, the tally by occurrences is the tally by sessions. -/
theorem tagCounts_of_nodup {succeeded : Bool} {sums : List Summary} (once : ∀ s ∈ sums, (s.tags.getD []).Nodup) :
    tagCounts (tagOccurrences succeeded sums) = sessionCounts succeeded sums := by
  refine List.map_congr_left fun t _ => ?_
  have filtered := @occurrences_of_nodup succeeded sums once t
  rw [List.countP_eq_length_filter, filtered, List.length_map, List.map_map]
  rfl

/-! ## Ranking and naming the rules -/

/-- `ranking` lists `counts` most frequent first, and of two counts in order the first stays
first when it is at least as frequent. -/
structure RanksByCount (counts ranking : List TagCount) : Prop where
  perm : ranking.Perm counts
  ranked : ranking.Pairwise (fun a b => b.count ≤ a.count)
  stable : ∀ a b, List.Sublist [a, b] counts → b.count ≤ a.count → List.Sublist [a, b] ranking

theorem count_trans (a b c : TagCount) (hab : decide (a.count ≥ b.count) = true)
    (hbc : decide (b.count ≥ c.count) = true) : decide (a.count ≥ c.count) = true := by
  simp only [decide_eq_true_eq] at *
  omega

theorem count_total (a b : TagCount) : (decide (a.count ≥ b.count) || decide (b.count ≥ a.count)) = true := by
  simp only [Bool.or_eq_true, decide_eq_true_eq]
  omega

theorem mostCommon_eq (counts : List TagCount) (n : Nat) :
    ∃ ranking, RanksByCount counts ranking ∧ mostCommon counts n = ranking.take n := by
  refine ⟨_, ?_, rfl⟩
  exact
    { perm := List.mergeSort_perm _ _
      ranked := by
        have sorted := List.pairwise_mergeSort count_trans count_total counts
        simpa only [decide_eq_true_eq, ge_iff_le] using sorted
      stable := fun a b pair tie => List.pair_sublist_mergeSort count_trans count_total (by simpa using tie) pair }

theorem md5_length (msg : List UInt8) : (Digest.md5 msg).length = 16 := by
  unfold Digest.md5
  dsimp only
  simp [Digest.wordBytes]

theorem md5Hex_length (s : String) : (Digest.md5Hex s).toList.length = 32 := by
  simp [Digest.md5Hex, Digest.hex, List.length_flatMap, md5_length]

/-- Within a kind, a rule's identifier names its tag: the digest after the tag always has
four digits. -/
theorem patternRuleId_injective (kind : String) {tag tag' : String}
    (same : patternRuleId kind tag = patternRuleId kind tag') : tag = tag' := by
  have lists := congrArg String.toList same
  simp only [patternRuleId, String.toList_append, String.toList_ofList, List.append_assoc] at lists
  -- past the common `proc-<kind>-`, the tags are what is left before equally long tails
  have rest := List.append_cancel_left (List.append_cancel_left (List.append_cancel_left lists))
  obtain ⟨tags, -⟩ := List.append_inj' rest (by simp [md5Hex_length])
  exact String.toList_inj.mp tags

theorem patternRuleId_success_ne_avoid (tag tag' : String) :
    patternRuleId "success" tag ≠ patternRuleId "avoid" tag' := by
  intro same
  have lists := congrArg String.toList same
  simp [patternRuleId, String.toList_append] at lists

theorem nodup_rules {k : PatternKind} {threshold : Int} {now : Clock.Instant} {counts ranking : List TagCount}
    (distinct : (counts.map (·.tag)).Nodup) (ranks : RanksByCount counts ranking) (n : Nat) :
    ((((ranking.take n).filter (fun c => (c.count : Int) ≥ threshold)).map (k.rule now)).map (·.id)).Nodup := by
  have ranked : (ranking.map (·.tag)).Nodup := (ranks.perm.map _).nodup_iff.mpr distinct
  have picked : (((ranking.take n).filter (fun c => (c.count : Int) ≥ threshold)).map (·.tag)).Nodup :=
    ranked.sublist (List.Sublist.map _ (List.filter_sublist.trans (List.take_sublist n ranking)))
  have named : ∀ c : TagCount, (k.rule now c).id = patternRuleId k.name c.tag := fun _ => rfl
  simpa [List.map_map, Function.comp_def, named] using
    List.Nodup.map (fun _ _ same => patternRuleId_injective k.name same) picked

/-! ## Detection -/

theorem run_observed_of_ok {operation : String} {a : Act α} {w : World} {v : α}
    (ran : ∃ w₁, a.run.run w = (.ok v, w₁)) : ∃ w', (observed operation a).run.run w = (.ok v, w') := by
  obtain ⟨w₁, ran⟩ := ran
  unfold observed
  simp only [run_bind, run_attempt, ran, Storage.measure, run_modify, run_pure]
  exact ⟨_, rfl⟩

/-- Counting on the meter never fails. -/
theorem run_count (name : String) (n : Nat) (w : World) : ∃ w', (count name n).run.run w = (.ok (), w') := by
  unfold count
  split
  · exact ⟨_, rfl⟩
  · exact ⟨w, rfl⟩

/-- Detection mines from the summaries it reads, at the time it reads them: nothing below the
threshold of summaries, else the rules of successes, then those of failures. -/
theorem Executor.run_detectPatterns (x : Executor) {w w₁ : World} {sums : List Summary}
    (read : x.episodes.summaries.run.run w = (.ok sums, w₁)) :
    ∃ w', x.detectPatterns.run.run w =
      (.ok (if (sums.length : Int) < x.settings.coldPath.patternThreshold then []
        else successPatterns.rules x.settings.coldPath.patternThreshold w₁.now (tallyTags sums).1 ++
          failurePatterns.rules x.settings.coldPath.patternThreshold w₁.now (tallyTags sums).2), w') := by
  unfold detectPatterns
  apply run_observed_of_ok
  simp only [run_bind, run_attempt, read, run_pure]
  by_cases few : (sums.length : Int) < x.settings.coldPath.patternThreshold
  · obtain ⟨w₂, logged⟩ := run_emit x.log .info "not enough episodes for pattern detection"
      [.int "episodes" sums.length, .int "threshold" x.settings.coldPath.patternThreshold] w₁
    simp only [if_pos few, run_bind, logged, run_pure]
    exact ⟨w₂, rfl⟩
  · -- the rules are mined at the clock's time, then counted and logged, which never fails
    obtain ⟨w₂, counted⟩ := run_count detectedCounter
      (successPatterns.rules x.settings.coldPath.patternThreshold w₁.now (tallyTags sums).1 ++
        failurePatterns.rules x.settings.coldPath.patternThreshold w₁.now (tallyTags sums).2).length w₁
    obtain ⟨w₃, logged⟩ := run_emit x.log .info "patterns detected"
      [.int "episodes" sums.length, .int "rules"
        (successPatterns.rules x.settings.coldPath.patternThreshold w₁.now (tallyTags sums).1 ++
          failurePatterns.rules x.settings.coldPath.patternThreshold w₁.now (tallyTags sums).2).length] w₂
    simp only [if_neg few, run_bind, run_clock, counted, logged, run_pure]
    exact ⟨w₃, rfl⟩

/-- What detection mines from summaries at a time, said through their tag occurrences:
nothing when there are fewer summaries than the threshold; else, for successes and then for
failures, a rule for each of the most frequent tags of a stable ranking by count (three for
successes, two for failures) that occurs at least the threshold number of times. -/
def Mined (threshold : Int) (sums : List Summary) (now : Clock.Instant) (rules : List Procedural.Rule) : Prop :=
  if (sums.length : Int) < threshold then rules = []
  else ∃ good bad, RanksByCount (tagCounts (tagOccurrences true sums)) good ∧
    RanksByCount (tagCounts (tagOccurrences false sums)) bad ∧
    rules = ((good.take successRuleTags).filter (fun c => (c.count : Int) ≥ threshold)).map (successPatterns.rule now) ++
      ((bad.take failureRuleTags).filter (fun c => (c.count : Int) ≥ threshold)).map (failurePatterns.rule now)

/-- On a stored, consistent index, detection succeeds and mines what its tag occurrences
give, at the clock's time, under rule identifiers that are pairwise distinct. -/
theorem Executor.detectPatterns_counts_occurrences (x : Executor) (w : World) (idx : Index)
    (file : fetch w.tree x.episodes.indexPath = .ok (some (documentText idx.toJson)))
    (storable : idx.Storable) (consistent : idx.consistent = true) :
    ∃ rules w', x.detectPatterns.run.run w = (.ok rules, w') ∧
      Mined x.settings.coldPath.patternThreshold idx.episodes w.now rules ∧ (rules.map (·.id)).Nodup ∧
      ((∀ s ∈ idx.episodes, (s.tags.getD []).Nodup) →
        ∀ succeeded, tagCounts (tagOccurrences succeeded idx.episodes) = sessionCounts succeeded idx.episodes) := by
  have sessions (once : ∀ s ∈ idx.episodes, (s.tags.getD []).Nodup) (succeeded : Bool) :=
    @tagCounts_of_nodup succeeded idx.episodes once
  obtain ⟨w', ran⟩ := x.run_detectPatterns (x.episodes.run_summaries_stored w file storable consistent)
  by_cases few : (idx.episodes.length : Int) < x.settings.coldPath.patternThreshold
  · rw [if_pos few] at ran
    exact ⟨[], w', ran, by simp [Mined, few], List.nodup_nil, sessions⟩
  · rw [if_neg few, tallyTags_eq] at ran
    obtain ⟨good, rankGood, common⟩ :=
      mostCommon_eq (tagCounts (tagOccurrences true idx.episodes)) successPatterns.tags
    obtain ⟨bad, rankBad, common'⟩ :=
      mostCommon_eq (tagCounts (tagOccurrences false idx.episodes)) failurePatterns.tags
    simp only [PatternKind.rules, common, common'] at ran
    refine ⟨_, w', ran, ?_, ?_, sessions⟩
    · simp only [Mined, if_neg few]
      exact ⟨good, bad, rankGood, rankBad, rfl⟩
    · rw [List.map_append]
      refine List.nodup_append.mpr ⟨nodup_rules (nodup_tags_tagCounts _) rankGood _,
        nodup_rules (nodup_tags_tagCounts _) rankBad _, ?_⟩
      intro a mem b mem' same
      simp only [List.map_map, List.mem_map, Function.comp_apply] at mem mem'
      obtain ⟨c, -, rfl⟩ := mem
      obtain ⟨c', -, rfl⟩ := mem'
      exact patternRuleId_success_ne_avoid c.tag c'.tag same

/-- An executor mining the store at `/m`, with a threshold of one episode. -/
def eagerMiner : Executor :=
  { (default : Executor) with episodes := legacyStore, settings := { rootDir := "/m", coldPath := { patternThreshold := 1 } } }

/-- Of the two summaries of `exportIndex`, the successful one is tagged `go`: one rule. -/
theorem detectPatterns_counts_occurrences_go :
    fetch exportWorld.tree eagerMiner.episodes.indexPath = .ok (some (documentText exportIndex.toJson)) ∧
      exportIndex.Storable ∧ exportIndex.consistent = true ∧
      ∃ rules w', eagerMiner.detectPatterns.run.run exportWorld = (.ok rules, w') ∧
        Mined eagerMiner.settings.coldPath.patternThreshold exportIndex.episodes exportWorld.now rules ∧
        (rules.map (·.id)).Nodup ∧
        ((∀ s ∈ exportIndex.episodes, (s.tags.getD []).Nodup) →
          ∀ succeeded, tagCounts (tagOccurrences succeeded exportIndex.episodes) =
            sessionCounts succeeded exportIndex.episodes) :=
  ⟨exportWorld_exporting.fetch_index, exportIndex_storable, exportIndex_consistent,
    eagerMiner.detectPatterns_counts_occurrences exportWorld exportIndex exportWorld_exporting.fetch_index
      exportIndex_storable exportIndex_consistent⟩

/-- Three successful sessions of one project; the first lists `go` three times. -/
def repeatedIndex : Index :=
  { episodes := [{ id := "ep-a", timestamp := Clock.Instant.ofCivil 2025 1 10 0 0 0, task := "t", project := "p",
                   success := true, importance := 5, tags := some ["go", "go", "go"] },
                 { id := "ep-b", timestamp := Clock.Instant.ofCivil 2025 1 10 0 0 0, task := "t", project := "p",
                   success := true, importance := 5, tags := some ["x"] },
                 { id := "ep-c", timestamp := Clock.Instant.ofCivil 2025 1 10 0 0 0, task := "t", project := "p",
                   success := true, importance := 5, tags := some ["y"] }],
    tags := [("go", ["ep-a"]), ("x", ["ep-b"]), ("y", ["ep-c"])], projects := [("p", ["ep-a", "ep-b", "ep-c"])] }

/-- The store at `/m` with the index of `repeatedIndex` on disk. -/
def repeatedWorld : World :=
  { tree := ⟨[("/", .dir), ("/m", .dir), ("/m/index.json", .file ⟨documentText repeatedIndex.toJson, 0⟩)]⟩,
    now := Clock.Instant.zero }

/-- An executor mining the store at `/m` with the default threshold of three episodes. -/
def miner : Executor := { (default : Executor) with episodes := legacyStore, settings := { rootDir := "/m" } }

theorem repeatedWorld_fetch :
    fetch repeatedWorld.tree legacyStore.indexPath = .ok (some (documentText repeatedIndex.toJson)) := by
  have dirs : repeatedWorld.tree.DirsTo ["m"] := by
    intro i le
    simp only [List.length_cons, List.length_nil, zero_add] at le
    interval_cases i <;> simp [pathOf, repeatedWorld, Disk.Tree.get?]
  have index : repeatedWorld.tree.get? (pathOf (["m"] ++ ["index.json"])) =
      some (.file ⟨documentText repeatedIndex.toJson, 0⟩) := by
    simp [pathOf, repeatedWorld, Disk.Tree.get?]
  rw [@Episodic.Store.indexPath_eq legacyStore ["m"] (by decide) (by decide),
    fetch_of_get?_file (by decide) (by decide) dirs index, if_neg (by decide +kernel), contents_of_text]

/-- The success tally of `repeatedIndex`: `go` three times, from its first episode. -/
def repeatedCounts : List TagCount :=
  [⟨"go", 3, ["ep-a", "ep-a", "ep-a"]⟩, ⟨"x", 1, ["ep-b"]⟩, ⟨"y", 1, ["ep-c"]⟩]

/-- Only one episode lists `go`, yet it makes three sessions: listed three times, the tag
reaches the threshold of three and is mined, with that episode as its three sources. -/
theorem tag_listed_thrice_counts_three_sessions :
    (repeatedIndex.episodes.filter fun s => (s.tags.getD []).contains "go").length = 1 ∧
      ∃ rules w', miner.detectPatterns.run.run repeatedWorld = (.ok rules, w') ∧
        rules.map (·.rationale) = ["Pattern detected: 3 successful sessions involving go"] ∧
        rules.map (·.sourceEpisodes) = [["ep-a", "ep-a", "ep-a"]] := by
  have storable : repeatedIndex.Storable := by
    refine ⟨?_, by unfold KeysSorted; decide +kernel, by unfold KeysSorted; decide +kernel⟩
    intro sum mem
    simp only [repeatedIndex, List.mem_cons, List.not_mem_nil, or_false] at mem
    rcases mem with rfl | rfl | rfl <;> exact ⟨by decide +kernel, by decide, by decide⟩
  obtain ⟨w', ran⟩ := miner.run_detectPatterns
    (miner.episodes.run_summaries_stored repeatedWorld repeatedWorld_fetch storable (by decide +kernel))
  have counted : tallyTags repeatedIndex.episodes = (repeatedCounts, []) := rfl
  -- the tally is already ranked, so the ranking keeps it
  have ranked : mostCommon repeatedCounts successPatterns.tags = repeatedCounts := by
    rw [mostCommon, List.mergeSort_of_pairwise (by decide)]
    rfl
  have enough : ¬(repeatedIndex.episodes.length : Int) < miner.settings.coldPath.patternThreshold := by decide
  rw [if_neg enough, counted] at ran
  simp only [PatternKind.rules, ranked] at ran
  exact ⟨by decide, _, w', ran, by decide +kernel, by decide +kernel⟩

end Reflection
end AgentMemory
