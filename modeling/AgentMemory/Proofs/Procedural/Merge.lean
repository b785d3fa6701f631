import AgentMemory.Proofs.Procedural.Ranking
import AgentMemory.Proofs.Storage.Files

namespace AgentMemory
namespace Procedural

open Storage Decimal

/-!
# Merging rules

A merge folds incoming rules into the stored ones, one at a time: a rule with a new
identifier is added at the end, and a rule with a known identifier replaces the held one
only when it is strictly more confident, carrying over the held rule's usage, activity,
creation and decay marks.  Every rule is then aged, rules under the least confidence are
dropped, and the rest are ranked most confident first and cut to the largest number.

The fold is described one identifier at a time (`heldFor`): what a merge holds for an
identifier is the stored rule, or the first incoming one, upgraded in turn by every
later incoming rule with that identifier.  `Holds` says this of the held list, and
`mergeIncoming_spec` proves it from what one step does (`mergeStep_cases`).  The whole
contract of a merge is `Retained`; `retain_retained` proves it of the pure merge and
`Store.merge_retention` of the document the store writes.
-/

/-! ## One identifier at a time -/

/-- The incoming rules with an identifier, as a merge takes them, in order. -/
def arrivals (now : Clock.Instant) (incoming : List Rule) (k : String) : List Rule :=
  (incoming.map (stamped now)).filter (·.id == k)

/-- The rule a merge holds for an identifier: the stored rule, or for a new identifier
the first incoming one, upgraded by every later incoming rule with that identifier. -/
def heldFor (now : Clock.Instant) (stored incoming : List Rule) (k : String) : Option Rule :=
  match stored.find? (·.id == k), arrivals now incoming k with
  | some s, later => some (later.foldl upgrade s)
  | none, first :: later => some (later.foldl upgrade first)
  | none, [] => none

/-- The identifiers a merge adds: those of incoming rules that are not stored, each once,
in the order they first arrive. -/
def addedIds (stored incoming : List Rule) : List String :=
  ((incoming.map Rule.id).removeAll (stored.map Rule.id)).eraseDups

/-- What a merge holds before aging: the stored identifiers in place and the added ones
after them, each with the rule `heldFor` gives. -/
structure Holds (now : Clock.Instant) (stored incoming held : List Rule) : Prop where
  ids : held.map Rule.id = stored.map Rule.id ++ addedIds stored incoming
  rules : ∀ r ∈ held, heldFor now stored incoming r.id = some r

@[simp] theorem stamped_id (now : Clock.Instant) (r : Rule) : (stamped now r).id = r.id := by
  unfold stamped
  split <;> rfl

theorem upgrade_id {held inc : Rule} (same : inc.id = held.id) : (upgrade held inc).id = held.id := by
  unfold upgrade
  split
  · rfl
  · exact same

theorem upgrade_of_le {held inc : Rule} (le : inc.confidence ≤ held.confidence) : upgrade held inc = held :=
  if_pos le

theorem arrivals_nil (now : Clock.Instant) (k : String) : arrivals now [] k = [] := rfl

theorem arrivals_snoc (now : Clock.Instant) (pre : List Rule) (x : Rule) (k : String) :
    arrivals now (pre ++ [x]) k = arrivals now pre k ++ (if x.id = k then [stamped now x] else []) := by
  by_cases same : x.id = k <;> simp [arrivals, same]

theorem arrivals_eq_nil (now : Clock.Instant) (incoming : List Rule) (k : String) :
    arrivals now incoming k = [] ↔ k ∉ incoming.map Rule.id := by
  simp [arrivals, List.filter_eq_nil_iff]

theorem heldFor_nil (now : Clock.Instant) (stored : List Rule) (k : String) :
    heldFor now stored [] k = stored.find? (·.id == k) := by
  unfold heldFor
  rw [arrivals_nil]
  cases stored.find? (·.id == k) <;> rfl

/-- A later incoming rule with the identifier upgrades what was held, or is the first
held rule for a new identifier. -/
theorem heldFor_snoc_self (now : Clock.Instant) (stored pre : List Rule) (x : Rule) :
    heldFor now stored (pre ++ [x]) x.id =
      some ((heldFor now stored pre x.id).elim (stamped now x) (fun h => upgrade h (stamped now x))) := by
  unfold heldFor
  rw [arrivals_snoc, if_pos rfl]
  cases stored.find? (·.id == x.id) with
  | some s => simp
  | none =>
    cases arrivals now pre x.id with
    | nil => rfl
    | cons first later => simp

theorem heldFor_snoc_other (now : Clock.Instant) (stored pre : List Rule) {x : Rule} {k : String}
    (other : x.id ≠ k) : heldFor now stored (pre ++ [x]) k = heldFor now stored pre k := by
  unfold heldFor
  rw [arrivals_snoc, if_neg other, List.append_nil]

theorem heldFor_eq_none {now : Clock.Instant} {stored incoming : List Rule} {k : String} :
    heldFor now stored incoming k = none ↔ k ∉ stored.map Rule.id ∧ k ∉ incoming.map Rule.id := by
  have unknown : stored.find? (·.id == k) = none ↔ k ∉ stored.map Rule.id := by simp [List.find?_eq_none]
  rw [← arrivals_eq_nil now incoming k, ← unknown]
  unfold heldFor
  cases stored.find? (·.id == k) <;> cases arrivals now incoming k <;> simp

theorem removeAll_singleton (a : String) (ys : List String) :
    [a].removeAll ys = if a ∈ ys then [] else [a] := by
  by_cases mem : a ∈ ys <;> simp [List.removeAll, mem]

theorem removeAll_append (xs xs' ys : List String) :
    (xs ++ xs').removeAll ys = xs.removeAll ys ++ xs'.removeAll ys :=
  List.filter_append _ _

theorem mem_removeAll {a : String} {xs ys : List String} : a ∈ xs.removeAll ys ↔ a ∈ xs ∧ a ∉ ys := by
  simp [List.removeAll, List.mem_filter]

theorem mem_addedIds {stored incoming : List Rule} {k : String} :
    k ∈ addedIds stored incoming ↔ k ∈ incoming.map Rule.id ∧ k ∉ stored.map Rule.id := by
  simp [addedIds, List.mem_eraseDups, mem_removeAll]

theorem addedIds_snoc (stored pre : List Rule) (x : Rule) :
    addedIds stored (pre ++ [x]) = addedIds stored pre ++
      (if x.id ∈ stored.map Rule.id ∨ x.id ∈ pre.map Rule.id then [] else [x.id]) := by
  unfold addedIds
  rw [List.map_append, removeAll_append, List.eraseDups_append]
  congr 1
  rw [List.map_singleton, removeAll_singleton]
  by_cases stored_x : x.id ∈ stored.map Rule.id
  · simp [stored_x]
  · by_cases seen : x.id ∈ pre.map Rule.id
    · simp [stored_x, seen, removeAll_singleton, mem_removeAll]
    · simp [stored_x, seen, removeAll_singleton, mem_removeAll, List.eraseDups_cons]

theorem nodup_eraseDups {α : Type} [BEq α] [LawfulBEq α] (l : List α) : l.eraseDups.Nodup := by
  induction h : l.length using Nat.strongRecOn generalizing l with
  | _ n ih =>
    cases l with
    | nil => simp
    | cons a as =>
      rw [List.eraseDups_cons, List.nodup_cons]
      have shorter : (as.filter fun b => !b == a).length < n := by
        have := List.length_filter_le (fun b => !b == a) as
        simp only [List.length_cons] at h
        omega
      refine ⟨?_, ih _ shorter _ rfl⟩
      simp [List.mem_eraseDups, List.mem_filter]

theorem nodup_addedIds (stored incoming : List Rule) : (addedIds stored incoming).Nodup :=
  nodup_eraseDups _

theorem Holds.nodup {now : Clock.Instant} {stored incoming held : List Rule} (holds : Holds now stored incoming held)
    (distinct : (stored.map Rule.id).Nodup) : (held.map Rule.id).Nodup := by
  rw [holds.ids, List.nodup_append]
  refine ⟨distinct, nodup_addedIds stored incoming, ?_⟩
  intro a stored_a b added_b same
  exact (mem_addedIds.mp (same ▸ added_b)).2 stored_a

/-! ## The fold -/

/-- What one step of the fold does: an unknown identifier is added at the end; the rule
held for a known one is upgraded in place, and counted as replaced exactly when the
incoming rule won. -/
theorem mergeStep_cases (now : Clock.Instant) (rules : List Rule) (added replaced : Nat) (inc : Rule) :
    ((∀ r ∈ rules, r.id ≠ inc.id) ∧
      mergeStep now (rules, added, replaced) inc = (rules ++ [stamped now inc], added + 1, replaced)) ∨
    (∃ i old, rules[i]? = some old ∧ old.id = inc.id ∧
      mergeStep now (rules, added, replaced) inc =
        (rules.set i (upgrade old (stamped now inc)), added,
          if (stamped now inc).confidence ≤ old.confidence then replaced else replaced + 1)) := by
  unfold mergeStep
  dsimp only
  cases found : (rules.zipIdx.filter (fun p => p.1.id == (stamped now inc).id)).getLast? with
  | none =>
    refine Or.inl ⟨?_, rfl⟩
    intro r mem same
    obtain ⟨i, hi, rfl⟩ := List.getElem_of_mem mem
    have listed : (rules[i], i) ∈ rules.zipIdx.filter (fun p => p.1.id == (stamped now inc).id) := by
      simp [List.mem_filter, List.mem_zipIdx_iff_getElem?, same]
    rw [List.getLast?_eq_none_iff.mp found] at listed
    exact List.not_mem_nil listed
  | some last =>
    obtain ⟨old, i⟩ := last
    have listed := List.mem_filter.mp (List.mem_of_getLast? found)
    have at_i : rules[i]? = some old := List.mem_zipIdx_iff_getElem?.mp listed.1
    have same : old.id = inc.id := by simpa using listed.2
    refine Or.inr ⟨i, old, at_i, same, ?_⟩
    dsimp only
    split
    · rename_i le
      obtain ⟨hi, rfl⟩ := List.getElem?_eq_some_iff.mp at_i
      rw [upgrade_of_le le, List.set_getElem_self]
    · rfl

theorem mergeIncoming_nil (now : Clock.Instant) (stored : List Rule) :
    mergeIncoming now stored [] = (stored, 0, 0) := rfl

theorem mergeIncoming_snoc (now : Clock.Instant) (stored pre : List Rule) (x : Rule) :
    mergeIncoming now stored (pre ++ [x]) = mergeStep now (mergeIncoming now stored pre) x :=
  List.foldl_concat _ _ _ _


theorem find?_id_of_mem {rules : List Rule} (distinct : (rules.map Rule.id).Nodup) {r : Rule} (mem : r ∈ rules) :
    rules.find? (·.id == r.id) = some r := by
  induction rules with
  | nil => cases mem
  | cons head tail ih =>
    rw [List.map_cons, List.nodup_cons] at distinct
    rcases List.mem_cons.mp mem with rfl | later
    · simp
    · have other : head.id ≠ r.id := fun same => distinct.1 (same ▸ List.mem_map_of_mem later)
      rw [List.find?_cons_of_neg (by simpa using other)]
      exact ih distinct.2 later

theorem holds_nil (now : Clock.Instant) {stored : List Rule} (distinct : (stored.map Rule.id).Nodup) :
    Holds now stored [] stored where
  ids := by simp [addedIds]
  rules r mem := by rw [heldFor_nil]; exact find?_id_of_mem distinct mem

theorem Holds.unknown_of_fresh {now : Clock.Instant} {stored pre rules : List Rule} {k : String}
    (holds : Holds now stored pre rules) (fresh : ∀ r ∈ rules, r.id ≠ k) :
    ¬(k ∈ stored.map Rule.id ∨ k ∈ pre.map Rule.id) := by
  have unseen : k ∉ rules.map Rule.id := fun mem => by
    obtain ⟨r, mem, same⟩ := List.mem_map.mp mem
    exact fresh r mem same
  rw [holds.ids, List.mem_append, mem_addedIds] at unseen
  tauto

theorem Holds.known_of_mem {now : Clock.Instant} {stored pre rules : List Rule} {old : Rule}
    (holds : Holds now stored pre rules) (mem : old ∈ rules) :
    old.id ∈ stored.map Rule.id ∨ old.id ∈ pre.map Rule.id := by
  have listed : old.id ∈ rules.map Rule.id := List.mem_map_of_mem mem
  rw [holds.ids, List.mem_append, mem_addedIds] at listed
  tauto

/-- A step keeps what the merge holds: a new identifier is held as its incoming rule at the
end, and the rule held for a known one is upgraded in place. -/
theorem Holds.step {now : Clock.Instant} {stored pre rules : List Rule} {x : Rule}
    (distinct : (stored.map Rule.id).Nodup) (holds : Holds now stored pre rules) (added replaced : Nat) :
    Holds now stored (pre ++ [x]) (mergeStep now (rules, added, replaced) x).1 := by
  have nodup := holds.nodup distinct
  rcases mergeStep_cases now rules added replaced x with ⟨fresh, step⟩ | ⟨i, old, at_i, same, step⟩
  · -- a new identifier: neither stored nor seen before
    have unknown := holds.unknown_of_fresh fresh
    rw [step]
    constructor
    · rw [List.map_append, holds.ids, addedIds_snoc, if_neg unknown]
      simp
    · intro r mem
      rcases List.mem_append.mp mem with kept | added_r
      · rw [heldFor_snoc_other now stored pre (fresh r kept).symm]
        exact holds.rules r kept
      · rw [List.mem_singleton.mp added_r, stamped_id, heldFor_snoc_self,
          heldFor_eq_none.mpr (by tauto)]
        rfl
  · -- a known identifier: its rule is upgraded where it stands
    obtain ⟨hi, rfl⟩ := List.getElem?_eq_some_iff.mp at_i
    have upgraded : (upgrade rules[i] (stamped now x)).id = x.id := by
      rw [upgrade_id (by rw [stamped_id, same]), same]
    have same_ids : (rules.set i (upgrade rules[i] (stamped now x))).map Rule.id = rules.map Rule.id := by
      rw [List.map_set, upgraded, ← same, ← List.map_set, List.set_getElem_self]
    have known : x.id ∈ stored.map Rule.id ∨ x.id ∈ pre.map Rule.id :=
      same ▸ holds.known_of_mem (List.getElem_mem hi)
    have held_x : heldFor now stored pre x.id = some rules[i] := same ▸ holds.rules _ (List.getElem_mem hi)
    rw [step]
    constructor
    · rw [same_ids, holds.ids, addedIds_snoc, if_pos known, List.append_nil]
    · intro r mem
      by_cases other : r.id = x.id
      · -- the one rule with the identifier is the upgraded one
        have new_mem : upgrade rules[i] (stamped now x) ∈ rules.set i (upgrade rules[i] (stamped now x)) :=
          List.mem_iff_getElem.mpr ⟨i, by simpa using hi, by simp⟩
        have unique := List.inj_on_of_nodup_map (same_ids ▸ nodup) mem new_mem (other.trans upgraded.symm)
        rw [unique, upgraded, heldFor_snoc_self, held_x]
        rfl
      · have kept : r ∈ rules := by
          rcases List.mem_or_eq_of_mem_set mem with kept | rfl
          · exact kept
          · exact absurd upgraded other
        rw [heldFor_snoc_other now stored pre (Ne.symm other)]
        exact holds.rules r kept

/-- What the fold gives: the held rules as `Holds` says, the number of added rules, and
at most one count per incoming rule. -/
theorem mergeIncoming_spec (now : Clock.Instant) {stored : List Rule} (distinct : (stored.map Rule.id).Nodup)
    (incoming : List Rule) :
    Holds now stored incoming (mergeIncoming now stored incoming).1 ∧
      (mergeIncoming now stored incoming).2.1 = (addedIds stored incoming).length ∧
      (mergeIncoming now stored incoming).2.1 + (mergeIncoming now stored incoming).2.2 ≤ incoming.length := by
  -- induction on the incoming rules from the end, as the fold consumes them
  induction incoming using List.reverseRecOn with
  | nil => exact ⟨holds_nil now distinct, by simp [mergeIncoming_nil, addedIds], by simp [mergeIncoming_nil]⟩
  | append_singleton pre x ih =>
    rcases folded : mergeIncoming now stored pre with ⟨rules, added, replaced⟩
    rw [folded] at ih
    obtain ⟨holds, counted, bounded⟩ := ih
    dsimp only at counted bounded
    rw [mergeIncoming_snoc, folded]
    refine ⟨holds.step distinct added replaced, ?_⟩
    rcases mergeStep_cases now rules added replaced x with ⟨fresh, step⟩ | ⟨i, old, at_i, same, step⟩
    · rw [step, addedIds_snoc, if_neg (holds.unknown_of_fresh fresh)]
      simp only [List.length_append, List.length_singleton]
      omega
    · have known := holds.known_of_mem (List.mem_of_getElem? at_i)
      rw [same] at known
      rw [step, addedIds_snoc, if_pos known]
      simp only [List.append_nil, List.length_append, List.length_singleton]
      split <;> omega

@[simp] theorem ageDecay_id (opts : MergeOptions) (now : Clock.Instant) (r : Rule) :
    (ageDecay opts now r).id = r.id := by
  unfold ageDecay
  split
  · rfl
  · dsimp only
    split <;> rfl

/-- The rules a merge keeps before the cap: the held ones, aged, that are still confident
enough. -/
def candidates (now : Clock.Instant) (opts : MergeOptions) (held : List Rule) : List Rule :=
  (held.map (ageDecay opts now)).filter (fun r => r.confidence ≥ opts.minConfidence)

theorem confident_of_mem_candidates {now : Clock.Instant} {opts : MergeOptions} {held : List Rule} {r : Rule}
    (mem : r ∈ candidates now opts held) : opts.minConfidence ≤ r.confidence := by
  simpa [candidates] using (List.mem_filter.mp mem).2

theorem nodup_candidates {now : Clock.Instant} {opts : MergeOptions} {held : List Rule}
    (distinct : (held.map Rule.id).Nodup) : ((candidates now opts held).map Rule.id).Nodup := by
  have aged : ((held.map (ageDecay opts now)).map Rule.id).Nodup := by
    simpa [List.map_map, Function.comp_def] using distinct
  exact aged.sublist (List.filter_sublist.map Rule.id)

theorem length_candidates_le (now : Clock.Instant) (opts : MergeOptions) (held : List Rule) :
    (candidates now opts held).length ≤ held.length := by
  simpa [candidates] using List.length_filter_le _ (held.map (ageDecay opts now))

/-- What a merge keeps and reports, given the stored and the incoming rules: at most the cap
of rules with distinct identifiers, all confident enough, most confident first, and these
are the first candidates of a stable ranking of the held rules, aged; the counts agree. -/
structure Retained (now : Clock.Instant) (opts : MergeOptions) (stored incoming kept : List Rule)
    (res : MergeResult) : Prop where
  distinct : (kept.map Rule.id).Nodup
  capped : kept.length ≤ opts.maxRules.toNat
  confident : ∀ r ∈ kept, opts.minConfidence ≤ r.confidence
  ranked : kept.Pairwise (fun a b => b.confidence ≤ a.confidence)
  selected : ∃ held ranking, Holds now stored incoming held ∧
    RanksStably (candidates now opts held) ranking ∧ kept = ranking.take opts.maxRules.toNat
  total : res.total = stored.length + res.added - res.dropped
  counted : res.added + res.replaced ≤ incoming.length

/-- With a positive cap, keeping the first rules of the ranking up to the cap is what the
merge does. -/
theorem capped_take {ranking : List Rule} {opts : MergeOptions} (cap : 0 < opts.maxRules) :
    (if (decide (opts.maxRules > 0) && decide (ranking.length > opts.maxRules.toNat)) = true then
      ranking.take opts.maxRules.toNat else ranking) = ranking.take opts.maxRules.toNat := by
  split
  · rfl
  · rename_i short
    simp only [Bool.and_eq_true, decide_eq_true_eq, not_and, not_lt] at short
    exact (List.take_of_length_le (short cap)).symm

/-- A merge of rules into stored rules with distinct identifiers, with a cap of at least
one, keeps and reports what `Retained` says. -/
theorem retain_retained (now : Clock.Instant) (opts : MergeOptions) {stored : List Rule}
    (distinct : (stored.map Rule.id).Nodup) (incoming : List Rule) (cap : 1 ≤ opts.maxRules) :
    Retained now opts stored incoming (retain now opts stored incoming).1 (retain now opts stored incoming).2 := by
  obtain ⟨holds, counted_added, counted⟩ := mergeIncoming_spec now distinct incoming
  unfold retain
  rcases merged : mergeIncoming now stored incoming with ⟨held, added, replaced⟩
  rw [merged] at holds counted_added counted
  dsimp only at counted_added counted ⊢
  have ranks : RanksStably (candidates now opts held) (byConfidence (candidates now opts held)) :=
    ranksStably_byConfidence fun r mem => isNumber_of_le_right (confident_of_mem_candidates mem)
  rw [show (held.map (ageDecay opts now)).filter (fun r => r.confidence ≥ opts.minConfidence) =
    candidates now opts held from rfl, capped_take (by omega)]
  set ranking := byConfidence (candidates now opts held)
  have prefix_sub : (ranking.take opts.maxRules.toNat).Sublist ranking := List.take_sublist _ _
  have mem_candidates : ∀ r ∈ ranking.take opts.maxRules.toNat, r ∈ candidates now opts held :=
    fun r mem => ranks.perm.mem_iff.mp (prefix_sub.subset mem)
  have held_length : held.length = stored.length + added := by
    have same := congrArg List.length holds.ids
    simp only [List.length_map, List.length_append] at same
    omega
  have kept_length : (ranking.take opts.maxRules.toNat).length ≤ held.length :=
    calc (ranking.take opts.maxRules.toNat).length
        ≤ ranking.length := prefix_sub.length_le
      _ = (candidates now opts held).length := ranks.perm.length_eq
      _ ≤ held.length := length_candidates_le now opts held
  exact {
    distinct := ((nodup_candidates (holds.nodup distinct)).perm (ranks.perm.map Rule.id).symm).sublist
      (prefix_sub.map Rule.id)
    capped := List.length_take_le _ _
    confident := fun r mem => confident_of_mem_candidates (mem_candidates r mem)
    ranked := ranks.ranked.sublist prefix_sub
    selected := ⟨held, ranking, holds, ranks, rfl⟩
    total := by dsimp only; omega
    counted := counted }

theorem mem_candidates_of_mem_retain {now : Clock.Instant} {opts : MergeOptions} {stored incoming : List Rule}
    {r : Rule} (mem : r ∈ (retain now opts stored incoming).1) :
    r ∈ candidates now opts (mergeIncoming now stored incoming).1 := by
  unfold retain at mem
  rcases merged : mergeIncoming now stored incoming with ⟨held, added, replaced⟩
  rw [merged] at mem
  dsimp only at mem
  -- the cap keeps a prefix of the ranking, and the ranking is a permutation of the candidates
  have ranked : r ∈ byConfidence (candidates now opts held) := by
    split at mem
    · exact List.mem_of_mem_take mem
    · exact mem
  exact (List.mergeSort_perm _ _).mem_iff.mp ranked

theorem retain_snd (now : Clock.Instant) (opts : MergeOptions) (stored incoming : List Rule) :
    (retain now opts stored incoming).2 =
      let merged := mergeIncoming now stored incoming
      let n := (candidates now opts merged.1).length
      let k := if 0 < opts.maxRules ∧ opts.maxRules.toNat < n then opts.maxRules.toNat else n
      { added := merged.2.1, replaced := merged.2.2, dropped := merged.1.length - k, total := k } := by
  unfold retain
  rcases merged : mergeIncoming now stored incoming with ⟨held, added, replaced⟩
  have sorted : (byConfidence (candidates now opts held)).length = (candidates now opts held).length :=
    List.length_mergeSort _
  dsimp only
  rw [show (held.map (ageDecay opts now)).filter (fun r => r.confidence ≥ opts.minConfidence) =
    candidates now opts held from rfl]
  by_cases exceeds : 0 < opts.maxRules ∧ opts.maxRules.toNat < (candidates now opts held).length
  · have cut : (decide (opts.maxRules > 0) && decide ((byConfidence (candidates now opts held)).length >
        opts.maxRules.toNat)) = true := by
      simp only [Bool.and_eq_true, decide_eq_true_eq, sorted]
      exact exceeds
    rw [if_pos cut, if_pos exceeds, List.length_take, sorted, Nat.min_eq_left exceeds.2.le]
  · have kept : (decide (opts.maxRules > 0) && decide ((byConfidence (candidates now opts held)).length >
        opts.maxRules.toNat)) = false := by
      simp only [Bool.and_eq_false_iff, decide_eq_false_iff_not, sorted]
      omega
    rw [if_neg (by simp [kept]), if_neg exceeds, sorted]

end Procedural
end AgentMemory
