import Mathlib
import AgentMemory.Procedural.Rule
import AgentMemory.Proofs.Clock.Rfc3339
import AgentMemory.Proofs.Decimal.Literal
import AgentMemory.Proofs.Episodic.Migration

namespace AgentMemory
namespace Procedural

open Json

/-!
# Reading and writing rules

A rule is read from the members of a document object, each name once with its last
value (`lastOfEach`), and then field by field: each known member is read into its field
or leaves the default when it is absent or `null`; the legacy names `created` and
`apply_count` are read first and overridden by `created_at` and `times_applied`; all
members with other names are kept as extras.

`Rule.Decoded` says what reading gives, field by field, in terms of the members alone,
and `ofMembers_eq_ok_iff` shows it is exactly what `ofMembers` computes.  Everything
else is read off it: what every rule read has (`Rule.Readable`), which of the legacy
and the current names takes effect, and the defaults.  The round trip
(`read_toJson_of_readable`) shows that the document form of a readable rule, with its
timestamps in the written range, reads back as the rule, its extras in sorted order.
-/

namespace Rule

/-! ## Looking members up -/

theorem lastOfEach_eq_lastPerKey (members : List (String × Json)) :
    lastOfEach members = Episodic.lastPerKey members := rfl

theorem find?_of_mem {m : List (String × Json)} (distinct : (m.map Prod.fst).Nodup) {key : String}
    {v : Json} (mem : (key, v) ∈ m) : m.find? (fun kv => kv.1 == key) = some (key, v) := by
  induction m with
  | nil => cases mem
  | cons kv m ih =>
    rw [List.map_cons, List.nodup_cons] at distinct
    rcases List.mem_cons.mp mem with here | later
    · subst here
      simp
    · have other : kv.1 ≠ key := by
        rintro same
        exact distinct.1 (same ▸ List.mem_map_of_mem later)
      rw [List.find?_cons_of_neg (by simpa using other)]
      exact ih distinct.2 later

theorem member?_of_mem {m : List (String × Json)} (distinct : (m.map Prod.fst).Nodup) {key : String}
    {v : Json} (mem : (key, v) ∈ m) (present : v ≠ .null) : member? m key = some v := by
  unfold member?
  rw [find?_of_mem distinct mem]
  cases v with
  | null => exact absurd rfl present
  | _ => rfl

theorem member?_of_mem_null {m : List (String × Json)} (distinct : (m.map Prod.fst).Nodup) {key : String}
    (mem : (key, .null) ∈ m) : member? m key = none := by
  unfold member?
  rw [find?_of_mem distinct mem]
  rfl

theorem member?_of_not_mem {m : List (String × Json)} {key : String} (absent : key ∉ m.map Prod.fst) :
    member? m key = none := by
  have missing : m.find? (fun kv => kv.1 == key) = none := by
    rw [List.find?_eq_none]
    intro kv mem same
    have named : kv.1 = key := by simpa using same
    exact absent (named ▸ List.mem_map_of_mem mem)
  unfold member?
  rw [missing]
  rfl

theorem member?_ne_null {m : List (String × Json)} {key : String} {v : Json} (found : member? m key = some v) :
    v ≠ .null := by
  unfold member? at found
  rintro rfl
  split at found
  · cases found
  · rename_i notNull
    exact notNull found

/-! ## What reading gives -/

/-- The value reading a member gives: the default when the member is absent or `null`,
what `read` makes of it otherwise. -/
def Picked {α : Type} (m : List (String × Json)) (key : String) (read : Json → Except Failure α)
    (default a : α) : Prop :=
  match member? m key with
  | none => a = default
  | some v => read v = .ok a

theorem picked_none {α : Type} {m : List (String × Json)} {key : String} {read : Json → Except Failure α}
    {default a : α} (picked : Picked m key read default a) (absent : member? m key = none) : a = default := by
  unfold Picked at picked
  rw [absent] at picked
  exact picked

theorem picked_some {α : Type} {m : List (String × Json)} {key : String} {read : Json → Except Failure α}
    {default a : α} (picked : Picked m key read default a) {v : Json} (present : member? m key = some v) :
    read v = .ok a := by
  unfold Picked at picked
  rw [present] at picked
  exact picked

/-- What reading a rule from the members `m` (each name once) gives, field by field. -/
structure Decoded (m : List (String × Json)) (r : Rule) : Prop where
  id : Picked m "rule_id" (readString · "unknown") "unknown" r.id
  trigger : Picked m "trigger" (readString · "") "" r.trigger
  behavior : Picked m "behavior" (readString · "") "" r.behavior
  rationale : Picked m "rationale" (readString · "") "" r.rationale
  sourceEpisodes : ∃ episodes, Picked m "source_episodes" readStrings (some []) episodes ∧
    r.sourceEpisodes = episodes.getD []
  confidence : Picked m "confidence" (readFloat · legacyConfidence) legacyConfidence r.confidence
  /-- The legacy count is read first, and the current one read over it. -/
  timesApplied : ∃ legacy, Picked m "apply_count" (readInt · 0) 0 legacy ∧
    Picked m "times_applied" (readInt · legacy) legacy r.timesApplied
  injectionPoint : ∃ point, Picked m "injection_point" (readString · defaultInjectionPoint)
    defaultInjectionPoint point ∧ r.injectionPoint = if point.isEmpty then defaultInjectionPoint else point
  promptTemplate : Picked m "prompt_template" (readString · "") "" r.promptTemplate
  active : Picked m "active" (readBool · true) true r.active
  /-- The current creation time wins over the legacy one. -/
  createdAt : ∃ legacy current, readTime m "created" = .ok legacy ∧ readTime m "created_at" = .ok current ∧
    r.createdAt = (current.or legacy).getD Clock.Instant.zero
  lastApplied : readTime m "last_applied" = .ok r.lastApplied
  decayedAt : readTime m "decayed_at" = .ok r.decayedAt
  extra : r.extra = m.filter (fun kv => !knownNames.contains kv.1)

/-- A member read into a field: the field gets what `Picked` says, and the rest of the
rule stays. -/
theorem readMember_picked {α : Type} {m : List (String × Json)} {key : String}
    {read : Json → Rule → Except Failure α} (get : Rule → α) {set : Rule → α → Rule} {r r' : Rule}
    (ok : readMember m key (fun v r => (read v r).map (set r)) r = .ok r') (same : set r (get r) = r) :
    ∃ a, Picked m key (fun v => read v r) (get r) a ∧ r' = set r a := by
  unfold readMember at ok
  unfold Picked
  cases found : member? m key with
  | none =>
    rw [found] at ok
    cases ok
    exact ⟨get r, rfl, same.symm⟩
  | some v =>
    rw [found] at ok
    obtain ⟨a, readOk, rfl⟩ := except_map_eq_ok (except_mapError_eq_ok ok)
    exact ⟨a, readOk, rfl⟩

theorem readMember_of_picked {α : Type} {m : List (String × Json)} {key : String}
    {read : Json → Rule → Except Failure α} (get : Rule → α) {set : Rule → α → Rule} {r : Rule} {a : α}
    (picked : Picked m key (fun v => read v r) (get r) a) (same : set r (get r) = r) :
    readMember m key (fun v r => (read v r).map (set r)) r = .ok (set r a) := by
  unfold readMember
  unfold Picked at picked
  cases found : member? m key with
  | none =>
    rw [found] at picked
    rw [picked, same]
  | some v =>
    rw [found] at picked
    dsimp only at picked ⊢
    rw [picked]
    rfl

theorem ofMembers_decoded {members : List (String × Json)} {r : Rule} (ok : ofMembers members = .ok r) :
    Decoded (lastOfEach members) r := by
  unfold ofMembers at ok
  obtain ⟨r₁, id, ok⟩ := except_bind_eq_ok ok
  obtain ⟨a₁, p₁, rfl⟩ := readMember_picked Rule.id id rfl
  obtain ⟨r₂, trigger, ok⟩ := except_bind_eq_ok ok
  obtain ⟨a₂, p₂, rfl⟩ := readMember_picked Rule.trigger trigger rfl
  obtain ⟨r₃, behavior, ok⟩ := except_bind_eq_ok ok
  obtain ⟨a₃, p₃, rfl⟩ := readMember_picked Rule.behavior behavior rfl
  obtain ⟨r₄, rationale, ok⟩ := except_bind_eq_ok ok
  obtain ⟨a₄, p₄, rfl⟩ := readMember_picked Rule.rationale rationale rfl
  obtain ⟨r₅, episodes, ok⟩ := except_bind_eq_ok ok
  obtain ⟨a₅, p₅, rfl⟩ := readMember_picked (fun r => some r.sourceEpisodes) episodes rfl
  obtain ⟨r₆, confidence, ok⟩ := except_bind_eq_ok ok
  obtain ⟨a₆, p₆, rfl⟩ := readMember_picked Rule.confidence confidence rfl
  obtain ⟨r₇, legacyCount, ok⟩ := except_bind_eq_ok ok
  obtain ⟨a₇, p₇, rfl⟩ := readMember_picked Rule.timesApplied legacyCount rfl
  obtain ⟨r₈, count, ok⟩ := except_bind_eq_ok ok
  obtain ⟨a₈, p₈, rfl⟩ := readMember_picked Rule.timesApplied count rfl
  obtain ⟨r₉, point, ok⟩ := except_bind_eq_ok ok
  obtain ⟨a₉, p₉, rfl⟩ := readMember_picked Rule.injectionPoint point rfl
  obtain ⟨r₁₀, template, ok⟩ := except_bind_eq_ok ok
  obtain ⟨a₁₀, p₁₀, rfl⟩ := readMember_picked Rule.promptTemplate template rfl
  obtain ⟨r₁₁, active, ok⟩ := except_bind_eq_ok ok
  obtain ⟨a₁₁, p₁₁, rfl⟩ := readMember_picked Rule.active active rfl
  obtain ⟨legacy, legacyTime, ok⟩ := except_bind_eq_ok ok
  obtain ⟨current, currentTime, ok⟩ := except_bind_eq_ok ok
  obtain ⟨applied, appliedTime, ok⟩ := except_bind_eq_ok ok
  obtain ⟨decayed, decayedTime, ok⟩ := except_bind_eq_ok ok
  cases ok
  -- the creation time is the one case split: which of the two names gave it
  rcases current with _ | t <;> rcases legacy with _ | t' <;>
    exact ⟨p₁, p₂, p₃, p₄, ⟨a₅, p₅, rfl⟩, p₆, ⟨a₇, p₇, p₈⟩, ⟨a₉, p₉, rfl⟩, p₁₀, p₁₁,
      ⟨_, _, legacyTime, currentTime, rfl⟩, appliedTime, decayedTime, rfl⟩

theorem except_bind_eq_ok_of {ε α β : Type} {x : Except ε α} {f : α → Except ε β} {a : α} {b : β}
    (first : x = .ok a) (rest : f a = .ok b) : (x >>= f) = .ok b := by
  rw [first]
  exact rest

theorem ofMembers_of_decoded {members : List (String × Json)} {r : Rule}
    (decoded : Decoded (lastOfEach members) r) : ofMembers members = .ok r := by
  obtain ⟨p₁, p₂, p₃, p₄, ⟨episodes, p₅, episodesEq⟩, p₆, ⟨legacy, p₇, p₈⟩, ⟨point, p₉, pointEq⟩, p₁₀, p₁₁,
    ⟨legacyT, currentT, legacyTime, currentTime, createdEq⟩, appliedTime, decayedTime, extraEq⟩ := decoded
  unfold ofMembers
  refine except_bind_eq_ok_of (readMember_of_picked Rule.id p₁ rfl) ?_
  refine except_bind_eq_ok_of (readMember_of_picked Rule.trigger p₂ rfl) ?_
  refine except_bind_eq_ok_of (readMember_of_picked Rule.behavior p₃ rfl) ?_
  refine except_bind_eq_ok_of (readMember_of_picked Rule.rationale p₄ rfl) ?_
  refine except_bind_eq_ok_of (readMember_of_picked (fun r => some r.sourceEpisodes) p₅ rfl) ?_
  refine except_bind_eq_ok_of (readMember_of_picked Rule.confidence p₆ rfl) ?_
  refine except_bind_eq_ok_of (readMember_of_picked Rule.timesApplied p₇ rfl) ?_
  refine except_bind_eq_ok_of (readMember_of_picked Rule.timesApplied p₈ rfl) ?_
  refine except_bind_eq_ok_of (readMember_of_picked Rule.injectionPoint p₉ rfl) ?_
  refine except_bind_eq_ok_of (readMember_of_picked Rule.promptTemplate p₁₀ rfl) ?_
  refine except_bind_eq_ok_of (readMember_of_picked Rule.active p₁₁ rfl) ?_
  refine except_bind_eq_ok_of legacyTime ?_
  refine except_bind_eq_ok_of currentTime ?_
  refine except_bind_eq_ok_of appliedTime ?_
  refine except_bind_eq_ok_of decayedTime ?_
  rcases currentT with _ | t <;> rcases legacyT with _ | t' <;>
  · simp only [Option.or, Option.getD] at createdEq
    dsimp only
    rw [← episodesEq, ← pointEq, ← extraEq, ← createdEq]
    rfl

/-- Reading a rule from members is exactly what `Decoded` says of them, each name taken
once with its last value. -/
theorem ofMembers_eq_ok_iff {members : List (String × Json)} {r : Rule} :
    ofMembers members = .ok r ↔ Decoded (lastOfEach members) r :=
  ⟨ofMembers_decoded, ofMembers_of_decoded⟩

theorem read_decoded {j : Json} {r : Rule} (read : Rule.read j = .ok r) :
    ∃ members, Decoded (lastOfEach members) r := by
  unfold Rule.read at read
  split at read
  · exact ⟨[], ofMembers_decoded read⟩
  · exact ⟨_, ofMembers_decoded read⟩
  · cases read

/-! ## What every rule read has -/

/-- What every rule read from a document has: a finite confidence, a 64-bit count of
applications, an injection point, timestamps in UTC, and extras under distinct names
none of which is a rule field. -/
structure Readable (r : Rule) : Prop where
  confidence : Decimal.isFiniteValue r.confidence = true
  timesApplied : Fits64 r.timesApplied
  injectionPoint : r.injectionPoint ≠ ""
  createdAt : r.createdAt.offset = 0
  lastApplied : ∀ t ∈ r.lastApplied, t.offset = 0
  decayedAt : ∀ t ∈ r.decayedAt, t.offset = 0
  extraNames : (r.extra.map Prod.fst).Nodup
  extraUnknown : ∀ kv ∈ r.extra, kv.1 ∉ knownNames

theorem readTime_utc {m : List (String × Json)} {key : String} {time : Option Clock.Instant}
    (read : readTime m key = .ok time) : ∀ t ∈ time, t.offset = 0 := by
  intro t mem
  unfold readTime at read
  split at read
  · cases read
    cases mem
  · split at read
    · cases read
    · cases read
      cases mem
    · split at read
      · rename_i found
        cases read
        cases mem
        exact Clock.Instant.parseFirst_offset found
      · cases read

theorem picked_fits {m : List (String × Json)} {key : String} {current n : Int}
    (picked : Picked m key (readInt · current) current n) (fits : Fits64 current) : Fits64 n := by
  unfold Picked at picked
  split at picked
  · rw [picked]
    exact fits
  · exact readInt_fits picked fits

theorem picked_finite {m : List (String × Json)} {key : String} {current x : Float}
    (picked : Picked m key (readFloat · current) current x) (finite : Decimal.isFiniteValue current = true) :
    Decimal.isFiniteValue x = true := by
  unfold Picked at picked
  split at picked
  · rw [picked]
    exact finite
  · rcases readFloat_finite picked with ⟨-, rfl⟩ | read
    · exact finite
    · exact read

theorem legacyConfidence_finite : Decimal.isFiniteValue legacyConfidence = true := by decide

theorem Decoded.readable {members : List (String × Json)} {r : Rule} (decoded : Decoded (lastOfEach members) r) :
    r.Readable := by
  obtain ⟨legacy, legacyCount, count⟩ := decoded.timesApplied
  obtain ⟨point, -, pointEq⟩ := decoded.injectionPoint
  obtain ⟨legacyT, currentT, legacyTime, currentTime, createdEq⟩ := decoded.createdAt
  refine ⟨picked_finite decoded.confidence legacyConfidence_finite,
    picked_fits count (picked_fits legacyCount (by decide)), ?_, ?_, readTime_utc decoded.lastApplied,
    readTime_utc decoded.decayedAt, ?_, ?_⟩
  · rw [pointEq]
    split
    · decide
    · rename_i nonempty
      simpa using nonempty
  · -- the creation time is one of the two read, or the zero instant
    rw [createdEq]
    rcases currentT with _ | t
    · rcases legacyT with _ | t'
      · rfl
      · exact readTime_utc legacyTime t' rfl
    · exact readTime_utc currentTime t rfl
  · rw [decoded.extra, lastOfEach_eq_lastPerKey]
    exact (Episodic.lastPerKey_nodup members).sublist ((List.filter_sublist).map Prod.fst)
  · intro kv mem
    rw [decoded.extra, List.mem_filter] at mem
    simpa using mem.2

theorem read_readable {j : Json} {r : Rule} (read : Rule.read j = .ok r) : r.Readable := by
  obtain ⟨members, decoded⟩ := read_decoded read
  exact decoded.readable

/-! ## The last member of each name -/

/-- One step of `lastOfEach`: the member it keeps under a name is the new one when it has
that name, and the one kept before otherwise. -/
theorem find?_lastOfEach_step (acc : List (String × Json)) (kv : String × Json) (key : String) :
    (if acc.any (fun x => x.1 == kv.1) then acc.map (fun x => if x.1 == kv.1 then kv else x) else acc ++ [kv]).find?
        (fun x => x.1 == key) = if kv.1 = key then some kv else acc.find? (fun x => x.1 == key) := by
  split
  · rename_i present
    rw [List.find?_map]
    split
    · -- the member of that name is replaced where it stands
      rename_i same
      subst same
      have pred : ((fun x : String × Json => x.1 == kv.1) ∘ fun x => if x.1 == kv.1 then kv else x) =
          fun x => x.1 == kv.1 := by
        funext x
        by_cases named : x.1 = kv.1 <;> simp [named]
      rw [pred]
      obtain ⟨x, mem, named⟩ := List.any_eq_true.mp present
      obtain ⟨y, found⟩ : ∃ y, acc.find? (fun x => x.1 == kv.1) = some y :=
        Option.isSome_iff_exists.mp (List.find?_isSome.mpr ⟨x, mem, named⟩)
      have yname : y.1 = kv.1 := by simpa using List.find?_some found
      rw [found]
      simp [yname]
    · rename_i other
      have pred : ((fun x : String × Json => x.1 == key) ∘ fun x => if x.1 == kv.1 then kv else x) =
          fun x => x.1 == key := by
        funext x
        by_cases named : x.1 = kv.1 <;> simp [named]
      rw [pred]
      cases found : acc.find? (fun x => x.1 == key) with
      | none => rfl
      | some y =>
        have yname : y.1 = key := by simpa using List.find?_some found
        have distinct : y.1 ≠ kv.1 := fun same => other (same ▸ yname)
        simp [distinct]
  · rename_i absent
    rw [List.find?_append]
    split
    · rename_i same
      have none : acc.find? (fun x => x.1 == key) = none := by
        rw [List.find?_eq_none]
        intro x mem named
        exact absent (List.any_eq_true.mpr ⟨x, mem, by simp_all⟩)
      simp [none, same]
    · rename_i other
      simp [other]

theorem find?_foldl_lastOfEach (key : String) : ∀ (xs acc : List (String × Json)),
    (xs.foldl (fun acc kv => if acc.any (fun x => x.1 == kv.1) then acc.map (fun x => if x.1 == kv.1 then kv else x)
      else acc ++ [kv]) acc).find? (fun x => x.1 == key) =
      (xs.reverse.find? (fun x => x.1 == key)).or (acc.find? (fun x => x.1 == key)) := by
  intro xs
  induction xs with
  | nil =>
    intro acc
    simp
  | cons kv xs ih =>
    intro acc
    rw [List.foldl_cons, ih, find?_lastOfEach_step, List.reverse_cons, List.find?_append]
    by_cases named : kv.1 = key <;> simp [named]

theorem find?_lastOfEach (members : List (String × Json)) (key : String) :
    (lastOfEach members).find? (fun x => x.1 == key) = members.reverse.find? (fun x => x.1 == key) := by
  unfold lastOfEach
  rw [find?_foldl_lastOfEach]
  simp

theorem find?_filter_of {l : List (String × Json)} {p q : String × Json → Bool}
    (covers : ∀ a, q a = true → p a = true) : (l.filter p).find? q = l.find? q := by
  induction l with
  | nil => rfl
  | cons a l ih =>
    by_cases qa : q a = true
    · simp [covers a qa, qa]
    · by_cases pa : p a = true <;> simp [pa, qa, ih]

/-- A member whose name is no rule field is kept among the extras, with the last value of
its name. -/
theorem Decoded.find?_extra {members : List (String × Json)} {r : Rule} (decoded : Decoded (lastOfEach members) r)
    {key : String} (unknown : key ∉ knownNames) :
    r.extra.find? (fun x => x.1 == key) = members.reverse.find? (fun x => x.1 == key) := by
  rw [decoded.extra, find?_filter_of, find?_lastOfEach]
  intro kv named
  have same : kv.1 = key := by simpa using named
  simpa [same] using unknown

/-! ## Which name takes effect -/

theorem readInt_current {v : Json} (present : v ≠ .null) (a b : Int) : readInt v a = readInt v b := by
  cases v with
  | null => exact absurd rfl present
  | _ => rfl

/-- A timestamp member reads as no time exactly when it is absent, `null` or the empty
text. -/
theorem readTime_eq_none_iff {m : List (String × Json)} {key : String} :
    readTime m key = .ok none ↔ member? m key = none ∨ member? m key = some (.str "") := by
  unfold readTime
  cases found : member? m key with
  | none => simp
  | some v =>
    have present := member?_ne_null found
    simp only [reduceCtorEq, Option.some.injEq, false_or]
    cases v with
    | null => exact absurd rfl present
    | str s =>
      simp only [readString, Json.str.injEq]
      by_cases empty : s = ""
      · subst empty
        simp
      · cases parsed : parseTimestamp s <;> simp [empty, parsed]
    | _ => simp [readString]

theorem readTime_text {m : List (String × Json)} {key s : String} {time : Option Clock.Instant}
    (found : member? m key = some (.str s)) (nonempty : s ≠ "") (read : readTime m key = .ok time) :
    ∃ t, parseTimestamp s = some t ∧ time = some t := by
  unfold readTime at read
  rw [found] at read
  simp only [readString] at read
  cases parsed : parseTimestamp s with
  | none =>
    rw [parsed] at read
    cases read
  | some t =>
    rw [parsed] at read
    cases read
    exact ⟨t, rfl, rfl⟩

/-- The legacy names take effect only where the current names hold nothing: `created` when
`created_at` is absent, `null` or the empty text (which reads as no time), and
`apply_count` when `times_applied` is absent or `null`. -/
theorem Decoded.legacy {m : List (String × Json)} {r : Rule} (decoded : Decoded m r) :
    (∀ s, member? m "created_at" = some (.str s) → s ≠ "" → ∃ t, parseTimestamp s = some t ∧ r.createdAt = t) ∧
    ((member? m "created_at" = none ∨ member? m "created_at" = some (.str "")) →
      ∀ legacy, readTime m "created" = .ok legacy → r.createdAt = legacy.getD Clock.Instant.zero) ∧
    (∀ v, member? m "times_applied" = some v → readInt v 0 = .ok r.timesApplied) ∧
    (member? m "times_applied" = none → ∀ v, member? m "apply_count" = some v → readInt v 0 = .ok r.timesApplied) := by
  obtain ⟨legacyT, currentT, legacyTime, currentTime, createdEq⟩ := decoded.createdAt
  obtain ⟨legacyN, legacyCount, count⟩ := decoded.timesApplied
  refine ⟨fun s found nonempty => ?_, fun nothing legacy read => ?_, fun v found => ?_, fun absent v found => ?_⟩
  · obtain ⟨t, parsed, rfl⟩ := readTime_text found nonempty currentTime
    exact ⟨t, parsed, by simpa using createdEq⟩
  · have none : currentT = none := by
      have := readTime_eq_none_iff.mpr nothing
      rw [currentTime] at this
      cases this
      rfl
    rw [legacyTime] at read
    cases read
    rw [createdEq, none, Option.none_or]
  · rw [readInt_current (member?_ne_null found) 0 legacyN]
    exact picked_some count found
  · rw [picked_none count absent]
    exact picked_some legacyCount found

theorem Decoded.defaults {m : List (String × Json)} {r : Rule} (decoded : Decoded m r) :
    (member? m "rule_id" = none → r.id = "unknown") ∧
    (member? m "confidence" = none → r.confidence = 0.5) ∧
    (member? m "injection_point" = none → r.injectionPoint = "PreToolUse") ∧
    (member? m "active" = none → r.active = true) ∧
    (member? m "source_episodes" = none → r.sourceEpisodes = []) := by
  refine ⟨picked_none decoded.id, picked_none decoded.confidence, fun absent => ?_, picked_none decoded.active,
    fun absent => ?_⟩
  · obtain ⟨point, picked, pointEq⟩ := decoded.injectionPoint
    rw [pointEq, picked_none picked absent]
    rfl
  · obtain ⟨episodes, picked, episodesEq⟩ := decoded.sourceEpisodes
    rw [episodesEq, picked_none picked absent]
    rfl

end Rule

end Procedural
end AgentMemory
