import Mathlib
import AgentMemory.Proofs.Procedural.Codec
import AgentMemory.Proofs.Json.Compact
import AgentMemory.Proofs.Clock.Layouts

namespace AgentMemory
namespace Procedural

open Json

/-!
# Writing a rule and reading it back

A rule is written as the object of its known members (`Rule.knownMembers`), joined with its
extras and sorted by name when it has any, and read back by `Rule.read`.  Main statement:
`read_toJson`, a rule read from a document whose timestamps have a written form reads back
from its document form as itself, its extras in the order of their names.

The members of the written object are the extras and the known members in some order, each
name once (`toJson_members`), so every name is looked up as in the known members or the
extras (`member?_written`).  Each known member then reads back as its field: strings and
truth values as they are, the confidence as the double it is (`readFloat_ofFloat`), the
count as the integer it is, and a timestamp from its RFC 3339 text (`readTime_instant`).
-/

namespace Rule

/-- The timestamps a rule writes have a written form, as encoding a rule asks: the creation
time when it is not the zero instant, the last application and the decay time. -/
structure Writable (r : Rule) : Prop where
  createdAt : r.createdAt.isZero = false → r.createdAt.writable
  lastApplied : ∀ t ∈ r.lastApplied, t.writable
  decayedAt : ∀ t ∈ r.decayedAt, t.writable

/-! ## The members of the document form -/

theorem knownMembers_names (r : Rule) :
    r.knownMembers.map Prod.fst =
      ["rule_id", "trigger", "behavior", "rationale", "source_episodes", "confidence", "created_at",
        "last_applied", "times_applied", "injection_point", "prompt_template", "active"] ++
      (r.decayedAt.map fun _ => "decayed_at").toList := by
  unfold knownMembers
  cases r.decayedAt <;> rfl

theorem knownMembers_nodup (r : Rule) : (r.knownMembers.map Prod.fst).Nodup := by
  rw [knownMembers_names]
  cases r.decayedAt <;> simp

theorem knownMembers_known (r : Rule) : ∀ kv ∈ r.knownMembers, kv.1 ∈ knownNames := by
  have written : ∀ name ∈ r.knownMembers.map Prod.fst, name ∈ knownNames := by
    rw [knownMembers_names]
    cases r.decayedAt <;> simp [knownNames]
  exact fun kv mem => written kv.1 (List.mem_map_of_mem mem)

theorem legacy_not_written (r : Rule) :
    "created" ∉ r.knownMembers.map Prod.fst ∧ "apply_count" ∉ r.knownMembers.map Prod.fst := by
  rw [knownMembers_names]
  cases r.decayedAt <;> simp

/-- The members a rule whose extras have unknown names is written with: its extras and its
known members, in some order. -/
theorem toJson_members (r : Rule) (unknown : ∀ kv ∈ r.extra, kv.1 ∉ knownNames) :
    ∃ ms, r.toJson = .obj ms ∧ ms.Perm (r.extra ++ r.knownMembers) := by
  have kept : r.extra.filter (fun kv => !r.knownMembers.any (fun k => k.1 == kv.1)) = r.extra := by
    apply List.filter_eq_self.mpr
    intro kv mem
    simp only [Bool.not_eq_true', List.any_eq_false, beq_iff_eq]
    intro k known same
    exact unknown kv mem (same ▸ knownMembers_known r k known)
  unfold toJson
  split
  · rename_i empty
    exact ⟨_, rfl, by simp [List.isEmpty_iff.mp empty]⟩
  · refine ⟨_, rfl, ?_⟩
    rw [kept]
    exact List.mergeSort_perm _ _

/-! ## Looking names up in the written members -/

theorem member?_perm {m m' : List (String × Json)} (perm : m.Perm m') (distinct : (m.map Prod.fst).Nodup)
    (key : String) : member? m key = member? m' key := by
  have distinct' : (m'.map Prod.fst).Nodup := ((perm.map Prod.fst).nodup_iff).mp distinct
  by_cases named : key ∈ m.map Prod.fst
  · obtain ⟨⟨k, v⟩, mem, rfl⟩ := List.mem_map.mp named
    unfold member?
    rw [find?_of_mem distinct mem, find?_of_mem distinct' (perm.subset mem)]
  · have named' : key ∉ m'.map Prod.fst := fun mem => named ((perm.map Prod.fst).symm.subset mem)
    rw [member?_of_not_mem named, member?_of_not_mem named']

theorem member?_append_of_not_mem {m m' : List (String × Json)} {key : String} (absent : key ∉ m.map Prod.fst) :
    member? (m ++ m') key = member? m' key := by
  have missing : m.find? (fun kv => kv.1 == key) = none := by
    rw [List.find?_eq_none]
    intro kv mem same
    have named : kv.1 = key := by simpa using same
    exact absent (named ▸ List.mem_map_of_mem mem)
  unfold member?
  rw [List.find?_append, missing, Option.none_or]

section Written

variable {r : Rule} {ms : List (String × Json)}

theorem written_nodup (readable : r.Readable) : ((r.extra ++ r.knownMembers).map Prod.fst).Nodup := by
  rw [List.map_append, List.nodup_append]
  refine ⟨readable.extraNames, knownMembers_nodup r, ?_⟩
  intro a extraName b knownName same
  obtain ⟨kv, extra, rfl⟩ := List.mem_map.mp extraName
  obtain ⟨kv', known, rfl⟩ := List.mem_map.mp knownName
  exact readable.extraUnknown kv extra (same ▸ knownMembers_known r kv' known)

/-- In the written members, a known name holds what the rule writes under it. -/
theorem member?_written (readable : r.Readable) (perm : ms.Perm (r.extra ++ r.knownMembers)) {key : String}
    (known : key ∈ knownNames) : member? ms key = member? r.knownMembers key := by
  have distinct : (ms.map Prod.fst).Nodup := ((perm.map Prod.fst).nodup_iff).mpr (written_nodup readable)
  rw [member?_perm perm distinct, member?_append_of_not_mem]
  intro extraName
  obtain ⟨kv, extra, rfl⟩ := List.mem_map.mp extraName
  exact readable.extraUnknown kv extra known

theorem written_extras (readable : r.Readable) (perm : ms.Perm (r.extra ++ r.knownMembers)) :
    (ms.filter fun kv => !knownNames.contains kv.1).Perm r.extra := by
  have unknownExtras : r.extra.filter (fun kv => !knownNames.contains kv.1) = r.extra := by
    apply List.filter_eq_self.mpr
    intro kv mem
    simpa using readable.extraUnknown kv mem
  have knownDropped : r.knownMembers.filter (fun kv => !knownNames.contains kv.1) = [] := by
    apply List.filter_eq_nil_iff.mpr
    intro kv mem
    simpa using knownMembers_known r kv mem
  have filtered := perm.filter (fun kv => !knownNames.contains kv.1)
  rwa [List.filter_append, unknownExtras, knownDropped, List.append_nil] at filtered

theorem written_member (readable : r.Readable) (perm : ms.Perm (r.extra ++ r.knownMembers)) {key : String}
    {v : Json} (mem : (key, v) ∈ r.knownMembers) (present : v ≠ .null) : member? ms key = some v :=
  (member?_written readable perm (knownMembers_known r _ mem)).trans
    (member?_of_mem (knownMembers_nodup r) mem present)

theorem written_null (readable : r.Readable) (perm : ms.Perm (r.extra ++ r.knownMembers)) {key : String}
    (mem : (key, .null) ∈ r.knownMembers) : member? ms key = none :=
  (member?_written readable perm (knownMembers_known r _ mem)).trans
    (member?_of_mem_null (knownMembers_nodup r) mem)

theorem written_absent (readable : r.Readable) (perm : ms.Perm (r.extra ++ r.knownMembers)) {key : String}
    (known : key ∈ knownNames) (absent : key ∉ r.knownMembers.map Prod.fst) : member? ms key = none :=
  (member?_written readable perm known).trans (member?_of_not_mem absent)

end Written

/-! ## Each known member reads back as its field -/

theorem picked_of_member {α : Type} {m : List (String × Json)} {key : String} {read : Json → Except Failure α}
    {default a : α} {v : Json} (found : member? m key = some v) (reads : read v = .ok a) :
    Picked m key read default a := by
  unfold Picked
  rw [found]
  exact reads

theorem picked_of_absent {α : Type} {m : List (String × Json)} {key : String} {read : Json → Except Failure α}
    {default : α} (absent : member? m key = none) : Picked m key read default default := by
  unfold Picked
  rw [absent]

theorem readTime_absent {m : List (String × Json)} {key : String} (absent : member? m key = none) :
    readTime m key = .ok none := by
  unfold readTime
  rw [absent]

/-- A time written as RFC 3339 text is read by the layouts of rules as the same instant in
UTC. -/
theorem parseTimestamp_rfc3339 {t : Clock.Instant} (writable : t.writable) (minutes : t.offset % 60 = 0) :
    parseTimestamp t.rfc3339 = t.utc := by
  have first : (Clock.Instant.rfc3339Layout == Clock.Instant.rfc3339Layout) = true := by decide +kernel
  simp [parseTimestamp, timestampLayouts, Clock.Instant.parseFirst, first,
    Clock.Instant.parseRfc3339_rfc3339 t writable minutes]

/-- A timestamp in UTC written as its RFC 3339 text is read back as itself. -/
theorem readTime_instant {m : List (String × Json)} {key : String} {t : Clock.Instant}
    (found : member? m key = some (instantJson t)) (writable : t.writable) (utc : t.offset = 0) :
    readTime m key = .ok (some t) := by
  have read : parseTimestamp t.rfc3339 = some t := by
    rw [parseTimestamp_rfc3339 writable (by rw [utc]; rfl), Clock.Instant.utc_eq_self utc]
  have nonempty : t.rfc3339 ≠ "" := by
    intro empty
    have strict := Clock.Instant.parseStrict_rfc3339 t writable (by rw [utc]; rfl)
    rw [empty] at strict
    simp [Clock.Instant.parseStrict] at strict
  unfold readTime
  rw [found]
  simp only [instantJson, readString]
  rw [read]

theorem eq_zero_of_isZero {t : Clock.Instant} (zero : t.isZero = true) (utc : t.offset = 0) :
    t = Clock.Instant.zero := by
  obtain ⟨nanos, offset⟩ := t
  simp only [Clock.Instant.isZero, beq_iff_eq] at zero
  simp only at utc zero
  rw [utc, zero]
  rfl

/-- What reading the written members of a readable rule with writable timestamps gives: the
rule, with the extras in the order they are written. -/
theorem decoded_written {r : Rule} {ms : List (String × Json)} (readable : r.Readable) (writable : r.Writable)
    (perm : ms.Perm (r.extra ++ r.knownMembers)) :
    Decoded ms { r with extra := ms.filter fun kv => !knownNames.contains kv.1 } := by
  have member {key : String} {v : Json} (mem : (key, v) ∈ r.knownMembers) (present : v ≠ .null) :=
    written_member readable perm mem present
  have id : member? ms "rule_id" = some (.str r.id) := member (by simp [knownMembers]) nofun
  have trigger : member? ms "trigger" = some (.str r.trigger) := member (by simp [knownMembers]) nofun
  have behavior : member? ms "behavior" = some (.str r.behavior) := member (by simp [knownMembers]) nofun
  have rationale : member? ms "rationale" = some (.str r.rationale) := member (by simp [knownMembers]) nofun
  have episodes : member? ms "source_episodes" = some (ofStrings r.sourceEpisodes) :=
    member (by simp [knownMembers]) nofun
  have confidence : member? ms "confidence" = some (ofFloat r.confidence) := member (by simp [knownMembers]) nofun
  have count : member? ms "times_applied" = some (ofInt r.timesApplied) := member (by simp [knownMembers]) nofun
  have point : member? ms "injection_point" = some (.str r.injectionPoint) :=
    member (by simp [knownMembers]) nofun
  have template : member? ms "prompt_template" = some (.str r.promptTemplate) :=
    member (by simp [knownMembers]) nofun
  have active : member? ms "active" = some (.bool r.active) := member (by simp [knownMembers]) nofun
  refine ⟨picked_of_member id rfl, picked_of_member trigger rfl, picked_of_member behavior rfl,
    picked_of_member rationale rfl,
    ⟨some r.sourceEpisodes, picked_of_member episodes (readStrings_ofStrings (some r.sourceEpisodes)), rfl⟩,
    picked_of_member confidence (readFloat_ofFloat readable.confidence _),
    ⟨0, picked_of_absent (written_absent readable perm (by decide) (legacy_not_written r).2),
      picked_of_member count (readInt_ofInt readable.timesApplied _)⟩,
    ⟨r.injectionPoint, picked_of_member point rfl, ?_⟩, picked_of_member template rfl,
    picked_of_member active rfl,
    ⟨none, if r.createdAt.isZero then none else some r.createdAt,
      readTime_absent (written_absent readable perm (by decide) (legacy_not_written r).1), ?_, ?_⟩,
    ?_, ?_, rfl⟩
  · -- the injection point is never empty, so it is not replaced by the default
    have nonempty : r.injectionPoint.isEmpty = false := by simpa using readable.injectionPoint
    rw [nonempty, if_neg Bool.false_ne_true]
  · -- the creation time: `null` for the zero instant, its text otherwise
    cases zero : r.createdAt.isZero with
    | true =>
      have none : member? ms "created_at" = none := written_null readable perm (by simp [knownMembers, zero])
      exact readTime_absent none
    | false =>
      have some : member? ms "created_at" = some (instantJson r.createdAt) :=
        member (by simp [knownMembers, zero]) nofun
      exact readTime_instant some (writable.createdAt zero) readable.createdAt
  · cases zero : r.createdAt.isZero with
    | true =>
      rw [if_pos rfl]
      exact eq_zero_of_isZero zero readable.createdAt
    | false => rfl
  · -- the last application: `null` when there is none
    cases applied : r.lastApplied with
    | none => exact readTime_absent (written_null readable perm (by simp [knownMembers, applied, instantJson?]))
    | some t =>
      have found : member? ms "last_applied" = some (instantJson t) :=
        member (by simp [knownMembers, applied, instantJson?]) nofun
      exact readTime_instant found (writable.lastApplied t applied) (readable.lastApplied t applied)
  · -- the decay time: not written when there is none
    cases decayed : r.decayedAt with
    | none => exact readTime_absent (written_absent readable perm (by decide) (by simp [knownMembers_names, decayed]))
    | some t =>
      have found : member? ms "decayed_at" = some (instantJson t) := member (by simp [knownMembers, decayed]) nofun
      exact readTime_instant found (writable.decayedAt t decayed) (readable.decayedAt t decayed)

/-- A rule read from a document whose timestamps have a written form reads back from its
document form as itself, its extras in the order of their names. -/
theorem read_toJson {r : Rule} (readable : r.Readable) (writable : r.Writable) :
    ∃ extra, Rule.read r.toJson = .ok { r with extra := extra } ∧ extra.Perm r.extra := by
  obtain ⟨ms, written, perm⟩ := toJson_members r readable.extraUnknown
  have distinct : (ms.map Prod.fst).Nodup := ((perm.map Prod.fst).nodup_iff).mpr (written_nodup readable)
  have once : lastOfEach ms = ms := by
    rw [lastOfEach_eq_lastPerKey]
    exact Episodic.lastPerKey_of_nodup distinct
  refine ⟨_, ?_, written_extras readable perm⟩
  rw [written]
  apply ofMembers_of_decoded
  rw [once]
  exact decoded_written readable writable perm

/-- Naive ISO 8601 text is read as the time the same text names in UTC: alone, and with `Z`
after it as RFC 3339 text. -/
theorem parseTimestamp_naive {s : String} {t : Clock.Instant}
    (read : Clock.Instant.parseLayout Clock.Instant.naiveLayout s = some t) :
    parseTimestamp s = some t ∧ parseTimestamp (s ++ "Z") = some t := by
  have first : (Clock.Instant.rfc3339Layout == Clock.Instant.rfc3339Layout) = true := by decide +kernel
  have second : (Clock.Instant.naiveLayout == Clock.Instant.rfc3339Layout) = false := by decide +kernel
  have utc : t.utc = t := Clock.Instant.utc_eq_self (Clock.Instant.parseLayout_naive_offset read)
  constructor
  · simp [parseTimestamp, timestampLayouts, Clock.Instant.parseFirst, first, second,
      Clock.Instant.parseRfc3339_eq_parseLayout, Clock.Instant.parseLayout_rfc3339_of_naive read, read, utc]
  · simp [parseTimestamp, timestampLayouts, Clock.Instant.parseFirst, first,
      Clock.Instant.parseRfc3339_eq_parseLayout, Clock.Instant.parseLayout_rfc3339_append_zulu, read, utc]

/-! ## From text to text -/

theorem mem_of_mem_lastOfEach {members : List (String × Json)} {kv : String × Json}
    (mem : kv ∈ lastOfEach members) : kv ∈ members := by
  unfold lastOfEach at mem
  revert kv
  apply List.foldlRecOn (motive := fun acc : List (String × Json) => ∀ kv ∈ acc, kv ∈ members)
  · intro kv mem
    cases mem
  · intro acc kept next listed kv mem
    split at mem
    · -- the member of that name is replaced by the new one
      obtain ⟨x, older, rfl⟩ := List.mem_map.mp mem
      split
      · exact listed
      · exact kept x older
    · rcases List.mem_append.mp mem with older | new
      · exact kept kv older
      · rw [List.mem_singleton.mp new]
        exact listed

theorem knownMembers_spelled (r : Rule) : ∀ kv ∈ r.knownMembers, Spelled kv.2 := by
  have episodes : Spelled (ofStrings r.sourceEpisodes) := (integral_ofStrings (some r.sourceEpisodes)).spelled
  have count : Spelled (ofInt r.timesApplied) := (integral_ofInt r.timesApplied).spelled
  have confidence : Spelled (ofFloat r.confidence) := spelled_ofFloat r.confidence
  intro kv mem
  unfold knownMembers at mem
  rcases List.mem_append.mp mem with mem | mem
  · simp only [List.mem_cons, List.mem_nil_iff, or_false] at mem
    rcases mem with rfl | rfl | rfl | rfl | rfl | rfl | rfl | rfl | rfl | rfl | rfl | rfl
    · trivial
    · trivial
    · trivial
    · trivial
    · exact episodes
    · exact confidence
    · dsimp only
      split <;> trivial
    · dsimp only [instantJson?]
      split <;> trivial
    · exact count
    · trivial
    · trivial
    · trivial
  · split at mem
    · rw [List.mem_singleton.mp mem]
      trivial
    · cases mem

/-- The document form of a rule whose extras are literals of the grammar holds only such
literals. -/
theorem spelled_toJson {r : Rule} (extras : ∀ kv ∈ r.extra, Spelled kv.2) : Spelled r.toJson := by
  have each : ∀ kv ∈ r.extra ++ r.knownMembers, Spelled kv.2 := by
    intro kv mem
    rcases List.mem_append.mp mem with extra | known
    · exact extras kv extra
    · exact knownMembers_spelled r kv known
  unfold toJson
  split
  · exact (fieldsSpelled_iff _).mpr fun kv mem => each kv (List.mem_append_right _ mem)
  · refine (fieldsSpelled_iff _).mpr fun kv mem => each kv ?_
    rcases List.mem_append.mp ((List.mergeSort_perm _ _).subset mem) with extra | known
    · exact List.mem_append_left _ (List.mem_of_mem_filter extra)
    · exact List.mem_append_right _ known

theorem extras_spelled {j : Json} {r : Rule} (spelt : Spelled j) (read : Rule.read j = .ok r) :
    ∀ kv ∈ r.extra, Spelled kv.2 := by
  intro kv mem
  unfold Rule.read at read
  split at read
  · rw [(ofMembers_decoded read).extra] at mem
    cases mem
  · rename_i members
    rw [(ofMembers_decoded read).extra, List.mem_filter] at mem
    exact (fieldsSpelled_iff members).mp spelt kv (mem_of_mem_lastOfEach mem.1)
  · cases read

/-- A document text read as a rule is the text of a tree of grammar literals, read as the
rule. -/
theorem decode_cases {text : String} {r : Rule} (decoded : (parseDocument text).bind Rule.read = .ok r) :
    ∃ j, parse text = .ok j ∧ Spelled j ∧ Rule.read j = .ok r := by
  unfold parseDocument at decoded
  cases parsed : parse text with
  | error e =>
    rw [parsed] at decoded
    cases decoded
  | ok j =>
    rw [parsed] at decoded
    exact ⟨j, rfl, spelled_of_parse parsed, decoded⟩

/-- The text a rule read from a document is written as, without blanks, reads back as the
rule when its timestamps have a written form: the same fields, and the same extras in the
order of their names. -/
theorem decode_compact_toJson {text : String} {r : Rule} (decoded : (parseDocument text).bind Rule.read = .ok r)
    (writable : r.Writable) :
    ∃ extra, (parseDocument (compact r.toJson)).bind Rule.read = .ok { r with extra := extra } ∧
      extra.Perm r.extra := by
  obtain ⟨j, -, spelt, read⟩ := decode_cases decoded
  obtain ⟨extra, readBack, perm⟩ := read_toJson (read_readable read) writable
  refine ⟨extra, ?_, perm⟩
  rw [parseDocument_compact _ (spelled_toJson (extras_spelled spelt read))]
  exact readBack

/-! ## The laws of the rule codec -/

/-- The rule codec.  A rule read from a document text, when its timestamps have a written
form, reads back from the text it is written as with the same fields and the same extras
(in the order of their names).  A member whose name is no rule field is kept with the last
value of its name.  The legacy names take effect only where the current ones hold nothing:
`created` when `created_at` is absent, `null` or the empty text, `apply_count` when
`times_applied` is absent or `null`; and they are never written.  Members left out or
`null` take the documented defaults.  Naive ISO 8601 text is read as the time its RFC 3339
form in UTC names, and every timestamp is read in UTC. -/
theorem rule_codec_laws :
    (∀ (text : String) (r : Rule), (parseDocument text).bind Rule.read = .ok r → r.Writable →
      ∃ extra, (parseDocument (compact r.toJson)).bind Rule.read = .ok { r with extra := extra } ∧
        extra.Perm r.extra) ∧
    (∀ (members : List (String × Json)) (r : Rule), Rule.read (.obj members) = .ok r →
      ∀ key, key ∉ knownNames →
        r.extra.find? (fun x => x.1 == key) = members.reverse.find? (fun x => x.1 == key)) ∧
    (∀ (members : List (String × Json)) (r : Rule), Rule.read (.obj members) = .ok r →
      (∀ s, member? (lastOfEach members) "created_at" = some (.str s) → s ≠ "" →
        ∃ t, parseTimestamp s = some t ∧ r.createdAt = t) ∧
      ((member? (lastOfEach members) "created_at" = none ∨
          member? (lastOfEach members) "created_at" = some (.str "")) →
        ∀ legacy, readTime (lastOfEach members) "created" = .ok legacy →
          r.createdAt = legacy.getD Clock.Instant.zero) ∧
      (∀ v, member? (lastOfEach members) "times_applied" = some v → readInt v 0 = .ok r.timesApplied) ∧
      (member? (lastOfEach members) "times_applied" = none →
        ∀ v, member? (lastOfEach members) "apply_count" = some v → readInt v 0 = .ok r.timesApplied)) ∧
    (∀ (text : String) (r : Rule), (parseDocument text).bind Rule.read = .ok r →
      ∀ ms, r.toJson = .obj ms → "created" ∉ ms.map Prod.fst ∧ "apply_count" ∉ ms.map Prod.fst) ∧
    (∀ (members : List (String × Json)) (r : Rule), Rule.read (.obj members) = .ok r →
      (member? (lastOfEach members) "rule_id" = none → r.id = "unknown") ∧
      (member? (lastOfEach members) "confidence" = none → r.confidence = 0.5) ∧
      (member? (lastOfEach members) "injection_point" = none → r.injectionPoint = "PreToolUse") ∧
      (member? (lastOfEach members) "active" = none → r.active = true) ∧
      (member? (lastOfEach members) "source_episodes" = none → r.sourceEpisodes = [])) ∧
    (∀ (s : String) (t : Clock.Instant), Clock.Instant.parseLayout Clock.Instant.naiveLayout s = some t →
      parseTimestamp s = some t ∧ parseTimestamp (s ++ "Z") = some t) ∧
    (∀ (s : String) (t : Clock.Instant), parseTimestamp s = some t → t.offset = 0) := by
  refine ⟨fun text r decoded writable => decode_compact_toJson decoded writable,
    fun members r read key unknown => (ofMembers_decoded read).find?_extra unknown,
    fun members r read => (ofMembers_decoded read).legacy, fun text r decoded ms written => ?_,
    fun members r read => (ofMembers_decoded read).defaults, fun s t read => parseTimestamp_naive read,
    fun s t parsed => Clock.Instant.parseFirst_offset parsed⟩
  obtain ⟨j, -, -, read⟩ := decode_cases decoded
  have readable := read_readable read
  obtain ⟨ms', written', perm⟩ := toJson_members r readable.extraUnknown
  rw [written] at written'
  cases written'
  have names : ∀ name ∈ ms.map Prod.fst, name ∈ r.extra.map Prod.fst ∨ name ∈ r.knownMembers.map Prod.fst := by
    intro name named
    rw [← List.mem_append, ← List.map_append]
    exact (perm.map Prod.fst).subset named
  have extraNames : ∀ name ∈ r.extra.map Prod.fst, name ∉ knownNames := by
    intro name named
    obtain ⟨kv, extra, rfl⟩ := List.mem_map.mp named
    exact readable.extraUnknown kv extra
  constructor
  · intro named
    rcases names _ named with extra | known
    · exact extraNames _ extra (by decide)
    · exact (legacy_not_written r).1 known
  · intro named
    rcases names _ named with extra | known
    · exact extraNames _ extra (by decide)
    · exact (legacy_not_written r).2 known

/-- A rule document with a naive creation time, the legacy count `apply_count` and a
member no version knows. -/
def legacyRuleText : String :=
  "\x7b\"rule_id\":\"r1\",\"created_at\":\"2024-01-02T03:04:05\",\"apply_count\":2,\"note\":\"kept\"\x7d"

/-- The rule that document holds: created at that time of day in UTC, applied twice. -/
def legacyRule : Rule :=
  { id := "r1", confidence := 0.5, createdAt := ⟨1704164645000000000, 0⟩, timesApplied := 2,
    extra := [("note", .str "kept")] }

/-- The legacy document reads as its rule, which writes no legacy name and reads back from
its written form with its extra; its naive time is the UTC one. -/
theorem rule_codec_laws_legacy_document :
    (parseDocument legacyRuleText).bind Rule.read = .ok legacyRule ∧ legacyRule.Writable ∧
      (∃ extra, (parseDocument (compact legacyRule.toJson)).bind Rule.read = .ok { legacyRule with extra := extra } ∧
        extra.Perm legacyRule.extra) ∧
      (∀ ms, legacyRule.toJson = .obj ms → "created" ∉ ms.map Prod.fst ∧ "apply_count" ∉ ms.map Prod.fst) ∧
      parseTimestamp "2024-01-02T03:04:05" = some ⟨1704164645000000000, 0⟩ ∧
      parseTimestamp "2024-01-02T03:04:05Z" = some ⟨1704164645000000000, 0⟩ := by
  have parsed : parse legacyRuleText = .ok (.obj [("rule_id", .str "r1"), ("created_at", .str "2024-01-02T03:04:05"),
      ("apply_count", .num "2"), ("note", .str "kept")]) := by
    cbv
  have read : Rule.read (.obj [("rule_id", .str "r1"), ("created_at", .str "2024-01-02T03:04:05"),
      ("apply_count", .num "2"), ("note", .str "kept")]) = .ok legacyRule := rfl
  have decoded : (parseDocument legacyRuleText).bind Rule.read = .ok legacyRule := by
    simp only [parseDocument, parsed]
    exact read
  have writable : legacyRule.Writable := by
    refine ⟨fun _ => rfl, ?_, ?_⟩ <;> intro t none <;> cases none
  have naive : Clock.Instant.parseLayout Clock.Instant.naiveLayout "2024-01-02T03:04:05" =
      some ⟨1704164645000000000, 0⟩ := rfl
  exact ⟨decoded, writable, rule_codec_laws.1 _ _ decoded writable, rule_codec_laws.2.2.2.1 _ _ decoded,
    rule_codec_laws.2.2.2.2.2.1 _ _ naive⟩

/-- A rule document whose `created_at` is the empty text, beside a legacy `created`. -/
def emptyCreatedAtText : String :=
  "\x7b\"rule_id\":\"r1\",\"created\":\"2024-01-02T03:04:05Z\",\"created_at\":\"\"\x7d"

/-- An empty `created_at` is neither absent nor `null`, and yet the legacy `created` takes
effect: empty text reads as no time. -/
theorem empty_created_at_takes_legacy_time :
    (parseDocument emptyCreatedAtText).bind Rule.read =
      .ok { id := "r1", confidence := 0.5, createdAt := ⟨1704164645000000000, 0⟩ } := by
  have parsed : parse emptyCreatedAtText =
      .ok (.obj [("rule_id", .str "r1"), ("created", .str "2024-01-02T03:04:05Z"), ("created_at", .str "")]) := by
    cbv
  have read : Rule.read (.obj [("rule_id", .str "r1"), ("created", .str "2024-01-02T03:04:05Z"),
      ("created_at", .str "")]) = .ok { id := "r1", confidence := 0.5, createdAt := ⟨1704164645000000000, 0⟩ } :=
    rfl
  simp only [parseDocument, parsed]
  exact read

end Rule

end Procedural
end AgentMemory
