import AgentMemory.Regex.Search

namespace AgentMemory
namespace Regex

/-!
# Where the matches of a pattern lie

The machine reports a match as its slots when it reaches `accept`: the match runs from
slot 0, recorded when the whole pattern starts, to slot 1, set to the accepting
position.  Positions only move forward along a thread and never past the text, so a
match starts no later than it ends and ends within the text
(`Compiled.findAll_within`).

Backtracking puts slots back to earlier values, so the bound on slot 0 is carried by the
pending work (`JobsBelow`): popping restores from the top, each position still to try
lies within the text and above slot 0 as it will be then.  A search reuses the machine
of the one before, whose slots may hold anything, but a compiled pattern starts by
recording slot 0 (`Program.Entered`), so each search restores the bound at its first
step.
-/

theorem compileNode_capture_run (n : Nat) (body : Node) (k : Nat) (s : Array Inst) :
    (compileNode (.capture n body) k).run s =
      let r := (compileNode body s.size).run (s.push (.save (2 * n + 1) k))
      (r.2.size, r.2.push (.save (2 * n) r.1)) := by
  rw [compileNode]
  rfl

theorem ofParsed_slots (p : Parsed) : (Program.ofParsed p).slots = 2 * (p.groups + 1) := by
  dsimp only [Program.ofParsed]
  split
  rfl

theorem ofParsed_start (p : Parsed) :
    ∃ b, (Program.ofParsed p).insts[(Program.ofParsed p).start]? = some (.save 0 b) := by
  -- the whole match is group 0, whose save of slot 0 is emitted last and is the entry
  have run : (do let acc ← emit .accept; compileNode (.capture 0 p.node.expand) acc : Emit Nat).run #[] =
      (compileNode (.capture 0 p.node.expand) 0).run #[.accept] := rfl
  rw [compileNode_capture_run] at run
  rcases inner : (compileNode p.node.expand #[Inst.accept].size).run (#[Inst.accept].push (.save (2 * 0 + 1) 0))
    with ⟨b, insts⟩
  rw [inner] at run
  refine ⟨b, ?_⟩
  simp only [Program.ofParsed, run, Array.getElem?_push_size, Nat.mul_zero]

theorem getElem!_set!_of_ne {a : Array Int} {i j : Nat} (v : Int) (other : i ≠ j) : (a.set! i v)[j]! = a[j]! := by
  simp [Array.set!_eq_setIfInBounds, getElem!_def, other]

theorem getElem!_set!_self {a : Array Int} {i : Nat} (v : Int) (inside : i < a.size) : (a.set! i v)[i]! = v := by
  simp [Array.set!_eq_setIfInBounds, inside]

theorem set!_restore (a : Array Int) (i : Nat) (v : Int) : (a.set! i v).set! i a[i]! = a := by
  apply Array.ext_getElem?
  intro j
  simp only [Array.set!_eq_setIfInBounds, Array.setIfInBounds_setIfInBounds, Array.getElem?_setIfInBounds]
  split
  · subst_vars
    split
    · simp [*]
    · simp_all
  · rfl

/-- Slot 0, where the match started, holds no position past `pos`. -/
def StartBelow (slots : Array Int) (pos : Nat) : Prop := slots[0]! ≤ pos

/-- The pending work in order, popped from the top with the slots `slots`. -/
def JobsBelow (size : Nat) : Array Int → List Job → Prop
  | _, [] => True
  | slots, .restore slot old :: rest => JobsBelow size (slots.set! slot old) rest
  | slots, .tryAt _ pos :: rest => StartBelow slots pos ∧ pos ≤ size ∧ JobsBelow size slots rest

/-- The machine, about to try `cur`, keeps the bound on slot 0. -/
structure Machine.Sound (size : Nat) (m : Machine) (cur : Option (Nat × Nat)) : Prop where
  two : 2 ≤ m.slots.size
  current : ∀ pc pos, cur = some (pc, pos) → StartBelow m.slots pos ∧ pos ≤ size
  jobs : JobsBelow size m.slots m.jobs

/-- A match, as slots, starts no later than it ends, within a text of `size` characters. -/
def Bounded (size : Nat) (slots : Array Int) : Prop := slots[0]!.toNat ≤ slots[1]!.toNat ∧ slots[1]!.toNat ≤ size

namespace Machine.Sound

variable {size : Nat} {m : Machine}

theorem pop_restore {slot : Nat} {old : Int} {rest : List Job} (sound : m.Sound size none)
    (jobs : m.jobs = .restore slot old :: rest) :
    Machine.Sound size { m with slots := m.slots.set! slot old, jobs := rest } none := by
  have below := sound.jobs
  rw [jobs, JobsBelow] at below
  exact ⟨by simpa [Array.size_set!] using sound.two, (fun _ _ none => by cases none), below⟩

theorem pop_try {pc pos : Nat} {rest : List Job} (sound : m.Sound size none)
    (jobs : m.jobs = .tryAt pc pos :: rest) : Machine.Sound size { m with jobs := rest } (some (pc, pos)) := by
  have below := sound.jobs
  rw [jobs, JobsBelow] at below
  obtain ⟨start, inside, rest⟩ := below
  refine ⟨sound.two, ?_, rest⟩
  rintro _ _ ⟨⟩
  exact ⟨start, inside⟩

theorem drop {cur : Option (Nat × Nat)} (sound : m.Sound size cur) : m.Sound size none :=
  ⟨sound.two, (fun _ _ none => by cases none), sound.jobs⟩

theorem mark {cur : Option (Nat × Nat)} (seen : Array Nat) (sound : m.Sound size cur) :
    Machine.Sound size { m with seen := seen } cur :=
  ⟨sound.two, sound.current, sound.jobs⟩

theorem goto {pc pos : Nat} (next : Nat) (sound : m.Sound size (some (pc, pos))) : m.Sound size (some (next, pos)) := by
  obtain ⟨start, inside⟩ := sound.current pc pos rfl
  refine ⟨sound.two, ?_, sound.jobs⟩
  rintro _ _ ⟨⟩
  exact ⟨start, inside⟩

theorem advance {pc pos : Nat} (next : Nat) (sound : m.Sound size (some (pc, pos))) (more : pos < size) :
    m.Sound size (some (next, pos + 1)) := by
  obtain ⟨start, -⟩ := sound.current pc pos rfl
  refine ⟨sound.two, ?_, sound.jobs⟩
  rintro _ _ ⟨⟩
  exact ⟨by unfold StartBelow at start ⊢; omega, more⟩

theorem split {pc pos : Nat} (first second : Nat) (sound : m.Sound size (some (pc, pos))) :
    Machine.Sound size { m with jobs := .tryAt second pos :: m.jobs } (some (first, pos)) := by
  obtain ⟨start, inside⟩ := sound.current pc pos rfl
  refine ⟨sound.two, ?_, start, inside, sound.jobs⟩
  rintro _ _ ⟨⟩
  exact ⟨start, inside⟩

theorem save {pc pos : Nat} (slot next : Nat) (sound : m.Sound size (some (pc, pos))) :
    Machine.Sound size { m with jobs := .restore slot m.slots[slot]! :: m.jobs, slots := m.slots.set! slot pos }
      (some (next, pos)) := by
  obtain ⟨start, inside⟩ := sound.current pc pos rfl
  refine ⟨by simpa [Array.size_set!] using sound.two, ?_, ?_⟩
  · rintro _ _ ⟨⟩
    refine ⟨?_, inside⟩
    by_cases zero : slot = 0
    · subst zero
      exact Int.le_of_eq (getElem!_set!_self _ (by have := sound.two; omega))
    · rw [StartBelow, getElem!_set!_of_ne _ zero]
      exact start
  · show JobsBelow size ((m.slots.set! slot pos).set! slot m.slots[slot]!) m.jobs
    rw [set!_restore]
    exact sound.jobs

theorem accept {pc pos : Nat} (sound : m.Sound size (some (pc, pos))) : Bounded size (m.slots.set! 1 pos) := by
  obtain ⟨start, inside⟩ := sound.current pc pos rfl
  have two := sound.two
  rw [Bounded, getElem!_set!_of_ne _ (by decide), getElem!_set!_self _ (by omega)]
  unfold StartBelow at start
  omega

end Machine.Sound

theorem Machine.run_bounded {prog : Program} {text : Array Char} {fuel : Nat} {m : Machine}
    {cur : Option (Nat × Nat)} (sound : m.Sound text.size cur) {slots : Array Int}
    (found : (Machine.run prog text fuel m cur).1 = some slots) : Bounded text.size slots := by
  fun_induction Machine.run prog text fuel m cur with
  | case1 => cases found
  | case2 => cases found
  | case3 _ _ _ _ _ jobs ih => exact ih (sound.pop_restore jobs) found
  | case4 _ _ _ _ _ jobs ih => exact ih (sound.pop_try jobs) found
  | case5 _ _ _ _ _ _ ih => exact ih sound.drop found
  | case6 _ _ _ _ _ _ _ _ _ _ _ at_pos _ ih =>
    exact ih ((sound.mark _).advance _ (Array.getElem?_eq_some_iff.mp at_pos).1) found
  | case7 _ _ _ _ _ _ _ _ _ _ _ _ _ ih => exact ih (sound.mark _).drop found
  | case8 _ _ _ _ _ _ _ _ _ _ _ ih => exact ih (sound.mark _).drop found
  | case9 _ _ _ _ _ _ _ _ _ _ ih => exact ih ((sound.mark _).split _ _) found
  | case10 _ _ _ _ _ _ _ _ _ _ _ ih => exact ih ((sound.mark _).save _ _) found
  | case11 _ _ _ _ _ _ _ _ _ _ _ ih => exact ih ((sound.mark _).goto _) found
  | case12 _ _ _ _ _ _ _ _ _ _ _ ih => exact ih (sound.mark _).drop found
  | case13 =>
    cases found
    exact (sound.mark _).accept
  | case14 _ _ _ _ _ _ _ _ ih => exact ih (sound.mark _).drop found
  | case15 _ _ _ _ _ _ _ _ ih => exact ih (sound.mark _).drop found

theorem Machine.run_slots_size (prog : Program) (text : Array Char) (fuel : Nat) (m : Machine)
    (cur : Option (Nat × Nat)) : (Machine.run prog text fuel m cur).2.slots.size = m.slots.size := by
  fun_induction Machine.run prog text fuel m cur <;> simp_all +zetaDelta

theorem Machine.run_idle (prog : Program) (text : Array Char) (fuel : Nat) {m : Machine} (idle : m.jobs = []) :
    (Machine.run prog text fuel m none).1 = none := by
  cases fuel with
  | zero => rfl
  | succ fuel => simp [Machine.run, idle]

/-- What a search needs of a program: the two slots of the whole match, and an entry that
records where the match starts. -/
structure Program.Entered (prog : Program) : Prop where
  two : 2 ≤ prog.slots
  entry : ∃ b, prog.insts[prog.start]? = some (.save 0 b)

theorem compile_entered {pattern : String} {re : Compiled} (compiled : compile pattern = .ok re) :
    re.program.Entered := by
  unfold compile at compiled
  split at compiled
  · cases compiled
    exact ⟨by rw [ofParsed_slots]; omega, ofParsed_start _⟩
  · cases compiled

theorem Machine.run_entry_bounded {prog : Program} {text : Array Char} {fuel : Nat} {m : Machine} {pos b : Nat}
    (entry : prog.insts[prog.start]? = some (.save 0 b)) (idle : m.jobs = []) (two : 2 ≤ m.slots.size)
    (inside : pos ≤ text.size) {slots : Array Int}
    (found : (Machine.run prog text fuel m (some (prog.start, pos))).1 = some slots) : Bounded text.size slots := by
  cases fuel with
  | zero => cases found
  | succ fuel =>
    rw [Machine.run] at found
    split at found
    · rw [Machine.run_idle prog text fuel idle] at found
      cases found
    · simp only [entry] at found
      refine Machine.run_bounded ⟨by simpa [Array.size_set!] using two, ?_, ?_⟩ found
      · rintro _ _ ⟨⟩
        refine ⟨?_, inside⟩
        exact Int.le_of_eq (getElem!_set!_self _ (by omega))
      · simp [idle, JobsBelow]

theorem Compiled.attempt_bounded {text : Array Char} {prog : Program} {budget : Nat} (entered : prog.Entered)
    {slots : Array Int} : ∀ k pos m, m.jobs = [] → 2 ≤ m.slots.size → pos ≤ text.size →
      (Compiled.searchFrom.attempt text prog budget k pos m).1 = some slots → Bounded text.size slots := by
  obtain ⟨b, entry⟩ := entered.entry
  intro k
  induction k with
  | zero => intro _ _ _ _ _ found; cases found
  | succ k ih =>
    intro pos m idle two inside found
    unfold Compiled.searchFrom.attempt at found
    rcases ran : Machine.run prog text budget m (some (prog.start, pos)) with ⟨_ | s, m'⟩ <;>
      rw [ran] at found
    · -- no match here: the next position, with the machine as it was left
      dsimp only at found
      split at found
      · have size := Machine.run_slots_size prog text budget m (some (prog.start, pos))
        rw [ran] at size
        exact ih (pos + 1) { m' with jobs := [] } rfl (by simpa using size ▸ two) (by omega) found
      · cases found
    · cases found
      exact Machine.run_entry_bounded entry idle two inside (by rw [ran])

theorem Compiled.searchFrom_bounded {re : Compiled} (entered : re.program.Entered) {text : Array Char} {origin : Nat}
    {m : Machine} (inside : origin ≤ text.size) {slots : Array Int}
    (found : (re.searchFrom text origin m).1 = some slots) : Bounded text.size slots :=
  Compiled.attempt_bounded entered _ _ _ rfl (by simpa using entered.two) inside found

theorem Compiled.loop_bounded {re : Compiled} (entered : re.program.Entered) {text : Array Char} :
    ∀ fuel pos prevEnd m acc, (∀ s ∈ acc, Bounded text.size s) →
      ∀ s ∈ Compiled.allSlots.loop re text fuel pos prevEnd m acc, Bounded text.size s := by
  intro fuel
  induction fuel with
  | zero => intro _ _ _ acc kept s mem; exact kept s (by simpa [Compiled.allSlots.loop] using mem)
  | succ fuel ih =>
    intro pos prevEnd m acc kept s mem
    unfold Compiled.allSlots.loop at mem
    split at mem
    · exact kept s (by simpa using mem)
    rename_i inside
    rcases searched : re.searchFrom text pos m with ⟨_ | slots, m'⟩ <;> rw [searched] at mem
    · exact kept s (by simpa using mem)
    · have bounded := Compiled.searchFrom_bounded entered (Nat.le_of_not_gt inside) (by rw [searched])
      refine ih _ _ _ _ ?_ s mem
      intro t t_mem
      split at t_mem
      · rcases List.mem_cons.mp t_mem with rfl | older
        · exact bounded
        · exact kept t older
      · exact kept t t_mem

/-- Every match of a program with an entry starts no later than it ends, and ends within
the text. -/
theorem Compiled.findAll_within {re : Compiled} (entered : re.program.Entered) (text : Array Char) :
    ∀ sp ∈ re.findAll text, sp.first ≤ sp.last ∧ sp.last ≤ text.size := by
  intro sp mem
  obtain ⟨slots, found, rfl⟩ := List.mem_map.mp mem
  exact Compiled.loop_bounded entered _ _ _ _ [] (fun _ none => by cases none) slots found

end Regex
end AgentMemory
