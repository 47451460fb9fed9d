import PmcBruteforce.Prefix.Agreement
import PmcBruteforce.Search.Boot

/-! The invariant of the search globals over whole runs, from the first `ud2` on, and the
prefix scan that it keeps inside the array. -/
namespace PmcBruteforce

variable {b : Build}

/-- The position of the search, as the handler finds it. -/
structure Positioned (s : State b) : Prop where
  positive : 1 ≤ s.curInstructionLength
  length : s.curInstructionLength ≤ 15
  index : s.curByteIndex < s.curInstructionLength
  behind : ∀ k, s.curByteIndex < k → s.instructionBytes.get k = 0
  accepted : (containsInvalidCountOfPrefixes b.cpuMode s.instructionBytes.bytes
    (s.curByteIndex + 1)).invalid = false
  malformed : s.malformedInstructionExpectUd = false

/-- The scan reads inside the array, and what it returns does not depend on the bytes at or
past the length. -/
def ScansInside (s : State b) : Prop :=
  ∃ count, countPrefixes b.cpuMode s.instructionBytes.bytes s.curInstructionLength = some count ∧
    countedPrefixes b.cpuMode s.currentInstruction = some count

/-- Where a processed instruction leaves the globals for the next one. -/
structure NextInPlace (s s' : State b) : Prop where
  length : s'.curInstructionLength = s'.curByteIndex + 1
  last : s'.lastInstructionLength = s.curInstructionLength

theorem Searching.positioned {s : State b} (h : Searching s) : Positioned s where
  positive := Nat.lt_of_le_of_lt (Nat.zero_le _) h.index
  length := h.length
  index := h.index
  behind := h.behind
  accepted := by
    have index := h.index
    have length := h.length
    rw [contains_invalid_take _ _ _ (by rw [Buffer.size]; omega)]
    exact h.accepted
  malformed := h.malformed

theorem Positioned.searching {s : State b} (h : Positioned s) (running : searchingState s) :
    Searching s where
  measuringUd := running.1
  measuringNop := running.2
  index := h.index
  length := h.length
  behind := h.behind
  accepted := by
    have index := h.index
    have length := h.length
    rw [← h.accepted, contains_invalid_take _ _ _ (by rw [Buffer.size]; omega)]
    rfl
  malformed := h.malformed

/-- The position is as it was. -/
structure SamePosition (s s' : State b) : Prop where
  pointer : s'.pointerLoop = s.pointerLoop
  last : s'.lastInstructionLength = s.lastInstructionLength

theorem Positioned.of_pointer {s s' : State b} (h : Positioned s)
    (same : s'.pointerLoop = s.pointerLoop) : Positioned s' := by
  simp only [State.pointerLoop, PointerLoop.mk.injEq] at same
  obtain ⟨bytes, index, length, malformed⟩ := same
  constructor
  · rw [length]
    exact h.positive
  · rw [length]
    exact h.length
  · rw [index, length]
    exact h.index
  · rw [bytes, index]
    exact h.behind
  · rw [bytes, index]
    exact h.accepted
  · rw [malformed]
    exact h.malformed

theorem Positioned.scansInside {s : State b} (h : Positioned s) : ScansInside s := by
  have quiet : Positioned { s with measuringUd := false, measuringNop := false } :=
    h.of_pointer rfl
  obtain ⟨count, inside⟩ := (quiet.searching ⟨rfl, rfl⟩).counts_prefixes
  refine ⟨count, inside, ?_⟩
  have length := h.length
  have size : s.currentInstruction.length = s.curInstructionLength :=
    Buffer.string_length _ _ length
  rw [countedPrefixes, size]
  refine countPrefixesFrom_of_reads b.cpuMode ?_ s.curInstructionLength 0 (Nat.zero_add _) inside
  intro k within byte read
  rcases Nat.lt_or_eq_of_le within with before | rfl
  · rw [List.getElem?_append_left (by omega), State.currentInstruction, Buffer.string,
      List.getElem?_take_of_lt before]
    exact read
  · rw [List.getElem?_append_right (Nat.le_of_eq size), size, Nat.sub_self]
    obtain ⟨short, -⟩ := List.getElem?_eq_some_iff.mp read
    rw [Buffer.size] at short
    rw [Buffer.getElem?_eq _ _ short, h.behind _ h.index] at read
    exact read

/-- The invariant of a run: the position, and `nop` is measured only by a build that does. -/
structure Consistent (s : State b) : Prop where
  positioned : Positioned s
  nop : s.measuringNop = true → b.countNops = true

theorem initial_consistent (b : Build) : Consistent (State.initial b) where
  positioned := by
    let a : Baseline b := ⟨Counters.zero b, Counters.zero b, SaveFile.opened⟩
    exact a.start_searching.positioned.of_pointer rfl
  nop := by
    intro measured
    cases measured

section

variable {p : Platform} {s s' : State b} {r : Response b} {i : List UInt8}

/-- A measurement does not touch the position of the search. -/
theorem Consistent.measured_ud (h : Consistent s) (ud : s.measuringUd = true)
    (run : handleException p s r = .execute i s') :
    SamePosition s s' ∧ (s'.measuringNop = true → b.countNops = true) := by
  have measured := ud_measured p ud r
  rw [run] at measured
  generalize same : Outcome.execute i s' = o at measured
  cases measured with
  | unexpected => cases same
  | again =>
    obtain ⟨rfl, rfl⟩ := Outcome.execute.inj same
    exact ⟨⟨rfl, rfl⟩, h.nop⟩
  | saveFailed => cases same
  | nop reproduced success enabled =>
    obtain ⟨rfl, rfl⟩ := Outcome.execute.inj same
    exact ⟨⟨rfl, rfl⟩, fun _ => enabled⟩
  | search reproduced success disabled =>
    obtain ⟨rfl, rfl⟩ := Outcome.execute.inj same
    exact ⟨⟨rfl, rfl⟩, h.nop⟩

theorem Consistent.measured_nop (h : Consistent s) (ud : s.measuringUd = false)
    (nop : s.measuringNop = true) (run : handleException p s r = .execute i s') :
    SamePosition s s' := by
  have measured := nop_measured p (h.nop nop) ud nop r
  rw [run] at measured
  generalize same : Outcome.execute i s' = o at measured
  cases measured with
  | unexpected => cases same
  | again =>
    obtain ⟨rfl, rfl⟩ := Outcome.execute.inj same
    exact ⟨rfl, rfl⟩
  | saveFailed => cases same
  | search success =>
    obtain ⟨rfl, rfl⟩ := Outcome.execute.inj same
    exact ⟨rfl, rfl⟩

/-- A measurement does not touch the statistics. -/
theorem Consistent.measured_stats (h : Consistent s) (measured : measuring s)
    (run : (handleException p s r).globals = some s') : s'.stats = s.stats := by
  cases ud : s.measuringUd with
  | true =>
    have outcome := ud_measured p ud r
    generalize handleException p s r = o at outcome run
    cases outcome with
    | unexpected | again | saveFailed | nop | search =>
      obtain rfl := Option.some.inj run
      rfl
  | false =>
    have nop : s.measuringNop = true := measured.resolve_left (Bool.eq_false_iff.mp ud)
    have outcome := nop_measured p (h.nop nop) ud nop r
    generalize handleException p s r = o at outcome run
    cases outcome with
    | unexpected | again | saveFailed | search =>
      obtain rfl := Option.some.inj run
      rfl

theorem Consistent.unique_count (h : Consistent s)
    (run : (handleException p s r).globals = some s') :
    s'.stats.uniqueInstructionsExecuted = s.stats.uniqueInstructionsExecuted +
      if counted p ⟨⟨i, s⟩, r⟩ = true then 1 else 0 := by
  rcases Classical.em (measuring s) with measured | done
  · have skipped : ¬ counted p ⟨⟨i, s⟩, r⟩ = true := not_counted_of_measuring measured p
    rw [h.measured_stats measured run, if_neg skipped, UInt64.add_zero]
  · have running : searchingState s := by
      simpa [measuring, searchingState] using done
    exact (h.positioned.searching running).unique_count i run

/-- A call either measures, or it belongs to the search. -/
theorem Consistent.cases (h : Consistent s) (run : handleException p s r = .execute i s') :
    (measuring s ∧ SamePosition s s' ∧ (s'.measuringNop = true → b.countNops = true)) ∨
      Searching s ∧ Searching s' := by
  cases ud : s.measuringUd with
  | true => exact .inl ⟨.inl ud, h.measured_ud ud run⟩
  | false =>
    cases nop : s.measuringNop with
    | true => exact .inl ⟨.inr nop, h.measured_nop ud nop run, fun _ => h.nop nop⟩
    | false =>
      have searching := h.positioned.searching ⟨ud, nop⟩
      exact .inr ⟨searching, (searching.execute run).1⟩

theorem Consistent.step (h : Consistent s) (run : handleException p s r = .execute i s') :
    Consistent s' := by
  rcases h.cases run with ⟨-, same, nop⟩ | ⟨-, next⟩
  · exact ⟨h.positioned.of_pointer same.pointer, nop⟩
  · refine ⟨next.positioned, fun measured => ?_⟩
    rw [next.measuringNop] at measured
    cases measured

theorem Searching.next_in_place (h : Searching s) (count : counted p ⟨⟨i, s⟩, r⟩ = true)
    {i' : List UInt8} (run : handleException p s r = .execute i' s') : NextInPlace s s' := by
  cases (h.executes run).1 with
  | grown fault short => exact absurd count (not_counted_of_grown i fault short)
  | restarted unstable => exact absurd count (not_counted_of_restarted i unstable)
  | moved proceeds s'' l success next =>
    refine ⟨next.length, ?_⟩
    obtain ⟨_, _, _, _, fields⟩ := saved_booked success
    rw [fields]
    rfl

end

/-- The invariant rule of a run from a consistent state: the handler is always found in one. -/
theorem consistent_invariant {p : Platform} (P : Run b → Prop) {i : List UInt8} {s : State b}
    (consistent : Consistent s) (start : P ⟨.execute i s, []⟩)
    (keeps : ∀ j log r, Consistent j.state → P ⟨.execute j.instruction j.state, log⟩ →
      P ⟨handleException p j.state r, ⟨j, r⟩ :: log⟩)
    (rs : List (Response b)) : P ((program p).run ⟨.execute i s, []⟩ rs) := by
  let sound : Run b → Prop := fun t => P t ∧ ∀ i s, t.outcome = .execute i s → Consistent s
  have all : sound ((program p).run ⟨.execute i s, []⟩ rs) := by
    apply Library.Reactive.run_invariant sound
    · refine ⟨start, ?_⟩
      intro i' s' same
      obtain ⟨-, rfl⟩ := Outcome.execute.inj same
      exact consistent
    · rintro ⟨o, log⟩ j r running ⟨holds, consistent⟩
      cases o with
      | execute i s =>
        obtain rfl := Option.some.inj running
        have here := consistent i s rfl
        exact ⟨keeps ⟨i, s⟩ log r here holds, fun i' s' run => here.step run⟩
      | halt | outOfBounds | diverge => cases running
  exact all.1

/-- `unique_instructions_executed` is the number of counted instructions of the run. -/
theorem run_unique_count {p : Platform} {i : List UInt8} {s : State b} (consistent : Consistent s)
    (zero : s.stats.uniqueInstructionsExecuted = 0) (rs : List (Response b)) {s' : State b}
    (here : ((program p).run ⟨.execute i s, []⟩ rs).outcome.globals = some s') :
    s'.stats.uniqueInstructionsExecuted =
      UInt64.ofNat (countedIn p ((program p).run ⟨.execute i s, []⟩ rs)).length := by
  have all := consistent_invariant (p := p) (i := i) (fun t => ∀ s', t.outcome.globals = some s' →
    s'.stats.uniqueInstructionsExecuted = UInt64.ofNat (countedIn p t).length) consistent ?_ ?_ rs
  · exact all s' here
  · intro s' same
    obtain rfl := Option.some.inj same
    exact zero
  · intro j log r consistent counts s' run
    rw [consistent.unique_count (i := j.instruction) run, counts j.state rfl,
      countedIn_length_cons]

theorem boot_unique_count {p : Platform} {rs : List (Response b)} {s : State b}
    (here : (boot p rs).outcome.globals = some s) :
    s.stats.uniqueInstructionsExecuted = UInt64.ofNat (countedIn p (boot p rs)).length :=
  run_unique_count (initial_consistent b) rfl rs here

theorem boot_invariant {p : Platform} (P : Run b → Prop)
    (start : P ⟨executeUd (State.initial b), []⟩)
    (keeps : ∀ j log r, Consistent j.state → P ⟨.execute j.instruction j.state, log⟩ →
      P ⟨handleException p j.state r, ⟨j, r⟩ :: log⟩)
    (rs : List (Response b)) : P (boot p rs) :=
  consistent_invariant P (initial_consistent b) start keeps rs

theorem boot_log_consistent {p : Platform} {rs : List (Response b)} {e : Entry b}
    (h : e ∈ (boot p rs).log) : Consistent e.job.state := by
  have all := boot_invariant (p := p) (fun t => ∀ e ∈ t.log, Consistent e.job.state) ?_ ?_ rs
  · exact all e h
  · simp
  · intro j log r consistent earlier e member
    rcases List.mem_cons.mp member with rfl | member
    · exact consistent
    · exact earlier e member

theorem boot_running_consistent {p : Platform} {rs : List (Response b)} {i : List UInt8}
    {s : State b} (h : (boot p rs).outcome = .execute i s) : Consistent s := by
  have all := boot_invariant (p := p)
    (fun t => ∀ i s, t.outcome = .execute i s → Consistent s) ?_ ?_ rs
  · exact all i s h
  · intro i s same
    obtain ⟨-, rfl⟩ := Outcome.execute.inj same
    exact initial_consistent b
  · intro j log r consistent _ i s run
    exact consistent.step run

theorem searching_of_counted {p : Platform} {e : Entry b} (consistent : Consistent e.job.state)
    (count : counted p e = true) : Searching e.job.state := by
  simp only [counted, Bool.and_eq_true, Bool.not_eq_true'] at count
  exact consistent.positioned.searching ⟨count.1.1.1.1, count.1.1.1.2⟩

/-- In every state the handler is found in, the scan for prefixes reads inside the array
and sees nothing at or past the length, and each processed instruction, as the program counts
them, leaves the pointer at the end of the next one. -/
theorem search_state_invariant (p : Platform) (rs : List (Response b)) :
    (∀ i s, (boot p rs).outcome = .execute i s → Positioned s ∧ ScansInside s) ∧
    (∀ e ∈ (boot p rs).log, Positioned e.job.state ∧ ScansInside e.job.state) ∧
    (∀ e ∈ countedIn p (boot p rs), ∀ i s',
      handleException p e.job.state e.response = .execute i s' → NextInPlace e.job.state s') ∧
    ∀ s, (boot p rs).outcome.globals = some s →
      s.stats.uniqueInstructionsExecuted = UInt64.ofNat (countedIn p (boot p rs)).length := by
  refine ⟨?_, ?_, ?_, fun s => boot_unique_count⟩
  · intro i s running
    have positioned := (boot_running_consistent running).positioned
    exact ⟨positioned, positioned.scansInside⟩
  · intro e member
    have positioned := (boot_log_consistent member).positioned
    exact ⟨positioned, positioned.scansInside⟩
  · intro e member i s' run
    obtain ⟨logged, count⟩ := List.mem_filter.mp member
    exact (searching_of_counted (boot_log_consistent logged) count).next_in_place count run

end PmcBruteforce
