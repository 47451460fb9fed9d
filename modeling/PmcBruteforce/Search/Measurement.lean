import PmcBruteforce.Search.Progress

/-! Measurements of an #UD. The counters of an unstable #UD stay in
`last_perf_counters_values` until a stable one clears them, whatever runs in between, and
what clearing leaves is itself a possible measurement. -/
namespace PmcBruteforce

variable {b : Build}

def raisedUd (e : Entry b) : Prop := e.response.context.exceptionNumber = exceptionInvalidOpcode

/-- The same instruction ran twice in a row, with an #UD and the same counters. -/
structure SameMeasurement (earlier later : Entry b) : Prop where
  instruction : earlier.job.instruction = later.job.instruction
  firstUd : raisedUd earlier
  secondUd : raisedUd later
  counters : earlier.response.counters = later.response.counters

/-- The call does not leave for user mode, as it does to grow an instruction or to restart it. -/
def PastRestart (p : Platform) (e : Entry b) : Prop :=
  ∀ i s, checkLastInstruction p e.job.state e.response ≠ .error (.execute i s)

/-- An #UD goes past the restart only as the second of two equal measurements. -/
def Reproduced (p : Platform) (t : Run b) : Prop :=
  ∀ newer e older, t.log = newer ++ e :: older → raisedUd e → PastRestart p e →
    ∃ e' rest, older = e' :: rest ∧ SameMeasurement e' e

/-- An #UD with the counters of `last_perf_counters_values` comes directly after one that
had other counters than those of its time. -/
def AfterUnstableUd (t : Run b) : Prop :=
  ∀ newer e older, t.log = newer ++ e :: older → raisedUd e →
    e.job.state.lastPerfCountersValues = e.response.counters →
      ∃ e' rest, older = e' :: rest ∧ raisedUd e' ∧
        e'.job.state.lastPerfCountersValues ≠ e'.response.counters

theorem raisedUd.not_grown {e : Entry b} (h : raisedUd e) (p : Platform) :
    grows p e.job.state e.response = false := by
  have different : (exceptionInvalidOpcode == exceptionPageFault) = false := by decide
  unfold raisedUd at h
  simp [grows, Response.boundaryFetchFault, h, different]

theorem raisedUd.restarts_iff {e : Entry b} (h : raisedUd e) :
    restarts e.job.state e.response = false ↔
      e.job.state.lastPerfCountersValues = e.response.counters := by
  unfold raisedUd at h
  simp [restarts, h]

/-- Behind the save step a call hands out nothing itself. -/
theorem update_pointer_leaves (p : Platform) (s : State b) (i : List UInt8) (s' : State b) :
    updatePointer p s ≠ .error (.execute i s') := by
  have leaves : ∀ (t : State b) (e : Option PointerExit),
      leavePointer p t e ≠ .error (.execute i s') := by
    intro t e
    match e with
    | none | some .outOfBounds | some (.candidate _) | some (.done _) => exact nofun
  unfold updatePointer
  split
  · exact nofun
  · simp only
    split
    · exact leaves _ _
    · exact leaves _ _

theorem raisedUd.past_restart_iff {e : Entry b} (h : raisedUd e) (p : Platform) :
    PastRestart p e ↔ restarts e.job.state e.response = false := by
  unfold PastRestart
  rw [check_last_instruction_eq, h.not_grown p]
  cases unstable : restarts e.job.state e.response with
  | true => exact iff_of_false (fun past => past _ _ rfl) nofun
  | false =>
    refine iff_of_true (fun i s run => ?_) rfl
    cases result : saved p e.job.state e.response with
    | ok s' =>
      rw [result] at run
      exact update_pointer_leaves p _ i s run
    | error o =>
      obtain ⟨s', rfl⟩ := count_and_save_error result
      rw [result] at run
      cases run

theorem search_chained {p : Platform} {a : Baseline b} {rs : List (Response b)}
    {newer older : List (Entry b)} {e e' : Entry b}
    (split : (search p a rs).log = newer ++ e :: e' :: older) :
    handleException p e'.job.state e'.response = .execute e.job.instruction e.job.state := by
  have next := Library.Reactive.chained rfl rs split
  simp only [program] at next
  split at next
  · rename_i same
    rw [← Option.some.inj next]
    exact same
  · cases next

theorem Searching.unstable_ud {e : Entry b} (h : Searching e.job.state)
    (ud : raisedUd e) (p : Platform) (unstable : restarts e.job.state e.response = true) :
    handleException p e.job.state e.response = executeCurrentInstruction
      { e.job.state with lastPerfCountersValues := e.response.counters } := by
  rw [handleException, h.dispatch_eq, check_last_instruction_eq, ud.not_grown p, unstable]
  rfl

theorem stable_ud_moves {p : Platform} {a : Baseline b} {rs : List (Response b)}
    {newer older : List (Entry b)} {e e' : Entry b}
    (split : (search p a rs).log = newer ++ e :: e' :: older) (ud : raisedUd e')
    (stable : restarts e'.job.state e'.response = false) :
    e'.job.instruction ≠ e.job.instruction := by
  have run := search_chained split
  obtain ⟨searching, current⟩ := search_log_searching
    (show e ∈ (search p a rs).log by rw [split]; simp)
  obtain ⟨searching', current'⟩ := search_log_searching
    (show e' ∈ (search p a rs).log by rw [split]; simp)
  have success : ∃ s, saved p e'.job.state e'.response = .ok s := by
    rw [handleException, searching'.dispatch_eq, check_last_instruction_eq, ud.not_grown p,
      stable] at run
    cases result : saved p e'.job.state e'.response with
    | ok s => exact ⟨s, rfl⟩
    | error o =>
      obtain ⟨s, rfl⟩ := count_and_save_error result
      rw [result] at run
      cases run
  have count := (searching'.counted_iff p e'.job.instruction e'.response).mpr
    ⟨⟨ud.not_grown p, stable⟩, success⟩
  have different := (searching'.overtaken run).instruction_ne count searching' searching
  rw [current, current']
  exact different.symm

/-- Only reproduced measurements get past the restart, in exactly the runs where counters
equal to the remembered ones always come directly after an unstable #UD. -/
theorem reproduced_iff (p : Platform) (a : Baseline b) (rs : List (Response b)) :
    Reproduced p (search p a rs) ↔ AfterUnstableUd (search p a rs) := by
  constructor
  · intro reproduced newer e older split ud same
    have past := (ud.past_restart_iff p).mpr (ud.restarts_iff.mpr same)
    obtain ⟨e', rest, rfl, twice⟩ := reproduced newer e older split ud past
    refine ⟨e', rest, rfl, twice.firstUd, fun stable => ?_⟩
    have moves := stable_ud_moves split twice.firstUd (twice.firstUd.restarts_iff.mpr stable)
    exact moves twice.instruction
  · intro after newer e older split ud past
    have same := ud.restarts_iff.mp ((ud.past_restart_iff p).mp past)
    obtain ⟨e', rest, rfl, ud', unstable⟩ := after newer e older split ud same
    obtain ⟨searching', current'⟩ := search_log_searching
      (show e' ∈ (search p a rs).log by rw [split]; simp)
    have restarted : restarts e'.job.state e'.response = true := by
      rw [← Bool.not_eq_false, ud'.restarts_iff]
      exact unstable
    have again := searching'.unstable_ud ud' p restarted
    rw [search_chained split] at again
    obtain ⟨instruction, state⟩ := Outcome.execute.inj again
    refine ⟨e', rest, rfl, ?_, ud', ud, ?_⟩
    · rw [instruction, current']
      rfl
    · rw [← same, state]

def quietUd : Response (Build.makefile .mode64) where
  context := ⟨exceptionInvalidOpcode, userFault 0x201fff⟩
  counters := measuredBaseline.nopPerfCountersValues
  cr2 := 0
  disasmLength := 0
  mcgCap := 0
  mcStatus := fun _ => 0

/-- One execution of 00 is saved as an undocumented #UD, and the search goes on with 01. -/
theorem first_quiet_ud_not_reproduced :
    (∃ s, (search Platform.reliable measuredBaseline [quietUd]).outcome = .execute [0x01] s ∧
      s.saveFile.content = [6, 0, 0, 0, 0x41, 0x00] ∧ s.stats.undocumentedBehindUd = 1) ∧
    ¬ Reproduced Platform.reliable (search Platform.reliable measuredBaseline [quietUd]) := by
  constructor
  · have here : (search Platform.reliable measuredBaseline [quietUd]).outcome.globals.any (fun s =>
        decide ((search Platform.reliable measuredBaseline [quietUd]).outcome =
          .execute [0x01] s) &&
        s.saveFile.content == [6, 0, 0, 0, 0x41, 0x00] &&
        s.stats.undocumentedBehindUd == 1) = true := by decide +kernel
    obtain ⟨s, -, facts⟩ := (Option.any_eq_true _ _).mp here
    simp only [Bool.and_eq_true, decide_eq_true_eq, beq_iff_eq] at facts
    exact ⟨s, facts.1.1, facts.1.2, facts.2⟩
  · intro reproduced
    have ud : raisedUd ⟨⟨[0x00], measuredBaseline.start⟩, quietUd⟩ := rfl
    obtain ⟨e', rest, none, -⟩ := reproduced [] ⟨⟨[0x00], measuredBaseline.start⟩, quietUd⟩ []
      rfl ud ((ud.past_restart_iff Platform.reliable).mpr (by decide +kernel))
    cases none

end PmcBruteforce
