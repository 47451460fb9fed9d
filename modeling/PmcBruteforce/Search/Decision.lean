import PmcBruteforce.Search.Invariant

/-! Which instructions are saved. The type is the last of a chain of assignments, none of which
takes a type back, so an instruction is saved exactly if one of their conditions holds. -/
namespace PmcBruteforce

variable {b : Build}

/-- The conditions, for a build without COUNT_NOPS. -/
inductive SaveReason (s : State b) (r : Response b) : Prop where
  | kernelMode (ring : r.userMode = false)
  | kernelPageFault (exception : r.context.exceptionNumber = exceptionPageFault)
      (kernel : r.context.errorCode &&& pfUser = 0)
  | machineCheck (exception : r.context.exceptionNumber = exceptionMachineCheck)
  | undocumented (notUd : r.context.exceptionNumber ≠ exceptionInvalidOpcode)
      (notMachineCheck : r.context.exceptionNumber ≠ exceptionMachineCheck)
      (unknown : r.instructionIsKnown = false)
  | behindUd (ud : r.context.exceptionNumber = exceptionInvalidOpcode)
      (unknown : r.instructionIsKnown = false) (i : Fin b.perfEventsCount)
      (counter : r.counters.get i ≠ s.udPerfCountersValues.get i)
  | lengthMismatch (known : r.instructionIsKnown = true)
      (length : UInt64.ofNat s.curInstructionLength ≠ r.disasmLength)
  | malformedAccepted (malformed : s.malformedInstructionExpectUd = true)
      (notUd : r.context.exceptionNumber ≠ exceptionInvalidOpcode)

/-- `s'` has the same file content and counts as `s`. -/
structure NothingWritten (s s' : State b) : Prop where
  content : s'.saveFile.content = s.saveFile.content
  saved : s'.stats.instructionsSaved = s.stats.instructionsSaved
  types : ∀ u : InstructionType b, s'.stats.counter u = s.stats.counter u

/-- `s'` has the record of the entry at the end of its file, counted once and under its type. -/
structure RecordWritten (e : Entry b) (s' : State b) : Prop where
  content : s'.saveFile.content = e.job.state.saveFile.content ++ (savedRecord e).encode
  saved : s'.stats.instructionsSaved = e.job.state.stats.instructionsSaved + 1
  types : ∀ u : InstructionType b, s'.stats.counter u = e.job.state.stats.counter u +
    if u = (classified e.job.state e.response).instructionType then 1 else 0

theorem NothingWritten.trans {s t u : State b} (h : NothingWritten s t)
    (h' : NothingWritten t u) : NothingWritten s u where
  content := h'.content.trans h.content
  saved := h'.saved.trans h.saved
  types type := (h'.types type).trans (h.types type)

theorem RecordWritten.then_nothing {e : Entry b} {s t : State b} (h : RecordWritten e s)
    (h' : NothingWritten s t) : RecordWritten e t where
  content := h'.content.trans h.content
  saved := h'.saved.trans h.saved
  types type := (h'.types type).trans (h.types type)

theorem RecordWritten.not_nothing {e : Entry b} {s' : State b} (h : RecordWritten e s') :
    ¬ NothingWritten e.job.state s' := by
  intro nothing
  have same := h.content.symm.trans nothing.content
  exact (savedRecord e).encode_ne_nil
    (List.append_cancel_left (same.trans (List.append_nil _).symm))

theorem typeBeforeSwitch_interesting (s : State b) (r : Response b) :
    typeBeforeSwitch s r ≠ .notInteresting ↔
      r.userMode = false ∨
      (s.malformedInstructionExpectUd = true ∧
        r.context.exceptionNumber ≠ exceptionInvalidOpcode) ∨
      (r.instructionIsKnown = true ∧
        UInt64.ofNat s.curInstructionLength ≠ r.disasmLength) := by
  unfold typeBeforeSwitch
  cases user : r.userMode <;> cases malformed : s.malformedInstructionExpectUd <;>
    by_cases ud : r.context.exceptionNumber = exceptionInvalidOpcode <;>
    cases known : r.instructionIsKnown <;>
    by_cases length : UInt64.ofNat s.curInstructionLength = r.disasmLength <;>
    simp [ud, length]

theorem defaultCase_interesting (nops : b.countNops = false) (r : Response b)
    (t : InstructionType b) :
    defaultCase r t ≠ .notInteresting ↔
      r.instructionIsKnown = false ∨ t ≠ .notInteresting := by
  unfold defaultCase
  cases known : r.instructionIsKnown with
  | false => simp
  | true => simp [nops]

theorem counters_ne_iff (c d : Counters b) : c ≠ d ↔ ∃ i, c.get i ≠ d.get i := by
  constructor
  · intro different
    by_contra same
    refine different (Vector.ext fun i within => ?_)
    by_contra unequal
    exact same ⟨⟨i, within⟩, unequal⟩
  · rintro ⟨i, unequal⟩ rfl
    exact unequal rfl

/-- What the default case leads to: it adds one condition to those in front of the switch. -/
theorem ordinary_interesting {s : State b} {r : Response b}
    (notUd : r.context.exceptionNumber ≠ exceptionInvalidOpcode)
    (notMachineCheck : r.context.exceptionNumber ≠ exceptionMachineCheck)
    (notKernel : ¬ (r.context.exceptionNumber = exceptionPageFault ∧
      r.context.errorCode &&& pfUser = 0)) :
    r.instructionIsKnown = false ∨ typeBeforeSwitch s r ≠ .notInteresting ↔ SaveReason s r := by
  rw [typeBeforeSwitch_interesting]
  constructor
  · rintro (unknown | ring | ⟨malformed, -⟩ | ⟨known, length⟩)
    · exact .undocumented notUd notMachineCheck unknown
    · exact .kernelMode ring
    · exact .malformedAccepted malformed notUd
    · exact .lengthMismatch known length
  · intro reason
    cases reason with
    | kernelMode ring => exact .inr (.inl ring)
    | kernelPageFault exception kernel => exact absurd ⟨exception, kernel⟩ notKernel
    | machineCheck exception => exact absurd exception notMachineCheck
    | undocumented _ _ unknown => exact .inl unknown
    | behindUd ud => exact absurd ud notUd
    | lengthMismatch known length => exact .inr (.inr (.inr ⟨known, length⟩))
    | malformedAccepted malformed _ => exact .inr (.inr (.inl ⟨malformed, notUd⟩))

/-- An #UD is not looked at by the default case, but by its counters. -/
theorem ud_interesting {s : State b} {r : Response b}
    (ud : r.context.exceptionNumber = exceptionInvalidOpcode) :
    (r.instructionIsKnown = false ∧ r.counters ≠ s.udPerfCountersValues) ∨
      typeBeforeSwitch s r ≠ .notInteresting ↔ SaveReason s r := by
  rw [typeBeforeSwitch_interesting, counters_ne_iff]
  constructor
  · rintro (⟨unknown, i, counter⟩ | ring | ⟨-, notUd⟩ | ⟨known, length⟩)
    · exact .behindUd ud unknown i counter
    · exact .kernelMode ring
    · exact absurd ud notUd
    · exact .lengthMismatch known length
  · intro reason
    cases reason with
    | kernelMode ring => exact .inr (.inl ring)
    | kernelPageFault exception => exact absurd (exception.symm.trans ud) (by decide)
    | machineCheck exception => exact absurd (exception.symm.trans ud) (by decide)
    | undocumented notUd => exact absurd ud notUd
    | behindUd _ unknown i counter => exact .inl ⟨unknown, i, counter⟩
    | lengthMismatch known length => exact .inr (.inr (.inr ⟨known, length⟩))
    | malformedAccepted _ notUd => exact absurd ud notUd

theorem interesting_iff (nops : b.countNops = false) (s : State b) (r : Response b) :
    (classified s r).instructionType ≠ .notInteresting ↔ SaveReason s r := by
  unfold classified
  by_cases pageFault : r.context.exceptionNumber = exceptionPageFault
  · by_cases kernel : r.context.errorCode &&& pfUser = 0
    · simp only [if_pos pageFault, if_pos kernel, defaultCase_interesting nops]
      exact iff_of_true (.inr fun same => (by cases same)) (.kernelPageFault pageFault kernel)
    · simp only [if_pos pageFault, if_neg kernel, defaultCase_interesting nops]
      apply ordinary_interesting
      · rw [pageFault]
        decide
      · rw [pageFault]
        decide
      · exact fun both => kernel both.2
  · by_cases ud : r.context.exceptionNumber = exceptionInvalidOpcode
    · simp only [if_neg pageFault, if_pos ud]
      rw [← ud_interesting ud]
      cases known : r.instructionIsKnown <;>
        by_cases same : r.counters = s.udPerfCountersValues <;> simp [same]
    · by_cases machineCheck : r.context.exceptionNumber = exceptionMachineCheck
      · simp only [if_neg pageFault, if_neg ud, if_pos machineCheck]
        exact iff_of_true (fun same => by cases same) (.machineCheck machineCheck)
      · simp only [if_neg pageFault, if_neg ud, if_neg machineCheck, defaultCase_interesting nops]
        exact ordinary_interesting ud machineCheck fun both => pageFault both.1

/-- The file and the statistics a search finds are described by what it has logged. -/
theorem boot_log_described {p : Platform} (saving : b.noSave = false) {rs : List (Response b)}
    {e : Entry b} (member : e ∈ (boot p rs).log) (running : searchingState e.job.state) :
    ∃ a log, Described p a e.job.state log ∧ e.job.state.saveFile.Healthy := by
  obtain ⟨earlier, here⟩ := Library.Reactive.mem_log rfl member
  have phase := boot_phase p saving earlier
  rw [boot] at phase
  generalize (program p).run ⟨executeUd (State.initial b), []⟩ earlier = t at phase here
  cases phase with
  | measuringUd ud log before =>
    obtain same := Option.some.inj here
    rw [← same] at running
    cases running.1
  | measuringNop enabled ud nop f log before file =>
    obtain same := Option.some.inj here
    rw [← same] at running
    cases running.2
  | searching a rs' log before file =>
    have invariant := search_file p a saving file.healthy file.unfailed rs'
    cases outcome : (search p a rs').outcome with
    | execute i s =>
      rw [outcome] at here
      obtain same := Option.some.inj here
      rw [← same]
      exact ⟨a, _, invariant.running i s outcome⟩
    | halt | outOfBounds | diverge =>
      rw [outcome] at here
      cases here
  | stopped => cases here

theorem nothing_written_of_quiet {s s' : State b} (file : s.saveFile.Quiet s'.saveFile)
    (stats : { s'.stats with
      uniqueInstructionsExecuted := s.stats.uniqueInstructionsExecuted } = s.stats) :
    NothingWritten s s' where
  content := file.content
  saved := by rw [← stats]
  types u := by
    rw [← stats]
    cases u <;> rfl

theorem nothing_written_countUnique (p : Platform) (s : State b) :
    NothingWritten s (countUnique p s) := by
  apply nothing_written_of_quiet (quiet_countUnique p s)
  rw [count_unique_fields]

theorem afterSwitch_nothing (s : State b) (r : Response b) : NothingWritten s (afterSwitch s r) := by
  obtain ⟨file, stats, -, -⟩ := afterSwitch_books s r
  constructor
  · rw [file]
  · rw [stats]
  · intro u
    rw [stats]

/-- The save step: nothing, or one record. -/
theorem saved_writes {p : Platform} (saving : b.noSave = false) {e : Entry b} {s' : State b}
    (searching : Searching e.job.state) (healthy : e.job.state.saveFile.Healthy)
    (success : saved p e.job.state e.response = .ok s') :
    ((classified e.job.state e.response).instructionType = .notInteresting ∧
      NothingWritten e.job.state s') ∨
    ((classified e.job.state e.response).instructionType ≠ .notInteresting ∧
      RecordWritten e s') := by
  have before := afterSwitch_nothing e.job.state e.response
  have file := (afterSwitch_books e.job.state e.response).1
  unfold saved at success
  rcases count_and_save_cases p e.response (classified e.job.state e.response)
    (afterSwitch e.job.state e.response) with ⟨skip, run⟩ | ⟨kept, good, run⟩ | ⟨-, -, run⟩
  · obtain rfl := Except.ok.inj (run.symm.trans success)
    exact .inl ⟨skip, before⟩
  · obtain rfl := Except.ok.inj (run.symm.trans success)
    have emits := emits_saveClassified saving p e.job.instruction e.job.state e.response searching
      e.job.state.saveFile healthy
    have same : { afterSwitch e.job.state e.response with
        saveFile := e.job.state.saveFile } = afterSwitch e.job.state e.response := by
      rw [← file]
    simp only [same] at emits
    rcases emits with ⟨-, appended⟩ | ⟨failed, -⟩
    · refine .inr ⟨kept, appended.content, ?_, fun u => ?_⟩
      · simp only [before.saved]
      · have other : ∀ (x : Stats) (n : UInt64),
            ({ x with instructionsSaved := n } : Stats).counter u = x.counter u := by
          intro x n
          cases u <;> rfl
        rw [other, Stats.counter_countType _ _ u kept, before.types]
    · exact absurd good failed
  · cases run.symm.trans success

theorem saved_failed_interesting {p : Platform} {s s' : State b} {r : Response b}
    (failed : saved p s r = .error (.halt .saveFailed s')) :
    (classified s r).instructionType ≠ .notInteresting := by
  intro skip
  unfold saved at failed
  rw [countAndSave, if_pos skip] at failed
  cases failed

/-- Where a call that reaches the save step ends: a Write has failed and the program halts, or
the file and the counts are those behind the step. -/
theorem after_save_step {p : Platform} {s : State b} {r : Response b} (searching : Searching s)
    (reached : Proceeds p s r) :
    (∃ s', handleException p s r = .halt .saveFailed s' ∧
      saved p s r = .error (.halt .saveFailed s')) ∨
    ∃ s'' s', saved p s r = .ok s'' ∧ (handleException p s r).globals = some s' ∧
      NothingWritten s'' s' := by
  have handled := searching.handled p r
  generalize handleException p s r = o at handled
  cases handled with
  | grown fault short =>
    have notGrown := reached.notGrown
    simp [grows, fault, short] at notGrown
  | restarted _ unstable => cases unstable.symm.trans reached.notRestarted
  | saveFailed _ s' failed => exact .inl ⟨s', rfl, failed⟩
  | moved _ s'' l success =>
    refine .inr ⟨s'', _, success, rfl, (nothing_written_countUnique p s'').trans ?_⟩
    exact nothing_written_of_quiet (.refl _) rfl
  | done _ s'' l success =>
    refine .inr ⟨s'', _, success, rfl, (nothing_written_countUnique p s'').trans ?_⟩
    exact nothing_written_of_quiet (quiet_closing b p _) rfl

/-- A call that reaches the save step writes the record of its instruction exactly if one of the
conditions holds, and else leaves the file and the counts as they were. -/
theorem save_decision (nops : b.countNops = false) (saving : b.noSave = false) (p : Platform)
    (rs : List (Response b)) (e : Entry b) (member : e ∈ (boot p rs).log)
    (running : searchingState e.job.state) (reached : Proceeds p e.job.state e.response) :
    (∃ s', handleException p e.job.state e.response = .halt .saveFailed s' ∧
      s'.saveFile.FailedLast ∧ SaveReason e.job.state e.response) ∨
    ∃ s', (handleException p e.job.state e.response).globals = some s' ∧
      (RecordWritten e s' ↔ SaveReason e.job.state e.response) ∧
      (¬ SaveReason e.job.state e.response → NothingWritten e.job.state s') := by
  have searching := (boot_log_consistent member).positioned.searching running
  obtain ⟨a, log, described, healthy⟩ := boot_log_described saving member running
  rw [← interesting_iff nops]
  rcases after_save_step searching reached with
    ⟨s', halted, failed⟩ | ⟨s'', s', success, here, after⟩
  · have last := (described.save saving healthy searching reached e.job.instruction).2 s' failed
    exact .inl ⟨s', halted, last, saved_failed_interesting failed⟩
  · refine .inr ⟨s', here, ?_⟩
    rcases saved_writes saving searching healthy success with ⟨skip, nothing⟩ | ⟨kept, written⟩
    · have quiet := nothing.trans after
      exact ⟨iff_of_false (fun record => record.not_nothing quiet) (not_not_intro skip),
        fun _ => quiet⟩
    · exact ⟨iff_of_true (written.then_nothing after) kept, fun skip => absurd kept skip⟩

theorem unknown_instruction_saved :
    ∃ e ∈ oneRecordRun.log, ∃ s',
      (handleException Platform.reliable e.job.state e.response).globals = some s' ∧
        RecordWritten e s' := by
  have decided : oneRecordRun.log.any (fun e =>
      !e.job.state.measuringUd && !e.job.state.measuringNop &&
      !grows Platform.reliable e.job.state e.response && !restarts e.job.state e.response &&
      e.response.context.exceptionNumber == 13 && !e.response.instructionIsKnown &&
      ((program Platform.reliable).job
        (handleException Platform.reliable e.job.state e.response)).isSome) = true := by
    decide +kernel
  obtain ⟨e, member, facts⟩ := List.any_eq_true.mp decided
  simp only [Bool.and_eq_true, Bool.not_eq_true', beq_iff_eq] at facts
  obtain ⟨⟨⟨⟨⟨⟨ud, nop⟩, grown⟩, restarted⟩, exception⟩, unknown⟩, continues⟩ := facts
  have reason : SaveReason e.job.state e.response := by
    apply SaveReason.undocumented _ _ unknown
    · rw [exception]
      decide
    · rw [exception]
      decide
  refine ⟨e, member, ?_⟩
  rcases save_decision rfl rfl Platform.reliable _ e member ⟨ud, nop⟩ ⟨grown, restarted⟩ with
    ⟨s', halted, -⟩ | ⟨s', here, record, -⟩
  · rw [halted] at continues
    cases continues
  · exact ⟨s', here, record.mpr reason⟩

end PmcBruteforce
