import PmcBruteforce.Search.Decision

/-! Which label a fault taken in kernel mode ends up with. Every place that assigns
`instruction_type` overwrites what was there, so a kernel label is kept exactly when none of
the later tests applies. -/
namespace PmcBruteforce

variable {b : Build}

/-- The exception came from kernel mode: its code segment or its page fault says so. -/
def kernelFault (r : Response b) : Prop :=
  r.userMode = false ∨
    r.context.exceptionNumber = exceptionPageFault ∧ r.context.errorCode &&& pfUser = 0

def InstructionType.isKernel (t : InstructionType b) : Prop :=
  t = .kernelException ∨ t = .kernelPageFault

/-- From `s` to `s'` only the counter of this type has moved, by one. -/
def CountedAs (t : InstructionType b) (s s' : State b) : Prop :=
  ∀ u : InstructionType b, s'.stats.counter u = s.stats.counter u + if u = t then 1 else 0

/-- What `s'` has behind the file of `s` is read back as a record of this type. -/
def SavedAs (t : InstructionType b) (s s' : State b) : Prop :=
  ∃ bytes record, s'.saveFile.content = s.saveFile.content ++ bytes ∧
    (writtenFormat b).decode bytes = some (record, []) ∧ record.instructionType = t.code

def CountedAsKernel (s s' : State b) : Prop :=
  ∃ t : InstructionType b, t.isKernel ∧ CountedAs t s s'

def ReportedAsKernel (s s' : State b) : Prop :=
  ∃ t : InstructionType b, t.isKernel ∧ CountedAs t s s' ∧ SavedAs t s s'

def retiredNop (r : Response b) : Bool :=
  if enabled : b.countNops = true then nopsRetired r.counters enabled != 0 else false

/-- No later test applies. A page fault can still be overwritten by the default case; an #UD
only by a length mismatch or by its counters; anything else also as malformed. -/
def kernelLabelKept (s : State b) (r : Response b) : Prop :=
  if r.context.exceptionNumber = exceptionPageFault ∧ r.context.errorCode &&& pfUser = 0 then
    r.instructionIsKnown = true ∧ retiredNop r = false
  else if r.context.exceptionNumber = exceptionInvalidOpcode then
    if r.instructionIsKnown then UInt64.ofNat s.curInstructionLength = r.disasmLength
    else r.counters = s.udPerfCountersValues
  else
    s.malformedInstructionExpectUd = false ∧ r.instructionIsKnown = true ∧
      UInt64.ofNat s.curInstructionLength = r.disasmLength ∧ retiredNop r = false

theorem defaultCase_eq (r : Response b) (t : InstructionType b) :
    (r.instructionIsKnown = true ∧ retiredNop r = false ∧ defaultCase r t = t) ∨
      (¬ (r.instructionIsKnown = true ∧ retiredNop r = false) ∧
        ¬ (defaultCase r t).isKernel) := by
  unfold defaultCase retiredNop InstructionType.isKernel
  cases known : r.instructionIsKnown with
  | false => exact .inr ⟨by simp, by simp⟩
  | true =>
    by_cases enabled : b.countNops = true
    · by_cases zero : nopsRetired r.counters enabled = 0
      · exact .inl ⟨rfl, by simp [zero], by simp [enabled, zero]⟩
      · exact .inr ⟨by simp [enabled, zero], by simp [enabled, zero]⟩
    · exact .inl ⟨rfl, by simp [enabled], by simp [enabled]⟩

theorem InstructionType.isKernel.interesting {t : InstructionType b} (h : t.isKernel) :
    t ≠ .notInteresting := by
  rintro rfl
  rcases h with same | same <;> cases same

/-- The save step counts under the type it has found, also if the record cannot be written. -/
theorem saved_counts {p : Platform} {s s' : State b} {r : Response b}
    (ends : saved p s r = .ok s' ∨ saved p s r = .error (.halt .saveFailed s')) :
    (classified s r).instructionType = .notInteresting ∧ s'.stats = s.stats ∨
      (classified s r).instructionType ≠ .notInteresting ∧
        CountedAs (classified s r).instructionType s s' := by
  have before := (afterSwitch_books s r).2.1
  unfold saved at ends
  rcases count_and_save_cases p r (classified s r) (afterSwitch s r) with
    ⟨skip, run⟩ | ⟨kept, -, run⟩ | ⟨kept, -, run⟩
  · rw [run] at ends
    rcases ends with same | same
    · obtain rfl := Except.ok.inj same
      exact .inl ⟨skip, before⟩
    · cases same
  · rw [run] at ends
    rcases ends with same | same
    · obtain rfl := Except.ok.inj same
      refine .inr ⟨kept, fun u => ?_⟩
      rw [← before, ← Stats.counter_countType _ _ u kept]
      cases u <;> rfl
    · cases same
  · rw [run] at ends
    rcases ends with same | same
    · cases same
    · obtain ⟨-, rfl⟩ := Outcome.halt.inj (Except.error.inj same)
      refine .inr ⟨kept, fun u => ?_⟩
      rw [← before, ← Stats.counter_countType _ _ u kept]

theorem counter_moves (n : UInt64) : n ≠ n + 1 := by
  intro same
  cases UInt64.add_eq_left.mp same.symm

theorem CountedAs.unique {t u : InstructionType b} {s s' : State b} (h : CountedAs t s s')
    (h' : CountedAs u s s') : u = t := by
  by_contra different
  have moved := h' u
  rw [h u, if_neg different, if_pos rfl, UInt64.add_zero] at moved
  exact counter_moves _ moved

theorem counted_as_kernel_iff {p : Platform} {s s' t : State b} {r : Response b}
    (ends : saved p s r = .ok s' ∨ saved p s r = .error (.halt .saveFailed s'))
    (same : ∀ u : InstructionType b, t.stats.counter u = s'.stats.counter u) :
    CountedAsKernel s t ↔ (classified s r).instructionType.isKernel := by
  rcases saved_counts ends with ⟨skip, stats⟩ | ⟨-, counted⟩
  · have label : ¬ (classified s r).instructionType.isKernel := fun kernel =>
      kernel.interesting skip
    refine iff_of_false ?_ label
    rintro ⟨u, -, moved⟩
    have here := moved u
    rw [same, stats, if_pos rfl] at here
    exact counter_moves _ here
  · have counted : CountedAs (classified s r).instructionType s t := fun u =>
      (same u).trans (counted u)
    constructor
    · rintro ⟨u, kernel, moved⟩
      exact counted.unique moved ▸ kernel
    · exact fun kernel => ⟨_, kernel, counted⟩

theorem RecordWritten.savedAs {e : Entry b} {s' : State b} (h : RecordWritten e s')
    (searching : Searching e.job.state) :
    SavedAs (classified e.job.state e.response).instructionType e.job.state s' := by
  have decoded := (writtenFormat b).decode_encode _ (savedRecord_valid e searching) []
  rw [List.append_nil] at decoded
  exact ⟨_, _, h.content, decoded, rfl⟩

theorem typeBeforeSwitch_kernel (s : State b) (r : Response b) (kernel : r.userMode = false) :
    (typeBeforeSwitch s r).isKernel ↔
      ¬ (s.malformedInstructionExpectUd = true ∧
        r.context.exceptionNumber ≠ exceptionInvalidOpcode) ∧
      ¬ (r.instructionIsKnown = true ∧
        UInt64.ofNat s.curInstructionLength ≠ r.disasmLength) := by
  have mismatch : (r.instructionIsKnown &&
      UInt64.ofNat s.curInstructionLength != r.disasmLength) = true ↔
      r.instructionIsKnown = true ∧ UInt64.ofNat s.curInstructionLength ≠ r.disasmLength := by
    simp
  have malformed : (s.malformedInstructionExpectUd &&
      r.context.exceptionNumber != exceptionInvalidOpcode) = true ↔
      s.malformedInstructionExpectUd = true ∧
        r.context.exceptionNumber ≠ exceptionInvalidOpcode := by simp
  unfold typeBeforeSwitch InstructionType.isKernel
  rw [← mismatch, ← malformed]
  generalize (r.instructionIsKnown &&
    UInt64.ofNat s.curInstructionLength != r.disasmLength) = overwritten
  generalize (s.malformedInstructionExpectUd &&
    r.context.exceptionNumber != exceptionInvalidOpcode) = unexpected
  cases overwritten <;> cases unexpected <;> simp [kernel]

theorem kernel_label_iff (s : State b) (r : Response b) (kernel : kernelFault r)
    (notMachineCheck : r.context.exceptionNumber ≠ exceptionMachineCheck) :
    (classified s r).instructionType.isKernel ↔ kernelLabelKept s r := by
  have different : exceptionPageFault ≠ exceptionInvalidOpcode := by decide
  unfold classified kernelLabelKept
  by_cases fromKernel : r.context.exceptionNumber = exceptionPageFault ∧
      r.context.errorCode &&& pfUser = 0
  · simp only [if_pos fromKernel, if_pos fromKernel.1, if_pos fromKernel.2]
    rcases defaultCase_eq r .kernelPageFault with ⟨known, noNop, same⟩ | ⟨overwritten, other⟩
    · simp only [same, known, noNop, InstructionType.isKernel, or_true, and_self]
    · simp only [overwritten, other]
  · have mode : r.userMode = false := kernel.resolve_right fromKernel
    have before := typeBeforeSwitch_kernel s r mode
    simp only [if_neg fromKernel]
    by_cases ud : r.context.exceptionNumber = exceptionInvalidOpcode
    · have noPageFault : r.context.exceptionNumber ≠ exceptionPageFault := ud ▸ different.symm
      simp only [if_neg noPageFault, if_pos ud]
      cases known : r.instructionIsKnown with
      | true => simpa [known, ud] using before
      | false =>
        by_cases same : r.counters = s.udPerfCountersValues
        · simpa [known, ud, same] using before
        · simp [same, InstructionType.isKernel]
    · have label : (if r.context.exceptionNumber = exceptionPageFault then
          if r.context.errorCode &&& pfUser = 0 then
            (⟨defaultCase r .kernelPageFault, true, r.cr2⟩ : Classified b)
          else ⟨defaultCase r (typeBeforeSwitch s r), false, 0⟩
        else ⟨defaultCase r (typeBeforeSwitch s r), false, 0⟩) =
          ⟨defaultCase r (typeBeforeSwitch s r), false, 0⟩ := by
        split
        · rename_i pageFault
          exact if_neg fun user => fromKernel ⟨pageFault, user⟩
        · rfl
      simp only [if_neg ud, if_neg notMachineCheck, label]
      rcases defaultCase_eq r (typeBeforeSwitch s r) with ⟨known, noNop, same⟩ | ⟨overwritten, other⟩
      · rw [same, before]
        simp [known, noNop, ud]
      · simp only [other, false_iff]
        exact fun kept => overwritten ⟨kept.2.1, kept.2.2.2⟩

/-- A kernel fault other than #MC that reaches the save step is counted, and saved, as one
exactly when no later test applies; where the Write fails it is still counted. -/
theorem kernel_fault_reported_iff (p : Platform) (rs : List (Response b)) (e : Entry b)
    (member : e ∈ (boot p rs).log) (running : searchingState e.job.state)
    (reached : Proceeds p e.job.state e.response) (kernel : kernelFault e.response)
    (notMachineCheck : e.response.context.exceptionNumber ≠ exceptionMachineCheck) :
    ∃ s', (handleException p e.job.state e.response).globals = some s' ∧
      (CountedAsKernel e.job.state s' ↔ kernelLabelKept e.job.state e.response) ∧
      (b.noSave = false →
        handleException p e.job.state e.response = .halt .saveFailed s' ∧
            s'.saveFile.FailedLast ∨
          (ReportedAsKernel e.job.state s' ↔ kernelLabelKept e.job.state e.response)) := by
  have searching := (boot_log_consistent member).positioned.searching running
  rw [← kernel_label_iff e.job.state e.response kernel notMachineCheck]
  rcases after_save_step searching reached with
    ⟨s', halted, failed⟩ | ⟨s'', s', success, here, after⟩
  · refine ⟨s', by rw [halted]; rfl, counted_as_kernel_iff (.inr failed) fun _ => rfl, ?_⟩
    intro saving
    obtain ⟨a, log, described, healthy⟩ := boot_log_described saving member running
    have last := (described.save saving healthy searching reached e.job.instruction).2 s' failed
    exact .inl ⟨halted, last⟩
  · have counted := counted_as_kernel_iff (.inl success) after.types
    refine ⟨s', here, counted, fun saving => .inr ?_⟩
    obtain ⟨a, log, -, healthy⟩ := boot_log_described saving member running
    rw [← counted]
    constructor
    · rintro ⟨t, label, moved, -⟩
      exact ⟨t, label, moved⟩
    · rintro ⟨t, label, moved⟩
      rcases saved_writes saving searching healthy success with ⟨skip, nothing⟩ | ⟨-, written⟩
      · exact absurd skip (counted.mp ⟨t, label, moved⟩).interesting
      · have record := written.then_nothing after
        have same : t = (classified e.job.state e.response).instructionType :=
          CountedAs.unique record.types moved
        exact ⟨t, label, moved, same ▸ record.savedAs searching⟩

def kernelGeneralProtection (disasmLength : UInt64) : Response (Build.makefile .mode64) :=
  { generalProtection with
    context := ⟨13, #v[0, 0x101234, 0x8, 0x102, 0, 0x10]⟩
    disasmLength := disasmLength }

/-- A #GP in kernel mode answers the first instruction of the search. -/
def kernelFaultRun (disasmLength : UInt64) : Run (Build.makefile .mode64) :=
  boot Platform.reliable [ud2Response, ud2Response, kernelGeneralProtection disasmLength]

theorem known_kernel_fault_reported :
    ∃ e ∈ (kernelFaultRun 1).log, ∃ s',
      (handleException Platform.reliable e.job.state e.response).globals = some s' ∧
        ReportedAsKernel e.job.state s' := by
  have decided : (kernelFaultRun 1).log.any (fun e =>
      !e.job.state.measuringUd && !e.job.state.measuringNop &&
      !grows Platform.reliable e.job.state e.response && !restarts e.job.state e.response &&
      decide (e.response.context = (kernelGeneralProtection 1).context) &&
      e.response.disasmLength == 1 && e.job.state.curInstructionLength == 1 &&
      !e.job.state.malformedInstructionExpectUd &&
      ((program Platform.reliable).job
        (handleException Platform.reliable e.job.state e.response)).isSome) = true := by
    decide +kernel
  obtain ⟨e, member, facts⟩ := List.any_eq_true.mp decided
  simp only [Bool.and_eq_true, Bool.not_eq_true', beq_iff_eq, decide_eq_true_eq] at facts
  obtain ⟨⟨⟨⟨⟨⟨⟨⟨ud, nop⟩, grown⟩, restarted⟩, context⟩, answer⟩, length⟩, malformed⟩,
    continues⟩ := facts
  have kernel : kernelFault e.response := by
    unfold kernelFault Response.userMode
    rw [context]
    exact .inl (by decide)
  have notMachineCheck : e.response.context.exceptionNumber ≠ exceptionMachineCheck := by
    rw [context]
    decide
  have kept : kernelLabelKept e.job.state e.response := by
    have noPageFault : ¬ (e.response.context.exceptionNumber = exceptionPageFault ∧
        e.response.context.errorCode &&& pfUser = 0) := by
      rw [context]
      decide
    have notUd : e.response.context.exceptionNumber ≠ exceptionInvalidOpcode := by
      rw [context]
      decide
    have known : e.response.instructionIsKnown = true := by
      rw [Response.instructionIsKnown, answer]
      rfl
    rw [kernelLabelKept, if_neg noPageFault, if_neg notUd, length, answer]
    exact ⟨malformed, known, rfl, rfl⟩
  obtain ⟨s', here, -, saved⟩ := kernel_fault_reported_iff Platform.reliable _ e member ⟨ud, nop⟩
    ⟨grown, restarted⟩ kernel notMachineCheck
  refine ⟨e, member, s', here, ?_⟩
  rcases saved rfl with ⟨halted, -⟩ | reported
  · rw [halted] at continues
    cases continues
  · exact reported.mpr kept

theorem unknown_kernel_fault_not_reported :
    ∃ e ∈ (kernelFaultRun 0).log, searchingState e.job.state ∧ kernelFault e.response ∧
      Proceeds Platform.reliable e.job.state e.response ∧ ∃ s',
        (handleException Platform.reliable e.job.state e.response).globals = some s' ∧
          s'.saveFile.content = [7, 0, 0, 13, 7, 5, 6, 0x51, 0x00] ∧
          s'.stats.kernelExceptions = 0 ∧ s'.stats.undocumentedNotUd = 1 ∧
          ¬ CountedAsKernel e.job.state s' ∧ ¬ ReportedAsKernel e.job.state s' := by
  have decided : (kernelFaultRun 0).log.any (fun e =>
      !e.job.state.measuringUd && !e.job.state.measuringNop && !e.response.userMode &&
      !grows Platform.reliable e.job.state e.response && !restarts e.job.state e.response &&
      ((handleException Platform.reliable e.job.state e.response).globals.any fun s' =>
        s'.saveFile.content == [7, 0, 0, 13, 7, 5, 6, 0x51, 0x00] &&
        s'.stats.kernelExceptions == 0 && s'.stats.undocumentedNotUd == 1 &&
        e.job.state.stats.undocumentedNotUd == 0)) = true := by
    decide +kernel
  obtain ⟨e, member, facts⟩ := List.any_eq_true.mp decided
  simp only [Bool.and_eq_true, Bool.not_eq_true', Option.any_eq_true, beq_iff_eq] at facts
  obtain ⟨⟨⟨⟨⟨ud, nop⟩, ring⟩, grown⟩, restarted⟩, s', here, ⟨⟨content, kernel⟩, unknown⟩, before⟩ :=
    facts
  have other : ¬ CountedAsKernel e.job.state s' := by
    rintro ⟨t, label, moved⟩
    have still := moved .undocumentedNotUd
    have different : InstructionType.undocumentedNotUd ≠ t := by
      rintro rfl
      rcases label with same | same <;> cases same
    rw [if_neg different] at still
    simp only [Stats.counter, unknown, before] at still
    exact absurd still (by decide)
  refine ⟨e, member, ⟨ud, nop⟩, .inl ring, ⟨grown, restarted⟩, s', here, content, kernel, unknown,
    other, ?_⟩
  rintro ⟨t, label, moved, -⟩
  exact other ⟨t, label, moved⟩

end PmcBruteforce
