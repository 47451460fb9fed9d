import PmcBruteforce.Search.State

/-! `handle_exception` and the three functions it dispatches to. The last section says
once what one call of it can do, for the state of a running search. -/
namespace PmcBruteforce

variable {b : Build}

def saveClassified (p : Platform) (r : Response b) (c : Classified b) (s : State b) :
    EfiStatus × SaveFile :=
  saveInstructionData b p r.context c.instructionType s.instructionBytes.bytes
    s.curInstructionLength c.extraInfoPresent c.extraInfo r.counters.toList s.saveFile

def countAndSave (p : Platform) (r : Response b) (c : Classified b) (s : State b) : Call b :=
  if c.instructionType = .notInteresting then .ok s
  else
    let s := { s with stats := s.stats.countType c.instructionType }
    let (status, saveFile) := saveClassified p r c s
    if status ≠ efiSuccess then
      -- dump_stats asks for the file position
      .error (.halt .saveFailed
        { s with saveFile := closeSaveFile b p (getSaveFilePosition b p saveFile) })
    else
      .ok { s with
        saveFile := saveFile
        flushRequired := true
        stats := { s.stats with instructionsSaved := s.stats.instructionsSaved + 1 } }

theorem count_and_save_cases (p : Platform) (r : Response b) (c : Classified b) (s : State b) :
    (c.instructionType = .notInteresting ∧ countAndSave p r c s = .ok s) ∨
    (c.instructionType ≠ .notInteresting ∧ (saveClassified p r c s).1 = efiSuccess ∧
      countAndSave p r c s = .ok { s with
        saveFile := (saveClassified p r c s).2
        flushRequired := true
        stats := { s.stats.countType c.instructionType with
          instructionsSaved := s.stats.instructionsSaved + 1 } }) ∨
    (c.instructionType ≠ .notInteresting ∧ (saveClassified p r c s).1 ≠ efiSuccess ∧
      countAndSave p r c s = .error (.halt .saveFailed { s with
        stats := s.stats.countType c.instructionType
        saveFile := closeSaveFile b p (getSaveFilePosition b p (saveClassified p r c s).2) })) := by
  unfold countAndSave
  by_cases skip : c.instructionType = .notInteresting
  · exact .inl ⟨skip, if_pos skip⟩
  · have same : saveClassified p r c { s with stats := s.stats.countType c.instructionType } =
        saveClassified p r c s := rfl
    simp only [if_neg skip, same, Stats.countType_saved]
    by_cases good : (saveClassified p r c s).1 = efiSuccess
    · exact .inr (.inl ⟨skip, good, by simp only [good, ne_eq, not_true_eq_false, if_false]⟩)
    · exact .inr (.inr ⟨skip, good, if_pos good⟩)

/-- The unique count of `check_last_instruction`, and its flush every 0x1000000th time. -/
def countUnique (p : Platform) (s : State b) : State b :=
  let s := { s with stats :=
    { s.stats with uniqueInstructionsExecuted := s.stats.uniqueInstructionsExecuted + 1 } }
  if s.stats.uniqueInstructionsExecuted % 0x1000000 = 0 then
    let s := { s with saveFile := getSaveFilePosition b p s.saveFile }
    if s.flushRequired then
      { s with saveFile := flushSaveFile b p s.saveFile, flushRequired := false }
    else s
  else s

def State.pointerLoop (s : State b) : PointerLoop :=
  ⟨s.instructionBytes, s.curByteIndex, s.curInstructionLength, s.malformedInstructionExpectUd⟩

def State.withPointer (s : State b) (l : PointerLoop) : State b :=
  { s with
    instructionBytes := l.instructionBytes
    curByteIndex := l.curByteIndex
    curInstructionLength := l.curInstructionLength
    malformedInstructionExpectUd := l.malformedInstructionExpectUd }

/-- Behind the loops: the candidate is executed next, and Done closes the file. -/
def leavePointer (p : Platform) (s : State b) : Option PointerExit → Call b
  | none => .error .diverge
  | some .outOfBounds => .error .outOfBounds
  | some (.candidate l) => .ok (s.withPointer l)
  | some (.done l) =>
    .error (.halt .done { s.withPointer l with
      saveFile := closeSaveFile b p (getSaveFilePosition b p s.saveFile) })

def updatePointer (p : Platform) (s : State b) : Call b :=
  match countPrefixes b.cpuMode s.instructionBytes.bytes s.curInstructionLength with
  | none => .error .outOfBounds
  | some count =>
    let curByteIsPrefix : Bool := s.curByteIndex < count
    if s.curInstructionLength = s.lastInstructionLength ∧ curByteIsPrefix = false then
      leavePointer p s (runPointer b.cpuMode pointerFuel .updateByteIndex s.pointerLoop)
    else
      let s := { s with
        curByteIndex := s.curInstructionLength - 1
        lastInstructionLength := s.curInstructionLength }
      leavePointer p s (runPointer b.cpuMode pointerFuel .doBody s.pointerLoop)

def checkLastInstruction (p : Platform) (s : State b) (r : Response b) : Call b := do
  let s ←
    if r.boundaryFetchFault p then incrementInstructionLengthAndRetryExec s else .ok s
  let (s, c) ← exceptionSwitch s r (typeBeforeSwitch s r)
  let s ← countAndSave p r c s
  updatePointer p (countUnique p s)

def checkUd2Measurements (p : Platform) (s : State b) (r : Response b) : Call b :=
  if r.context.exceptionNumber ≠ exceptionInvalidOpcode then
    .error (.halt .unexpectedException { s with saveFile := closeSaveFile b p s.saveFile })
  else if r.counters ≠ s.udPerfCountersValues then
    .error (executeUd { s with udPerfCountersValues := r.counters })
  else
    let (status, saveFile) := saveUint64Array p s.udPerfCountersValues.toList s.saveFile
    let s := { s with measuringUd := false, saveFile := saveFile }
    if status ≠ efiSuccess then
      .error (.halt .saveFailed { s with saveFile := closeSaveFile b p s.saveFile })
    else .ok s

def checkNopMeasurements (p : Platform) (enabled : b.countNops = true) (s : State b)
    (r : Response b) : Call b :=
  if r.context.exceptionNumber ≠ exceptionDebug then
    .error (.halt .unexpectedException { s with saveFile := closeSaveFile b p s.saveFile })
  else if nopsRetired r.counters enabled ≠ 1 then
    .error (.halt .unexpectedNopCount { s with saveFile := closeSaveFile b p s.saveFile })
  else if r.counters ≠ s.nopPerfCountersValues then
    .error (executeNop { s with nopPerfCountersValues := r.counters })
  else
    let (status, saveFile) := saveUint64Array p s.nopPerfCountersValues.toList s.saveFile
    let s := { s with measuringNop := false, saveFile := saveFile }
    if status ≠ efiSuccess then
      .error (.halt .saveFailed { s with saveFile := closeSaveFile b p s.saveFile })
    else .ok s

def dispatch (p : Platform) (s : State b) (r : Response b) : Call b :=
  if s.measuringUd then do
    let s ← checkUd2Measurements p s r
    if b.countNops then .error (executeNop { s with measuringNop := true }) else .ok s
  else if enabled : b.countNops = true then
    if s.measuringNop then checkNopMeasurements p enabled s r else checkLastInstruction p s r
  else checkLastInstruction p s r

/-- The call at the end of `handle_exception`, for the functions that return to it. -/
def resume : Call b → Outcome b
  | .ok s => executeCurrentInstruction s
  | .error o => o

def handleException (p : Platform) (s : State b) (r : Response b) : Outcome b :=
  resume (dispatch p s r)

/-! What `check_last_instruction` computes on the way, without the places it leaves from. -/

/-- The call retries with one more byte. -/
def grows (p : Platform) (s : State b) (r : Response b) : Bool :=
  r.boundaryFetchFault p && decide (s.curInstructionLength < 15)

/-- The call restarts an #UD whose counters are not those of the last one. -/
def restarts (s : State b) (r : Response b) : Bool :=
  r.context.exceptionNumber == exceptionInvalidOpcode &&
    decide (s.lastPerfCountersValues ≠ r.counters)

/-- The state behind the switch: a stable #UD clears the counters to compare with. -/
def afterSwitch (s : State b) (r : Response b) : State b :=
  if r.context.exceptionNumber = exceptionInvalidOpcode then
    { s with lastPerfCountersValues := Counters.zero b }
  else s

def classified (s : State b) (r : Response b) : Classified b :=
  let instructionType := typeBeforeSwitch s r
  if r.context.exceptionNumber = exceptionPageFault then
    if r.context.errorCode &&& pfUser = 0 then ⟨defaultCase r .kernelPageFault, true, r.cr2⟩
    else ⟨defaultCase r instructionType, false, 0⟩
  else if r.context.exceptionNumber = exceptionInvalidOpcode then
    if !r.instructionIsKnown && r.counters ≠ s.udPerfCountersValues then
      ⟨.undocumentedUd, false, 0⟩
    else ⟨instructionType, false, 0⟩
  else if r.context.exceptionNumber = exceptionMachineCheck then
    ⟨.machineCheck, true, r.machineCheckExtraInfo⟩
  else ⟨defaultCase r instructionType, false, 0⟩

/-- The state when the instruction has been saved, or the halt because it could not be. -/
def saved (p : Platform) (s : State b) (r : Response b) : Call b :=
  countAndSave p r (classified s r) (afterSwitch s r)

theorem exceptionSwitch_eq (s : State b) (r : Response b) :
    exceptionSwitch s r (typeBeforeSwitch s r) =
      if restarts s r then
        .error (executeCurrentInstruction { s with lastPerfCountersValues := r.counters })
      else .ok (afterSwitch s r, classified s r) := by
  have distinct : exceptionInvalidOpcode ≠ exceptionPageFault := by decide
  unfold exceptionSwitch restarts afterSwitch classified
  by_cases pageFault : r.context.exceptionNumber = exceptionPageFault
  · by_cases user : r.context.errorCode &&& pfUser = 0 <;> simp [pageFault, user, distinct.symm]
  · by_cases ud : r.context.exceptionNumber = exceptionInvalidOpcode
    · by_cases stable : s.lastPerfCountersValues = r.counters
      · simp only [ud, if_neg distinct, if_true, restartOnUnstableCountersValues, stable]
        simp only [ne_eq, not_true_eq_false, if_false, decide_false, Bool.and_false,
          Bool.false_eq_true]
        split <;> simp_all [bind, Except.bind]
      · simp [ud, distinct, restartOnUnstableCountersValues, stable, bind, Except.bind]
    · by_cases machineCheck : r.context.exceptionNumber = exceptionMachineCheck
      · rw [machineCheck] at pageFault ud
        simp [pageFault, ud, machineCheck]
      · simp [pageFault, ud, machineCheck]

/-- A call grows the instruction, restarts it, or goes on to count it. -/
theorem check_last_instruction_eq (p : Platform) (s : State b) (r : Response b) :
    checkLastInstruction p s r =
      if grows p s r then
        .error (executeCurrentInstruction
          { s with curInstructionLength := s.curInstructionLength + 1 })
      else if restarts s r then
        .error (executeCurrentInstruction { s with lastPerfCountersValues := r.counters })
      else (saved p s r).bind fun s => updatePointer p (countUnique p s) := by
  have rest : (exceptionSwitch s r (typeBeforeSwitch s r)).bind (fun x =>
      (countAndSave p r x.2 x.1).bind fun s => updatePointer p (countUnique p s)) =
      if restarts s r then
        .error (executeCurrentInstruction { s with lastPerfCountersValues := r.counters })
      else (saved p s r).bind fun s => updatePointer p (countUnique p s) := by
    rw [exceptionSwitch_eq]
    cases restarts s r <;> rfl
  unfold checkLastInstruction grows incrementInstructionLengthAndRetryExec
  cases fault : r.boundaryFetchFault p with
  | false =>
    simp only [Bool.false_and, Bool.false_eq_true, if_false]
    exact rest
  | true =>
    by_cases short : s.curInstructionLength < 15
    · simp only [if_true, if_neg (Nat.not_le.mpr short), short, decide_true, Bool.and_self]
      rfl
    · simp only [if_true, if_pos (Nat.not_lt.mp short), short, decide_false, Bool.and_false,
        Bool.false_eq_true, if_false]
      exact rest

end PmcBruteforce
