import PmcBruteforce.SaveFile.Writes
import PmcBruteforce.Search.Pointer

/-! The globals of instruction_execution_loop.c, the places a call that does not return
goes to, and the classification of one exception. -/
namespace PmcBruteforce

/-- The statistics counters. `nops` is counted only with COUNT_NOPS. -/
structure Stats where
  uniqueInstructionsExecuted : UInt64
  instructionsSaved : UInt64
  kernelExceptions : UInt64
  kernelPageFaults : UInt64
  undocumentedBehindUd : UInt64
  undocumentedNotUd : UInt64
  vexMalformedButAccepted : UInt64
  nops : UInt64
  machineChecks : UInt64
  cpuXedLengthMismatches : UInt64
  deriving DecidableEq, Repr

namespace Stats

def zero : Stats := ⟨0, 0, 0, 0, 0, 0, 0, 0, 0, 0⟩

def countType {b : Build} (t : InstructionType b) (s : Stats) : Stats :=
  match t with
  | .notInteresting => s
  | .kernelException => { s with kernelExceptions := s.kernelExceptions + 1 }
  | .kernelPageFault => { s with kernelPageFaults := s.kernelPageFaults + 1 }
  | .machineCheck => { s with machineChecks := s.machineChecks + 1 }
  | .undocumentedUd => { s with undocumentedBehindUd := s.undocumentedBehindUd + 1 }
  | .undocumentedNotUd => { s with undocumentedNotUd := s.undocumentedNotUd + 1 }
  | .vexMalformedButAccepted =>
    { s with vexMalformedButAccepted := s.vexMalformedButAccepted + 1 }
  | .nop _ => { s with nops := s.nops + 1 }
  | .xedLengthMismatch => { s with cpuXedLengthMismatches := s.cpuXedLengthMismatches + 1 }

def counter {b : Build} (s : Stats) : InstructionType b → UInt64
  | .notInteresting => 0
  | .kernelException => s.kernelExceptions
  | .kernelPageFault => s.kernelPageFaults
  | .machineCheck => s.machineChecks
  | .undocumentedUd => s.undocumentedBehindUd
  | .undocumentedNotUd => s.undocumentedNotUd
  | .vexMalformedButAccepted => s.vexMalformedButAccepted
  | .nop _ => s.nops
  | .xedLengthMismatch => s.cpuXedLengthMismatches

theorem counter_countType {b : Build} (s : Stats) (t u : InstructionType b)
    (counted : t ≠ .notInteresting) :
    (s.countType t).counter u = s.counter u + if u = t then 1 else 0 := by
  cases t <;> cases u <;> first | exact absurd rfl counted | simp [countType, counter]

@[simp] theorem countType_unique {b : Build} (s : Stats) (t : InstructionType b) :
    (s.countType t).uniqueInstructionsExecuted = s.uniqueInstructionsExecuted := by
  cases t <;> rfl

@[simp] theorem countType_saved {b : Build} (s : Stats) (t : InstructionType b) :
    (s.countType t).instructionsSaved = s.instructionsSaved := by
  cases t <;> rfl

end Stats

structure State (b : Build) where
  instructionBytes : Buffer
  curInstructionLength : Nat
  curByteIndex : Nat
  lastInstructionLength : Nat
  stats : Stats
  malformedInstructionExpectUd : Bool
  measuringUd : Bool
  udPerfCountersValues : Counters b
  measuringNop : Bool
  nopPerfCountersValues : Counters b
  lastPerfCountersValues : Counters b
  flushRequired : Bool
  saveFile : SaveFile
  deriving DecidableEq

inductive Halt where
  | unexpectedException | unexpectedNopCount | saveFailed | done
  deriving DecidableEq, Repr

/-- Where the handler ends: it enters user mode with the instruction it put at the end of
the page, or stops. The last two are undefined behaviour: a read past
`instruction_bytes`, and a loop that does not end. -/
inductive Outcome (b : Build) where
  | execute (instruction : List UInt8) (s : State b)
  | halt (reason : Halt) (s : State b)
  | outOfBounds
  | diverge
  deriving DecidableEq

/-- The result of a function that may leave for user mode instead of returning. -/
abbrev Call (b : Build) := Except (Outcome b) (State b)

variable {b : Build}

def State.currentInstruction (s : State b) : List UInt8 :=
  s.instructionBytes.string s.curInstructionLength

def executeCurrentInstruction (s : State b) : Outcome b := .execute s.currentInstruction s

def executeUd (s : State b) : Outcome b := .execute [0x0f, 0x0b] s

def executeNop (s : State b) : Outcome b := .execute [0x90] s

def incrementInstructionLengthAndRetryExec (s : State b) : Call b :=
  if s.curInstructionLength ≥ 15 then .ok s
  else .error (executeCurrentInstruction
    { s with curInstructionLength := s.curInstructionLength + 1 })

/-- `restart_on_unstable_counters_values`: the loop compares and copies the arrays. -/
def restartOnUnstableCountersValues (curPerfCountersValues : Counters b) (s : State b) :
    Call b :=
  if s.lastPerfCountersValues ≠ curPerfCountersValues then
    .error (executeCurrentInstruction { s with lastPerfCountersValues := curPerfCountersValues })
  else .ok { s with lastPerfCountersValues := Counters.zero b }

def Response.userMode (r : Response b) : Bool := r.context.frame.cs &&& 3 == 3

/-- The fault on the byte behind the page that ends with the instruction. -/
def Response.boundaryFetchFault (p : Platform) (r : Response b) : Bool :=
  r.userMode &&
    (r.context.exceptionNumber == exceptionPageFault &&
      r.context.errorCode &&& pfInstructionFetch != 0) &&
    (r.cr2 == p.userCodePageForExec + 0x1000 && r.context.frame.rip != r.cr2)

def Response.instructionIsKnown (r : Response b) : Bool := r.disasmLength != 0

def nopsRetired (counters : Counters b) (enabled : b.countNops = true) : UInt64 :=
  counters.get ⟨b.instRetiredNop, b.inst_retired_nop_lt enabled⟩

/-- `instruction_type` when the switch over exceptions is reached. -/
def typeBeforeSwitch (s : State b) (r : Response b) : InstructionType b :=
  let instructionType := if r.userMode then .notInteresting else .kernelException
  let instructionType :=
    if s.malformedInstructionExpectUd && r.context.exceptionNumber != exceptionInvalidOpcode then
      .vexMalformedButAccepted
    else instructionType
  if r.instructionIsKnown && UInt64.ofNat s.curInstructionLength != r.disasmLength then
    .xedLengthMismatch
  else instructionType

/-- The default case of the switch, which #PF falls through to. -/
def defaultCase (r : Response b) (instructionType : InstructionType b) : InstructionType b :=
  if !r.instructionIsKnown then .undocumentedNotUd
  else if enabled : b.countNops = true then
    if nopsRetired r.counters enabled ≠ 0 then .nop enabled else instructionType
  else instructionType

/-- What `check_last_instruction` knows after the switch. -/
structure Classified (b : Build) where
  instructionType : InstructionType b
  extraInfoPresent : Bool
  extraInfo : UInt64
  deriving DecidableEq, Repr

def exceptionSwitch (s : State b) (r : Response b) (instructionType : InstructionType b) :
    Except (Outcome b) (State b × Classified b) :=
  if r.context.exceptionNumber = exceptionPageFault then
    if r.context.errorCode &&& pfUser = 0 then
      .ok (s, ⟨defaultCase r .kernelPageFault, true, r.cr2⟩)
    else .ok (s, ⟨defaultCase r instructionType, false, 0⟩)
  else if r.context.exceptionNumber = exceptionInvalidOpcode then do
    let s ← restartOnUnstableCountersValues r.counters s
    if !r.instructionIsKnown && r.counters ≠ s.udPerfCountersValues then
      .ok (s, ⟨.undocumentedUd, false, 0⟩)
    else .ok (s, ⟨instructionType, false, 0⟩)
  else if r.context.exceptionNumber = exceptionMachineCheck then
    .ok (s, ⟨.machineCheck, true, r.machineCheckExtraInfo⟩)
  else .ok (s, ⟨defaultCase r instructionType, false, 0⟩)

end PmcBruteforce
