import Mathlib.Algebra.Group.Nat.Defs
import Mathlib.Data.List.Basic

/-! What the build fixes and what the hardware hands to the exception handler. The build is
a parameter of everything that follows: no theorem is about one set of preprocessor
switches. COUNT_XED_VS_CPU_MISMATCHES has no field, since the switch over
instruction types does not compile without it. -/
namespace PmcBruteforce

inductive CpuMode where
  | mode16 | mode32 | mode64
  deriving DecidableEq, Repr

structure Build where
  cpuMode : CpuMode
  countRetired : Bool
  countNops : Bool
  countIdq : Bool
  noSave : Bool
  deriving DecidableEq, Repr

/-- The switches the Makefile passes, in one of the three CPU modes. -/
def Build.makefile (mode : CpuMode) : Build := ⟨mode, true, false, false, false⟩

def Build.perfEventsCount (b : Build) : Nat :=
  1 + (if b.countRetired then 2 else 0) + (if b.countNops then 1 else 0) +
    (if b.countIdq then 3 else 0)

def Build.instRetiredNop (b : Build) : Nat := 1 + (if b.countRetired then 2 else 0)

theorem Build.inst_retired_nop_lt (b : Build) (h : b.countNops = true) :
    b.instRetiredNop < b.perfEventsCount := by
  simp only [instRetiredNop, perfEventsCount, h, if_true]
  omega

abbrev Counters (b : Build) := Vector UInt64 b.perfEventsCount

def Counters.zero (b : Build) : Counters b := Vector.replicate _ 0

/-- The counters the Makefile's switches leave. -/
def threeCounters (uopsIssued uopsRetired retiredSlots : UInt64) : Vector UInt64 3 :=
  #v[uopsIssued, uopsRetired, retiredSlots]

/-- `enum instruction_type`. The constant NOP is there only with COUNT_NOPS, so its
constructor asks for the switch. -/
inductive InstructionType (b : Build) where
  | notInteresting
  | kernelException
  | kernelPageFault
  | machineCheck
  | undocumentedUd
  | undocumentedNotUd
  | vexMalformedButAccepted
  | nop (enabled : b.countNops = true)
  | xedLengthMismatch
  deriving DecidableEq, Repr

/-- The value of the C constant. With COUNT_NOPS the last one moves up. -/
def InstructionType.code {b : Build} : InstructionType b → UInt8
  | notInteresting => 0
  | kernelException => 1
  | kernelPageFault => 2
  | machineCheck => 3
  | undocumentedUd => 4
  | undocumentedNotUd => 5
  | vexMalformedButAccepted => 6
  | nop _ => 7
  | xedLengthMismatch => if b.countNops then 8 else 7

theorem InstructionType.code_lt {b : Build} (t : InstructionType b) : t.code < 16 := by
  cases t <;> simp only [code] <;> first | decide | (split <;> decide)

theorem InstructionType.code_injective {b : Build} {t u : InstructionType b}
    (h : t.code = u.code) : t = u := by
  cases hb : b.countNops <;> cases t <;> cases u <;> simp_all [code]

structure IretqFrame where
  rip : UInt64
  cs : UInt64
  rflags : UInt64
  rsp : UInt64
  ss : UInt64
  deriving DecidableEq, Repr

@[instance] theorem vectorCount_neZero : @NeZero Nat Zero.ofOfNat0 22 := ⟨by decide⟩

/-- `struct context`: the vector one of the 22 stubs of exception_handlers.S pushed, and
the six words above it on the stack, which the two arms of the union read differently. -/
structure Context where
  exceptionNumber : Fin 22
  words : Vector UInt64 6
  deriving DecidableEq, Repr

namespace Context

def errorCode (c : Context) : UInt64 := c.words[0]

def iretqFrameNoErrorCode (c : Context) : IretqFrame :=
  ⟨c.words[0], c.words[1], c.words[2], c.words[3], c.words[4]⟩

def iretqFrameWithErrorCode (c : Context) : IretqFrame :=
  ⟨c.words[1], c.words[2], c.words[3], c.words[4], c.words[5]⟩

end Context

/-- The words behind a fault of the user's code at `rip` that has no error code. -/
def userFault (rip : UInt64) : Vector UInt64 6 := #v[rip, 0x1b, 0x102, 0, 0x23, 0]

def bit (n : Nat) : UInt64 := (1 : UInt64) <<< UInt64.ofNat n

def exceptionsWithErrorCodeMask : UInt64 :=
  bit 8 ||| bit 10 ||| bit 11 ||| bit 12 ||| bit 13 ||| bit 14 ||| bit 17 ||| bit 21

/-- `((1ULL << exception_number) & EXCEPTIONS_WITH_ERROR_CODE_MASK) != 0`. -/
def hasErrorCode (exceptionNumber : Fin 22) : Bool :=
  (bit exceptionNumber &&& exceptionsWithErrorCodeMask) != 0

def Context.frame (c : Context) : IretqFrame :=
  if hasErrorCode c.exceptionNumber then c.iretqFrameWithErrorCode else c.iretqFrameNoErrorCode

def exceptionDebug : Fin 22 := 1
def exceptionInvalidOpcode : Fin 22 := 6
def exceptionPageFault : Fin 22 := 14
def exceptionMachineCheck : Fin 22 := 18

def pfUser : UInt64 := bit 2
def pfInstructionFetch : UInt64 := bit 4
def mcStatusValid : UInt64 := bit 63
def mcgCapReportingBanksCountMask : UInt64 := 0xf

/-- One exception as the handler sees it: the stack, the counters it reads with `rdpmc`,
`cr2`, the machine-check registers, and the answer of the disassembler for the
instruction that ran, with 0 for "not known". -/
structure Response (b : Build) where
  context : Context
  counters : Counters b
  cr2 : UInt64
  disasmLength : UInt64
  mcgCap : UInt64
  mcStatus : Nat → UInt64

/-- The bank loop of the machine-check case: the last valid status is kept. -/
def Response.machineCheckExtraInfo {b : Build} (r : Response b) : UInt64 :=
  (List.range (r.mcgCap &&& mcgCapReportingBanksCountMask).toNat).foldl
    (fun extra i => if r.mcStatus i &&& mcStatusValid != 0 then r.mcStatus i else extra) 0

abbrev EfiStatus := UInt64

def efiSuccess : EfiStatus := 0
def efiVolumeFull : EfiStatus := 0x800000000000000b

/-- What stays fixed over a run: where the executable alias of the user page lies, the
status the firmware returns for each call through the output file, and how many bytes
a failing Write stores. -/
structure Platform where
  userCodePageForExec : UInt64
  fileStatus : Nat → EfiStatus
  stored : Nat → Nat

def Platform.reliable : Platform := ⟨0x201000, fun _ => efiSuccess, fun _ => 0⟩

end PmcBruteforce
