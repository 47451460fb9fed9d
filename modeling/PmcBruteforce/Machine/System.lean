import PmcBruteforce.Machine.User
import PmcBruteforce.Search.Invariant

/-! The whole machine while it searches: user mode, the exception, the stub, the handler and
the way back. It runs the program of the search, with the contexts the stubs build. -/
namespace PmcBruteforce

open Library

variable {b : Build}

structure Kernel (b : Build) where
  processor : Processor
  platform : Platform
  selectors : EventSelectors b
  saveRegsOnException : Bool
  kernelStackPages : UInt64
  userCodePageRw : UInt64
  xsaveStateAreaPtr : UInt64

structure Machine where
  cpu : Cpu
  msrs : Msrs

/-- One stay in user mode, and what the hardware and the compiled code add to the trip through
the kernel: the exception, the registers at it, the answer of the disassembler, what the C
functions leave on their stack, and how many words of it lie above the call of `enter_user`. -/
structure Trip (b : Build) where
  vector : Fin 22
  errorCode : UInt64
  frame : IretqFrame
  register : Register → UInt64
  xstate : Nat → Option (List UInt8)
  msrs : Msrs
  cr2 : UInt64
  disasmLength : UInt64
  stackBytes : ByteMemory
  depth : Nat

/-- The registers user code cannot write and the hardware does not change. -/
def isConfiguration (b : Build) (msr : UInt32) : Bool :=
  msr == msrIa32FixedCtrCtrl || msr == msrIa32PerfGlobalCtrl ||
    (List.range b.perfEventsCount).any fun i => msr == msrIa32Perfevtsel i

def msrsAfterUser (b : Build) (before after : Msrs) : Msrs :=
  fun msr => if isConfiguration b msr then before msr else after msr

def callHandler (k : Kernel b) (cpu : Cpu) (e : Trip b) : Option Cpu :=
  (deliver k.processor e.vector e.errorCode e.frame
    { cpu with register := e.register, rflags := e.frame.rflags, xstate := e.xstate }).bind
      (runBlock k.processor (exceptionHandler k.saveRegsOnException e.vector))

/-- What `handle_exception` reads: its context, the counters and the other registers. -/
def respond (k : Kernel b) (called : Cpu) (msrs : Msrs) (e : Trip b) : Option (Response b) :=
  (readContext k.saveRegsOnException called.memory (called.register .rcx)).map fun context =>
    { context := context
      counters := Vector.ofFn fun i => msrs (msrIa32Pmc i)
      cr2 := e.cr2
      disasmLength := e.disasmLength
      mcgCap := msrs msrIa32McgCap
      mcStatus := fun i => msrs (msrBank 0x401 i) }

def mcgStatusMcip : UInt64 := bit 2

/-- The machine-check case clears the banks it counts and the flag of the check. -/
def clearMachineCheck (msrs : Msrs) : Msrs :=
  let banks := (msrs msrIa32McgCap &&& mcgCapReportingBanksCountMask).toNat
  wrmsr msrIa32McgStatus (msrs msrIa32McgStatus &&& ~~~mcgStatusMcip)
    (wrmsrAll (msrBank 0x401) (fun _ => 0) (List.range banks) msrs)

/-- The case is reached by a machine check that `check_last_instruction` gets. -/
def msrsAfterHandler (s : State b) (r : Response b) (msrs : Msrs) : Msrs :=
  if s.measuringUd || (b.countNops && s.measuringNop) then msrs
  else if r.context.exceptionNumber = exceptionMachineCheck then clearMachineCheck msrs
  else msrs

def kernelStackSize : Nat := 2 * 0x1000

/-- The stack the C functions have used when they call `enter_user`. -/
def compiledCode (k : Kernel b) (called : Cpu) (e : Trip b) : Cpu :=
  { called.set .rsp (ByteMemory.slot called.rsp e.depth) with
    memory := fun x =>
      if (x - k.kernelStackPages).toNat < kernelStackSize then e.stackBytes x else called.memory x }

def instructionStartOffset (size : Nat) : UInt64 := 0x1000 - UInt64.ofNat size

def executeInstruction (k : Kernel b) (instruction : List UInt8) (c : Cpu) (msrs : Msrs) :
    Option Machine :=
  let offset := instructionStartOffset instruction.length
  let copied : Cpu := { c with
    memory := c.memory.writeBytes (k.userCodePageRw + offset) instruction }
  let call := (copied.set .rcx (k.platform.userCodePageForExec + offset)).set .rdx 0
  (runBlock k.processor (enterUser k.xsaveStateAreaPtr) call).map fun cpu =>
    ⟨cpu, startCounters b msrs⟩

inductive SystemOutcome (b : Build) where
  | user (machine : Machine) (instruction : List UInt8) (s : State b)
  | stopped (o : Outcome b)
  | fault

structure UserJob (b : Build) where
  machine : Machine
  instruction : List UInt8
  state : State b

def afterHandler (k : Kernel b) (c : Cpu) (msrs : Msrs) : Outcome b → SystemOutcome b
  | .execute instruction s =>
    match executeInstruction k instruction c msrs with
    | none => .fault
    | some machine => .user machine instruction s
  | o => .stopped o

def trip (k : Kernel b) (j : UserJob b) (e : Trip b) : SystemOutcome b :=
  let msrs := msrsAfterUser b j.machine.msrs e.msrs
  match callHandler k j.machine.cpu e with
  | none => .fault
  | some called =>
    match respond k called msrs e with
    | none => .fault
    | some r =>
      afterHandler k (compiledCode k called e) (msrsAfterHandler j.state r msrs)
        (handleException k.platform j.state r)

def system (k : Kernel b) : Reactive (UserJob b) (Trip b) (SystemOutcome b) where
  handle := trip k
  job
    | .user machine instruction s => some ⟨machine, instruction, s⟩
    | _ => none

/-! What the setup guarantees, and what a stay in user mode finds. -/

/-- The tables are the program's, and its pages, its stack and the XSAVE area do not overlap. -/
structure SetUp (k : Kernel b) (mode : CpuMode) (tssBase : UInt64)
    (exceptionHandlers : Fin 22 → UInt64) : Prop where
  tables : k.processor.tables = descriptorTables mode tssBase
    (setTssRsp0 (k.kernelStackPages + 0x2000) Tss.initial) exceptionHandlers
  executable : k.platform.userCodePageForExec = k.userCodePageRw + 0x1000
  reachable : ∀ n ≤ 0x1000, reachable k.processor 0x1b
    (k.platform.userCodePageForExec + (0x1000 - UInt64.ofNat n)) = true
  stackAligned : k.kernelStackPages &&& 0xf = 0
  pageApart : ByteMemory.Apart k.userCodePageRw 0x1000 k.kernelStackPages kernelStackSize
  areaApart : ByteMemory.Apart k.xsaveStateAreaPtr 536 k.kernelStackPages kernelStackSize
  areaOffPage : ByteMemory.Apart k.xsaveStateAreaPtr 536 k.userCodePageRw 0x1000

/-- The trip fits the stack: an exception of the kernel itself found it in its own stack, and
the C functions have room below the context. -/
structure Fits (k : Kernel b) (e : Trip b) : Prop where
  inside : (deliveryStack k.processor e.frame - k.kernelStackPages).toNat ≤ kernelStackSize
  room : 8 * (24 + e.depth + 5) ≤ (deliveryStack k.processor e.frame - k.kernelStackPages).toNat

/-- User mode as `execute_instruction` promises it: the fetch finds the instruction at the end
of the page, all registers are clear, the trap flag is set and the counters start at zero. -/
structure UserStart (k : Kernel b) (instruction : List UInt8) (m : Machine) : Prop where
  entry : UserEntry (k.platform.userCodePageForExec + instructionStartOffset instruction.length) 0 m.cpu
  page : m.cpu.memory.readBytes (k.userCodePageRw + instructionStartOffset instruction.length)
    instruction.length = instruction
  counters : Started k.selectors m.msrs
  area : EmptyXsaveArea m.cpu.memory k.xsaveStateAreaPtr

theorem instruction_offset {n : Nat} (short : n ≤ 0x1000) :
    instructionStartOffset n = UInt64.ofNat (0x1000 - n) := by
  apply UInt64.toNat_inj.mp
  simp only [instructionStartOffset, UInt64.toNat_sub, UInt64.toNat_ofNat', UInt64.reduceToNat]
  omega

theorem EmptyXsaveArea.same {m m' : ByteMemory} {area : UInt64} (empty : EmptyXsaveArea m area)
    (same : ByteMemory.SameOn area 536 m m') : EmptyXsaveArea m' area :=
  ⟨empty.aligned, (same.load64 (k := 512) (by decide)).trans empty.bitmap,
    (same.load64 (k := 520) (by decide)).trans empty.compaction,
    (same.load64 (k := 528) (by decide)).trans empty.reserved⟩

section

variable {k : Kernel b} {mode : CpuMode} {tssBase : UInt64} {exceptionHandlers : Fin 22 → UInt64}

/-- `execute_instruction` on any stack that has room for a frame. -/
theorem execute_instruction_starts (setUp : SetUp k mode tssBase exceptionHandlers)
    (instruction : List UInt8) (short : instruction.length ≤ 0x1000) {base : UInt64} {size : Nat}
    (pageApart : ByteMemory.Apart k.userCodePageRw 0x1000 base size)
    (areaApart : ByteMemory.Apart k.xsaveStateAreaPtr 536 base size) {c : Cpu} {msrs : Msrs}
    (room : 8 * 5 ≤ (c.rsp - base).toNat) (inside : (c.rsp - base).toNat ≤ size)
    (counting : Counting k.selectors msrs) (area : EmptyXsaveArea c.memory k.xsaveStateAreaPtr) :
    ∃ m, executeInstruction k instruction c msrs = some m ∧ UserStart k instruction m ∧
      m.msrs = startCounters b msrs ∧ ∀ i, m.cpu.xstate i =
        if componentBit (restoredInEnterUser c.xcr0 k.xsaveStateAreaPtr 0) i then none
        else c.xstate i := by
  let offset := instructionStartOffset instruction.length
  let rip := k.platform.userCodePageForExec + offset
  let copied : Cpu := { c with
    memory := c.memory.writeBytes (k.userCodePageRw + offset) instruction }
  let call := (copied.set .rcx rip).set .rdx 0
  have place : (k.userCodePageRw + offset - k.userCodePageRw).toNat = 0x1000 - instruction.length := by
    have bound := ByteMemory.offset_inside k.userCodePageRw
      (show 0x1000 - instruction.length < 2 ^ 64 by omega)
    rw [← bound]
    exact congrArg (fun x => (k.userCodePageRw + x - k.userCodePageRw).toNat) (instruction_offset short)
  have copy : ByteMemory.SameOutside k.userCodePageRw 0x1000 c.memory copied.memory :=
    ByteMemory.writeBytes_sameOutside c.memory (by rw [place]; omega)
  have pushes : ByteMemory.SameOutside base size copied.memory
      (copied.memory.pushAll c.rsp (userFrame rip 0)) :=
    ByteMemory.pushAll_sameOutside copied.memory room inside
  have empty := area.same ((copy.sameOn setUp.areaOffPage).trans (pushes.sameOn areaApart))
  have segments : k.processor.tables.returnsTo 0 0x1b = true ∧
      k.processor.tables.loadsStack 3 0x23 = true := by
    rw [setUp.tables]
    exact returns_to_user mode tssBase _ exceptionHandlers
  obtain ⟨cpu, run, entry, memory, -, xstate⟩ := enter_user_runs k.processor (c := call)
    k.xsaveStateAreaPtr rip 0 ⟨rfl, rfl⟩ empty segments
    (setUp.reachable instruction.length short)
  have fetched : cpu.memory.readBytes (k.userCodePageRw + offset) instruction.length =
      instruction := by
    have page : ByteMemory.SameOn (k.userCodePageRw + UInt64.ofNat (0x1000 - instruction.length))
        instruction.length copied.memory cpu.memory := by
      rw [memory]
      exact (pushes.sameOn pageApart).part (by omega)
    rw [← instruction_offset short] at page
    rw [page.readBytes]
    exact ByteMemory.read_write_same c.memory (k.userCodePageRw + offset) (by omega)
  refine ⟨⟨cpu, startCounters b msrs⟩, ?_, ⟨entry, fetched, start_counters_started counting, ?_⟩, rfl,
    xstate⟩
  · have result : executeInstruction k instruction c msrs =
        (runBlock k.processor (enterUser k.xsaveStateAreaPtr) call).map fun cpu =>
          ⟨cpu, startCounters b msrs⟩ := rfl
    rw [result, run]
    rfl
  · rw [memory]
    exact empty

theorem Called.sameOutside {stack : UInt64} {ws : List UInt64} {c c' : Cpu}
    (called : Called stack ws c c') {base : UInt64} {size : Nat}
    (room : 8 * (ws.length + 2) ≤ (stack - base).toNat) (inside : (stack - base).toNat ≤ size) :
    ByteMemory.SameOutside base size c.memory c'.memory := by
  have pushes : ByteMemory.SameOutside base size c.memory (c.memory.pushAll stack ws) :=
    ByteMemory.pushAll_sameOutside c.memory (by omega) inside
  have store : ∀ (m : ByteMemory) (n : Nat), 8 * (n + 1) ≤ (stack - base).toNat →
      ByteMemory.SameOutside base size m (m.store64 (ByteMemory.slot stack (n + 1)) 0) := by
    intro m n fits
    apply ByteMemory.writeBytes_sameOutside
    rw [ByteMemory.slot_offset (by omega), littleEndianBytes_length]
    omega
  rw [called.memory]
  exact (pushes.trans (store _ ws.length (by omega))).trans
    (store _ (ws.length + ws.length % 2) (by omega))

theorem entryWords_few (saveRegsOnException : Bool) (vector : Fin 22) (errorCode : UInt64)
    (f : IretqFrame) (c : Cpu) :
    (entryWords saveRegsOnException vector errorCode f c).length ≤ 22 := by
  have words : (deliveredWords vector errorCode f).length ≤ 6 := by
    rw [deliveredWords_length]
    split <;> omega
  have registers : registersInContext saveRegsOnException ≤ 15 := by
    cases saveRegsOnException <;> simp [registersInContext, contextRegisters]
  rw [entryWords_length]
  omega

theorem configuration_kept {before after : Msrs} (counting : Counting k.selectors before) :
    Counting k.selectors (msrsAfterUser b before after) := by
  constructor
  · exact counting.fixed
  · intro i
    have selected : isConfiguration b (msrIa32Perfevtsel i) = true := by
      simp only [isConfiguration, Bool.or_eq_true, List.any_eq_true, List.mem_range, beq_iff_eq]
      exact .inr ⟨i, i.isLt, rfl⟩
    rw [msrsAfterUser, if_pos selected]
    exact counting.selected i

def machineCheckBanks (msrs : Msrs) : Nat :=
  (msrs msrIa32McgCap &&& mcgCapReportingBanksCountMask).toNat

theorem machine_check_banks_le (msrs : Msrs) : machineCheckBanks msrs ≤ 15 := by
  rw [machineCheckBanks, UInt64.toNat_and]
  exact Nat.and_le_right

/-- What clearing leaves: the banks at zero, the flag of the check clear, and all else. -/
theorem clear_machine_check (msrs : Msrs) :
    (∀ i < machineCheckBanks msrs, clearMachineCheck msrs (msrBank 0x401 i) = 0) ∧
    clearMachineCheck msrs msrIa32McgStatus &&& mcgStatusMcip = 0 ∧
    ∀ n < 2 ^ 32, n ≠ 0x17a → (n < 0x401 ∨ 0x43a ≤ n) →
      clearMachineCheck msrs (UInt32.ofNat n) = msrs (UInt32.ofNat n) := by
  have few := machine_check_banks_le msrs
  have different : ∀ i ∈ List.range (machineCheckBanks msrs),
      ∀ j ∈ List.range (machineCheckBanks msrs), msrBank 0x401 i = msrBank 0x401 j → i = j := by
    intro i hi j hj same
    rw [List.mem_range] at hi hj
    by_contra other
    exact msr_ne (m := 0x401 + i * 4) (n := 0x401 + j * 4) (by omega) (by omega) (by omega) same
  obtain ⟨written, others⟩ := wrmsrAll_apply (fun _ => 0) different msrs
  refine ⟨?_, ?_, ?_⟩
  · intro i inside
    have other : msrBank 0x401 i ≠ msrIa32McgStatus :=
      msr_ne (m := 0x401 + i * 4) (n := 0x17a) (by omega) (by omega) (by omega)
    rw [clearMachineCheck, wrmsr, if_neg other]
    exact written i (List.mem_range.mpr inside)
  · have gone : ~~~mcgStatusMcip &&& mcgStatusMcip = 0 := by decide
    rw [clearMachineCheck, wrmsr, if_pos rfl, UInt64.and_assoc, gone, UInt64.and_zero]
  · intro n small status outside
    have other : UInt32.ofNat n ≠ msrIa32McgStatus := msr_ne (n := 0x17a) small (by omega) status
    rw [clearMachineCheck, wrmsr, if_neg other]
    apply others
    intro i inside
    rw [List.mem_range] at inside
    exact msr_ne (n := 0x401 + i * 4) small (by omega) (by omega)

theorem counting_after_handler {msrs : Msrs} (counting : Counting k.selectors msrs) (s : State b)
    (r : Response b) : Counting k.selectors (msrsAfterHandler s r msrs) := by
  have few := b.perf_events_count_le
  have cleared : Counting k.selectors (clearMachineCheck msrs) := by
    have kept := (clear_machine_check msrs).2.2
    refine ⟨(kept 0x38d (by decide) (by decide) (by decide)).trans counting.fixed, ?_⟩
    intro i
    have inside := i.isLt
    exact (kept (0x186 + i) (by omega) (by omega) (by omega)).trans (counting.selected i)
  unfold msrsAfterHandler
  split
  · exact counting
  · split
    · exact cleared
    · exact counting

/-- An exception in user mode starts on the stack the program allocated for it. -/
theorem user_stack (setUp : SetUp k mode tssBase exceptionHandlers) {f : IretqFrame}
    (user : rpl f.cs ≠ 0) : deliveryStack k.processor f = k.kernelStackPages + 0x2000 := by
  have top : k.processor.tables.rsp0 = k.kernelStackPages + 0x2000 := by
    have read : tableField k.processor.tables.tss 4 8 = (k.kernelStackPages + 0x2000).toNat := by
      rw [setUp.tables]
      exact tss_rsp0 _
    rw [DescriptorTables.rsp0, read, UInt64.ofNat_toNat]
  have low : k.kernelStackPages.toNat % 16 = 0 := by
    have masked : k.kernelStackPages.toNat &&& 15 = k.kernelStackPages.toNat % 16 :=
      Nat.and_two_pow_sub_one_eq_mod _ 4
    rw [← masked]
    exact congrArg UInt64.toNat setUp.stackAligned
  rw [deliveryStack, if_neg user, top]
  apply UInt64.toNat_inj.mp
  rw [align_toNat]
  simp only [UInt64.toNat_add, UInt64.reduceToNat]
  omega

structure Answers (e : Trip b) (r : Response b) : Prop where
  number : r.context.exceptionNumber = e.vector
  frame : r.context.frame = e.frame
  errorCode : hasErrorCode e.vector = true → r.context.errorCode = e.errorCode
  counters : ∀ i : Fin b.perfEventsCount, r.counters[i] = e.msrs (msrIa32Pmc i)
  cr2 : r.cr2 = e.cr2
  disasmLength : r.disasmLength = e.disasmLength
  mcgCap : r.mcgCap = e.msrs msrIa32McgCap
  mcStatus : ∀ i < 16, r.mcStatus i = e.msrs (msrBank 0x401 i)

theorem not_configuration (b : Build) {n : Nat} (small : n < 2 ^ 32) (fixed : n ≠ 0x38d)
    (global : n ≠ 0x38f) (selectors : n < 0x186 ∨ 0x18d ≤ n) :
    isConfiguration b (UInt32.ofNat n) = false := by
  have few := b.perf_events_count_le
  have fixed' : UInt32.ofNat n ≠ msrIa32FixedCtrCtrl := msr_ne (n := 0x38d) small (by omega) fixed
  have global' : UInt32.ofNat n ≠ msrIa32PerfGlobalCtrl := msr_ne (n := 0x38f) small (by omega) global
  have selector : ∀ i < b.perfEventsCount, UInt32.ofNat n ≠ msrIa32Perfevtsel i := fun i inside =>
    msr_ne (n := 0x186 + i) small (by omega) (by omega)
  simp only [isConfiguration, Bool.or_eq_false_iff, beq_eq_false_iff_ne, List.any_eq_false,
    List.mem_range, beq_iff_eq]
  exact ⟨⟨fixed', global'⟩, selector⟩

theorem msrs_after_user (before after : Msrs) {n : Nat} (small : n < 2 ^ 32) (fixed : n ≠ 0x38d)
    (global : n ≠ 0x38f) (selectors : n < 0x186 ∨ 0x18d ≤ n) :
    msrsAfterUser b before after (UInt32.ofNat n) = after (UInt32.ofNat n) := by
  simp only [msrsAfterUser, not_configuration b small fixed global selectors, Bool.false_eq_true,
    if_false]

/-- A call of the handler in the machine: it gets what happened in user mode, and what it
leaves is fit for the next `execute_instruction`. -/
structure HandlerCall (k : Kernel b) (j : UserJob b) (e : Trip b) (r : Response b) (c : Cpu)
    (msrs : Msrs) : Prop where
  answers : Answers e r
  trip : trip k j e = afterHandler k c msrs (handleException k.platform j.state r)
  msrs : msrs = msrsAfterHandler j.state r (msrsAfterUser b j.machine.msrs e.msrs)
  room : 8 * 5 ≤ (c.rsp - k.kernelStackPages).toNat
  inside : (c.rsp - k.kernelStackPages).toNat ≤ kernelStackSize
  area : EmptyXsaveArea c.memory k.xsaveStateAreaPtr
  xstate : c.xstate = e.xstate

theorem handler_called (setUp : SetUp k mode tssBase exceptionHandlers) {j : UserJob b}
    (start : UserStart k j.instruction j.machine) {e : Trip b} (fits : Fits k e) :
    ∃ r c msrs, HandlerCall k j e r c msrs := by
  let interrupted : Cpu :=
    { j.machine.cpu with register := e.register, rflags := e.frame.rflags, xstate := e.xstate }
  let before := msrsAfterUser b j.machine.msrs e.msrs
  have gate : k.processor.tables.exceptionTarget e.vector = some (exceptionHandlers e.vector) := by
    rw [setUp.tables]
    exact exception_target mode tssBase _ exceptionHandlers e.vector
  obtain ⟨d, called, delivered, -, stub, state⟩ := stub_called k.processor k.saveRegsOnException gate
    e.errorCode e.frame interrupted
  have reached : callHandler k j.machine.cpu e = some called := by
    rw [callHandler, delivered]
    exact stub
  obtain ⟨context, describes⟩ := state.describes
  let r : Response b :=
    { context := context
      counters := Vector.ofFn fun i => before (msrIa32Pmc i)
      cr2 := e.cr2
      disasmLength := e.disasmLength
      mcgCap := before msrIa32McgCap
      mcStatus := fun i => before (msrBank 0x401 i) }
  have response : respond k called before e = some r := by
    rw [respond, describes.read]
    rfl
  have few := entryWords_few k.saveRegsOnException e.vector e.errorCode e.frame interrupted
  generalize entryWords k.saveRegsOnException e.vector e.errorCode e.frame interrupted = ws
    at state few
  have room := fits.room
  have inside := fits.inside
  have stub : ByteMemory.SameOutside k.kernelStackPages kernelStackSize interrupted.memory
      called.memory := state.sameOutside (by omega) inside
  have top : (called.rsp - k.kernelStackPages).toNat =
      (deliveryStack k.processor e.frame - k.kernelStackPages).toNat -
        8 * (ws.length + ws.length % 2 + 1) := by
    rw [state.rsp]
    exact ByteMemory.slot_offset (by omega)
  have bottom : ((compiledCode k called e).rsp - k.kernelStackPages).toNat =
      (called.rsp - k.kernelStackPages).toNat - 8 * e.depth := ByteMemory.slot_offset (by omega)
  have frames : ByteMemory.SameOutside k.kernelStackPages kernelStackSize called.memory
      (compiledCode k called e).memory := by
    intro x outside
    exact if_neg (by omega)
  refine ⟨r, compiledCode k called e, msrsAfterHandler j.state r before,
    ⟨describes.number, describes.frame, describes.errorCode, ?_, rfl, rfl, ?_, ?_⟩, ?_, rfl,
    by omega, by omega, ?_, state.xstate⟩
  · intro i
    have few := b.perf_events_count_le
    have index := i.isLt
    have counter : r.counters[i] = before (msrIa32Pmc i) := by simp [r]
    rw [counter]
    exact msrs_after_user (n := 0xc1 + i) _ _ (by omega) (by omega) (by omega) (by omega)
  · exact msrs_after_user (n := 0x179) _ _ (by decide) (by decide) (by decide) (by decide)
  · intro i small
    exact msrs_after_user (n := 0x401 + i * 4) _ _ (by omega) (by omega) (by omega) (by omega)
  · simp only [trip, reached]
    have result : respond k called (msrsAfterUser b j.machine.msrs e.msrs) e = some r := response
    simp only [result]
    rfl
  · exact start.area.same ((stub.sameOn setUp.areaApart).trans (frames.sameOn setUp.areaApart))

end

end PmcBruteforce
