import PmcBruteforce.Machine.Tables

/-! The instructions of exception_handlers.S and enter_user.S, the delivery of an exception,
and the text of the two files. An instruction that faults has no result. -/
namespace PmcBruteforce

open Library

inductive Register where
  | rax | rcx | rdx | rbx | rsp | rbp | rsi | rdi
  | r8 | r9 | r10 | r11 | r12 | r13 | r14 | r15
  deriving DecidableEq, Repr

/-- The state of the processor that the two files touch. An XSAVE state component is its
bytes, or none in its initial configuration. -/
structure Cpu where
  register : Register → UInt64
  rip : UInt64
  rflags : UInt64
  cs : UInt64
  ss : UInt64
  memory : ByteMemory
  xcr0 : UInt64
  xstate : Nat → Option (List UInt8)

inductive Operand where
  | register (r : Register)
  | immediate (v : UInt64)
  deriving DecidableEq, Repr

inductive Instruction where
  | push (source : Operand)
  | mov (dst : Register) (source : Operand)
  | and (dst : Register) (mask : UInt64)
  | clear (dst : Register)
  | popfq
  | xrstor (base : Register)
  | iretq
  deriving DecidableEq, Repr

def flagTf : UInt64 := bit 8
def flagIf : UInt64 := bit 9

/-- The flags `popfq` loads at level 0: all but RF, VM, VIF, VIP and the reserved ones. -/
def popfqMask : UInt64 := 0x247fd5

def flagsAlwaysSet : UInt64 := 2

/-- TF, NT, RF and VM, which an exception clears. A trap gate leaves IF. -/
def exceptionClears : UInt64 := bit 8 ||| bit 14 ||| bit 16 ||| bit 17

def definedFlags : UInt64 := 0x3f7fd5

namespace Cpu

def set (c : Cpu) (r : Register) (v : UInt64) : Cpu :=
  { c with register := fun x => if x = r then v else c.register x }

def value (c : Cpu) : Operand → UInt64
  | .register r => c.register r
  | .immediate v => v

def rsp (c : Cpu) : UInt64 := c.register .rsp

def pushed (c : Cpu) (v : UInt64) : Cpu :=
  { c.set .rsp (ByteMemory.slot c.rsp 1) with memory := c.memory.store64 (ByteMemory.slot c.rsp 1) v }

/-- The components `xrstor` is asked for: EDX:EAX, as far as XCR0 allows. -/
def requestedComponents (c : Cpu) : UInt64 :=
  (((c.register .rdx &&& 0xffffffff) <<< 32) ||| (c.register .rax &&& 0xffffffff)) &&& c.xcr0

end Cpu

def componentBit (bitmap : UInt64) (i : Nat) : Bool := bitField bitmap.toNat i 1 == 1

/-- The parts of the processor that stay as the program has set them up: the tables, and where
CPUID places a component in an XSAVE area. -/
structure Processor where
  tables : DescriptorTables
  componentOffset : Nat → UInt64
  componentSize : Nat → Nat

def canonical (a : UInt64) : Bool := a < 0x800000000000 || 0xffff800000000000 ≤ a

def restoredComponent (p : Processor) (m : ByteMemory) (area stored : UInt64) (i : Nat) :
    Option (List UInt8) :=
  if componentBit stored i then some (m.readBytes (area + p.componentOffset i) (p.componentSize i))
  else none

/-- `xrstor` in the standard form. The bitmap of the area is at 512. -/
def xrstorArea (p : Processor) (c : Cpu) (area : UInt64) : Option Cpu :=
  let stored := c.memory.load64 (area + 512)
  if area &&& 0x3f = 0 ∧ stored &&& ~~~c.xcr0 = 0 ∧ c.memory.load64 (area + 520) = 0 ∧
      c.memory.load64 (area + 528) = 0 then
    some { c with xstate := fun i =>
      if componentBit c.requestedComponents i then restoredComponent p c.memory area stored i
      else c.xstate i }
  else none

/-- The address `iretq` goes to fits the mode of its code segment. -/
def reachable (p : Processor) (cs rip : UInt64) : Bool :=
  match p.tables.segment cs with
  | none => false
  | some s => if s.long then canonical rip else decide (rip.toNat ≤ s.lastByte)

def iretqFrame (p : Processor) (c : Cpu) (f : IretqFrame) : Option Cpu :=
  if p.tables.returnsTo 0 f.cs ∧ p.tables.loadsStack (rpl f.cs) f.ss ∧ reachable p f.cs f.rip then
    some { c.set .rsp f.rsp with
      rip := f.rip
      cs := f.cs
      rflags := f.rflags &&& definedFlags ||| flagsAlwaysSet
      ss := f.ss }
  else none

def frameAt (m : ByteMemory) (a : UInt64) : IretqFrame :=
  ⟨m.load64 a, m.load64 (a + 8), m.load64 (a + 16), m.load64 (a + 24), m.load64 (a + 32)⟩

def exec (p : Processor) : Instruction → Cpu → Option Cpu
  | .push source, c => some (c.pushed (c.value source))
  | .mov dst source, c => some (c.set dst (c.value source))
  | .and dst mask, c => some (c.set dst (c.register dst &&& mask))
  | .clear dst, c => some (c.set dst 0)
  | .popfq, c => some { c.set .rsp (c.rsp + 8) with
      rflags := c.memory.load64 c.rsp &&& popfqMask |||
        c.rflags &&& (definedFlags &&& ~~~(popfqMask ||| bit 16)) ||| flagsAlwaysSet }
  | .xrstor base, c => xrstorArea p c (c.register base)
  | .iretq, c => iretqFrame p c (frameAt c.memory c.rsp)

def runBlock (p : Processor) : List Instruction → Cpu → Option Cpu
  | [], c => some c
  | i :: is, c => (exec p i c).bind (runBlock p is)

theorem run_append (p : Processor) (is js : List Instruction) (c : Cpu) :
    runBlock p (is ++ js) c = (runBlock p is c).bind (runBlock p js) := by
  induction is generalizing c with
  | nil => rfl
  | cons i is ih =>
    rw [List.cons_append, runBlock, runBlock, Option.bind_assoc]
    exact congrArg _ (funext ih)

/-! exception_handlers.S -/

/-- The registers `do_handle_exception` pushes with SAVE_REGS_ON_EXCEPTION, in its order. -/
def savedOnException : List Register :=
  [.r15, .r14, .r13, .r12, .r11, .r10, .r9, .r8, .rdi, .rsi, .rbp, .rbx, .rdx, .rcx, .rax]

/-- `do_handle_exception` up to its jump to `handle_exception`. -/
def doHandleException (saveRegsOnException : Bool) : List Instruction :=
  (if saveRegsOnException then savedOnException.map fun r => .push (.register r) else []) ++
    [.mov .rcx (.register .rsp), .push (.immediate 0), .popfq, .and .rsp (~~~0xf),
      .push (.immediate 0)]

def exceptionHandler (saveRegsOnException : Bool) (vector : Fin 22) : List Instruction :=
  .push (.immediate (UInt64.ofNat vector)) :: doHandleException saveRegsOnException

/-! enter_user.S -/

/-- `enter_user`. The first `mov` reads the global `xsave_state_area_ptr`. -/
def enterUser (xsaveStateAreaPtr : UInt64) : List Instruction :=
  [.push (.immediate 0x23), .push (.register .rdx), .push (.immediate (((1 : UInt64) <<< 8) ||| 2)),
    .push (.immediate 0x1b), .push (.register .rcx),
    .mov .rax (.immediate xsaveStateAreaPtr), .xrstor .rax,
    .clear .rax, .clear .rcx, .clear .rdx, .clear .rbx, .clear .rbp, .clear .rsi, .clear .rdi,
    .clear .r8, .clear .r9, .clear .r10, .clear .r11, .clear .r12, .clear .r13, .clear .r14,
    .clear .r15, .iretq]

/-! The delivery of an exception. -/

def pushesErrorCode (vector : Fin 22) : Bool :=
  decide (vector.val ∈ [8, 10, 11, 12, 13, 14, 17, 21])

def deliveredWords (vector : Fin 22) (errorCode : UInt64) (f : IretqFrame) : List UInt64 :=
  [f.ss, f.rsp, f.rflags, f.cs, f.rip] ++ if pushesErrorCode vector then [errorCode] else []

/-- The stack an exception starts on: the one for level 0 when it comes from another level. -/
def deliveryStack (p : Processor) (f : IretqFrame) : UInt64 :=
  (if rpl f.cs = 0 then f.rsp else p.tables.rsp0) &&& ~~~0xf

/-- The processor from the exception to the first instruction of the handler. `f` is what it
saves of the interrupted program, whose other registers are still in `c`. -/
def deliver (p : Processor) (vector : Fin 22) (errorCode : UInt64) (f : IretqFrame) (c : Cpu) :
    Option Cpu :=
  match p.tables.exceptionTarget vector with
  | none => none
  | some target =>
    let stack := deliveryStack p f
    let words := deliveredWords vector errorCode f
    some { c.set .rsp (ByteMemory.slot stack words.length) with
      rip := target
      cs := 8
      ss := if rpl f.cs = 0 then c.ss else 0
      rflags := c.rflags &&& ~~~exceptionClears
      memory := c.memory.pushAll stack words }

end PmcBruteforce
