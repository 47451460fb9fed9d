import PmcBruteforce.Library.ByteMemory
import PmcBruteforce.Machine.Build

/-! The descriptor tables of system_tables_setup.c, as the bytes the program leaves in memory,
and the checks with which the processor reads them. The addresses the linker picks for the
handlers and for the task state segment are parameters. -/
namespace PmcBruteforce

open Library

def gdtCodeOrDataSegment : UInt64 := bit 12
def gdtDpl3 : UInt64 := (3 : UInt64) <<< 13
def gdtPresent : UInt64 := bit 15
def gdt16BitCodeSegment : UInt64 := gdtCodeOrDataSegment ||| ((11 : UInt64) <<< 8)
def gdt64BitCodeSegment : UInt64 := bit 21 ||| gdtCodeOrDataSegment ||| ((11 : UInt64) <<< 8)
def gdt32BitCodeSegment : UInt64 := bit 22 ||| gdtCodeOrDataSegment ||| ((11 : UInt64) <<< 8)
def gdtGranularity : UInt64 := bit 23
def gdt32BitDataSegment : UInt64 := gdtCodeOrDataSegment ||| ((3 : UInt64) <<< 8)
def gdtTssAvailable : UInt64 := (9 : UInt64) <<< 8

def gdtUserCodeSegment : CpuMode → UInt64
  | .mode64 => gdt64BitCodeSegment
  | .mode32 => gdt32BitCodeSegment
  | .mode16 => gdt16BitCodeSegment

/-- `struct tss`, packed. -/
structure Tss where
  reserved0 : UInt32
  rsp0 : UInt64
  rsp1 : UInt64
  rsp2 : UInt64
  reserved1 : UInt64
  ist1 : UInt64
  ist2 : UInt64
  ist3 : UInt64
  ist4 : UInt64
  ist5 : UInt64
  ist6 : UInt64
  ist7 : UInt64
  reserved2 : UInt64
  reserved3 : UInt16
  ioMapBaseAddress : UInt16

def sizeofTss : Nat := 104

def Tss.bytes (t : Tss) : List UInt8 :=
  littleEndianBytes 4 t.reserved0.toNat ++ (littleEndianBytes 8 t.rsp0.toNat ++
    ([t.rsp1, t.rsp2, t.reserved1, t.ist1, t.ist2, t.ist3, t.ist4, t.ist5, t.ist6, t.ist7,
      t.reserved2].flatMap (fun word => littleEndianBytes 8 word.toNat) ++
    (littleEndianBytes 2 t.reserved3.toNat ++ littleEndianBytes 2 t.ioMapBaseAddress.toNat)))

def Tss.initial : Tss :=
  ⟨0, 0, 0, 0, 0, 0, 0, 0, 0, 0, 0, 0, 0, 0, UInt16.ofNat (sizeofTss - 1)⟩

def setTssRsp0 (newValue : UInt64) (t : Tss) : Tss := { t with rsp0 := newValue }

/-- An entry of `gdt`, an array of two `uint32_t`. -/
structure GdtEntry where
  low : UInt32
  high : UInt32

def GdtEntry.bytes (e : GdtEntry) : List UInt8 :=
  littleEndianBytes 4 e.low.toNat ++ littleEndianBytes 4 e.high.toNat

/-- A row `{ 0xffff, (0xfULL << 16) | GDT_PRESENT | ... | GDT_GRANULARITY }`. -/
def flatSegment (flags : UInt64) : GdtEntry :=
  ⟨0xffff, (((0xf : UInt64) <<< 16) ||| gdtPresent ||| flags ||| gdtGranularity).toUInt32⟩

/-- The rows 5 and 6, which describe the task state segment. -/
def tssDescriptor (tssBase : UInt64) : GdtEntry × GdtEntry :=
  let gdtEntry1 := gdtPresent ||| gdtTssAvailable
  let gdtEntry1 := gdtEntry1 ||| ((tssBase >>> 16) &&& 0xff)
  let gdtEntry1 := gdtEntry1 ||| (tssBase &&& 0xff000000)
  let limit : UInt64 := UInt64.ofNat (sizeofTss - 1) &&& 0xffff
  (⟨(limit ||| ((tssBase &&& 0xffff) <<< (16 : UInt64))).toUInt32, gdtEntry1.toUInt32⟩,
    ⟨(tssBase >>> 32).toUInt32, 0⟩)

/-- `gdt` when `setup_gdt` has filled in the last two rows. -/
def setupGdt (mode : CpuMode) (tssBase : UInt64) : List GdtEntry :=
  [⟨0, 0⟩, flatSegment gdt64BitCodeSegment, flatSegment gdt32BitDataSegment,
    flatSegment (gdtUserCodeSegment mode ||| gdtDpl3),
    flatSegment (gdt32BitDataSegment ||| gdtDpl3),
    (tssDescriptor tssBase).1, (tssDescriptor tssBase).2]

def idtPresent : UInt64 := bit 15
def idtDpl3 : UInt64 := (3 : UInt64) <<< 13
def idtTrapGate : UInt64 := (0xf : UInt64) <<< 8

/-- `struct idt_entry`, packed. -/
structure IdtEntry where
  offsetLow : UInt16
  segmentSelector : UInt16
  flags : UInt16
  offsetMiddle : UInt16
  offsetHigh : UInt32
  reserved : UInt32

def IdtEntry.bytes (e : IdtEntry) : List UInt8 :=
  littleEndianBytes 2 e.offsetLow.toNat ++ (littleEndianBytes 2 e.segmentSelector.toNat ++
    (littleEndianBytes 2 e.flags.toNat ++ (littleEndianBytes 2 e.offsetMiddle.toNat ++
      (littleEndianBytes 4 e.offsetHigh.toNat ++ littleEndianBytes 4 e.reserved.toNat))))

/-- One round of the loop of `setup_idt`. -/
def idtEntry (i : Nat) (ptr : UInt64) : IdtEntry where
  offsetLow := (ptr &&& 0xffff).toUInt16
  segmentSelector := 0x8
  flags := (if i = 3 then idtPresent ||| idtTrapGate ||| idtDpl3
    else idtPresent ||| idtTrapGate).toUInt16
  offsetMiddle := ((ptr >>> 16) &&& 0xffff).toUInt16
  offsetHigh := (ptr >>> 32).toUInt32
  reserved := 0

def setupIdt (exceptionHandlers : Fin 22 → UInt64) : List IdtEntry :=
  List.ofFn fun i => idtEntry i (exceptionHandlers i)

/-! What `lgdt`, `lidt` and `ltr` make the processor read. -/

structure DescriptorTables where
  gdt : List UInt8
  gdtLimit : Nat
  idt : List UInt8
  idtLimit : Nat
  tss : List UInt8

def descriptorTables (mode : CpuMode) (tssBase : UInt64) (tss : Tss)
    (exceptionHandlers : Fin 22 → UInt64) : DescriptorTables where
  gdt := (setupGdt mode tssBase).flatMap GdtEntry.bytes
  gdtLimit := 7 * 8 - 1
  idt := (setupIdt exceptionHandlers).flatMap IdtEntry.bytes
  idtLimit := 22 * 16 - 1
  tss := tss.bytes

def tableField (table : List UInt8) (start count : Nat) : Nat :=
  littleEndian ((table.drop start).take count)

/-- A segment descriptor, with the four type bits as a number. -/
structure Segment where
  base : Nat
  limit : Nat
  type : Nat
  codeOrData : Bool
  dpl : Nat
  present : Bool
  long : Bool
  default32 : Bool
  granularity : Bool
  deriving DecidableEq, Repr

def decodeSegment (n : Nat) : Segment where
  base := bitField n 16 24 + 2 ^ 24 * bitField n 56 8
  limit := bitField n 0 16 + 2 ^ 16 * bitField n 48 4
  type := bitField n 40 4
  codeOrData := bitField n 44 1 == 1
  dpl := bitField n 45 2
  present := bitField n 47 1 == 1
  long := bitField n 53 1 == 1
  default32 := bitField n 54 1 == 1
  granularity := bitField n 55 1 == 1

namespace Segment

def isCode (s : Segment) : Bool := s.codeOrData && bitField s.type 3 1 == 1
def isConforming (s : Segment) : Bool := bitField s.type 2 1 == 1
def isWritableData (s : Segment) : Bool :=
  s.codeOrData && bitField s.type 3 1 == 0 && bitField s.type 1 1 == 1

def lastByte (s : Segment) : Nat := if s.granularity then s.limit * 2 ^ 12 + 0xfff else s.limit

end Segment

/-- A selector names a descriptor of the GDT that lies within its limit. There is no LDT. -/
def DescriptorTables.descriptor (t : DescriptorTables) (selector : UInt64) : Option Nat :=
  let index := bitField selector.toNat 3 13
  if index ≠ 0 ∧ bitField selector.toNat 2 1 = 0 ∧ 8 * index + 7 ≤ t.gdtLimit then
    some (tableField t.gdt (8 * index) 8)
  else none

def DescriptorTables.segment (t : DescriptorTables) (selector : UInt64) : Option Segment :=
  (t.descriptor selector).map decodeSegment

def rpl (selector : UInt64) : Nat := bitField selector.toNat 0 2

/-- Far returns to a code segment, to the same or to an outer level. -/
def DescriptorTables.returnsTo (t : DescriptorTables) (cpl : Nat) (selector : UInt64) : Bool :=
  match t.segment selector with
  | none => false
  | some s => s.isCode && s.present && decide (cpl ≤ rpl selector) &&
      (if s.isConforming then decide (s.dpl ≤ rpl selector) else s.dpl == rpl selector) &&
      !(s.long && s.default32)

def DescriptorTables.loadsStack (t : DescriptorTables) (cpl : Nat) (selector : UInt64) : Bool :=
  match t.segment selector with
  | none => false
  | some s => s.isWritableData && s.present && s.dpl == cpl && rpl selector == cpl

def DescriptorTables.loadsData (t : DescriptorTables) (cpl : Nat) (selector : UInt64) : Bool :=
  match t.segment selector with
  | none => false
  | some s => s.codeOrData && s.present && (!s.isCode || bitField s.type 1 1 == 1) &&
      (s.isCode && s.isConforming || decide (max cpl (rpl selector) ≤ s.dpl))

/-- The segment `ltr` loads: an available TSS of 16 bytes of descriptor. -/
def DescriptorTables.loadsTask (t : DescriptorTables) (selector : UInt64) :
    Option (Segment × Nat) :=
  match t.segment selector with
  | none => none
  | some s =>
    if s.type = 9 ∧ s.codeOrData = false ∧ s.present = true ∧
        8 * bitField selector.toNat 3 13 + 15 ≤ t.gdtLimit then
      some (s, s.base + 2 ^ 32 * tableField t.gdt (8 * bitField selector.toNat 3 13 + 8) 4)
    else none

/-- `load_segments`, at level 0: the far return, the five moves and `ltr`. The result is the
task segment with its address, and there is none when one of the checks fails. -/
def DescriptorTables.loadSegments (t : DescriptorTables)
    (codeSegment stackSegment taskSegment : UInt64) : Option (Segment × Nat) :=
  if t.returnsTo 0 codeSegment && t.loadsData 0 stackSegment && t.loadsStack 0 stackSegment then
    t.loadsTask taskSegment
  else none

structure Gate where
  offset : Nat
  selector : UInt64
  ist : Nat
  type : Nat
  dpl : Nat
  present : Bool
  deriving DecidableEq, Repr

def decodeGate (n : Nat) : Gate where
  offset := bitField n 0 16 + 2 ^ 16 * bitField n 48 16 + 2 ^ 32 * bitField n 64 32
  selector := UInt64.ofNat (bitField n 16 16)
  ist := bitField n 32 3
  type := bitField n 40 4
  dpl := bitField n 45 2
  present := bitField n 47 1 == 1

def DescriptorTables.gate (t : DescriptorTables) (vector : Nat) : Option Gate :=
  if 16 * vector + 15 ≤ t.idtLimit then some (decodeGate (tableField t.idt (16 * vector) 16))
  else none

/-- The code segment a gate leads to is a present 64-bit one of level 0. -/
def DescriptorTables.gateCode (t : DescriptorTables) (g : Gate) : Bool :=
  match t.segment g.selector with
  | none => false
  | some s => s.isCode && s.present && s.dpl == 0 && s.long && !s.default32

/-- Where an exception of the processor goes on, at level 0. -/
def DescriptorTables.exceptionTarget (t : DescriptorTables) (vector : Nat) : Option UInt64 :=
  match t.gate vector with
  | none => none
  | some g =>
    if g.present ∧ g.type = 15 ∧ g.ist = 0 ∧ t.gateCode g then some (UInt64.ofNat g.offset)
    else none

/-- The vector and the error code of `int n` at a privilege level: the gate's level is
checked, and a fault names the gate. -/
def DescriptorTables.softwareInterrupt (t : DescriptorTables) (cpl n : Nat) :
    Nat × Option Nat :=
  match t.gate n with
  | none => (13, some (8 * n + 2))
  | some g =>
    if g.dpl < cpl then (13, some (8 * n + 2))
    else if !g.present then (11, some (8 * n + 2))
    else (n, none)

/-- The stack for level 0, which the processor reads in the task state segment. -/
def DescriptorTables.rsp0 (t : DescriptorTables) : UInt64 := UInt64.ofNat (tableField t.tss 4 8)

/-- Access to an I/O port at level 3 with an I/O privilege level of 0: two bytes of the
bitmap are read, and both must lie within the segment. -/
def DescriptorTables.portAllowed (t : DescriptorTables) (taskLimit : Nat) (port : UInt16) : Bool :=
  let place := tableField t.tss 102 2 + port.toNat / 8
  decide (place + 1 ≤ taskLimit) && bitField (tableField t.tss place 2) (port.toNat % 8) 1 == 0

end PmcBruteforce
