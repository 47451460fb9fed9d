import PmcBruteforce.Machine.Refinement
import PmcBruteforce.Remap.UserCodePage

/-! `efi_main` up to its call of `execute_ud`: what it asks of CPUID and of the firmware, the
privileged instructions with the checks of the processor, and the ways out of it. -/
namespace PmcBruteforce

open Library

/-- The leaves of CPUID that are read, and three features that are taken for granted. -/
structure Cpuid where
  vendor : UInt32 × UInt32 × UInt32
  signature : UInt32
  features : UInt32
  performance : UInt32
  xcr0Supported : UInt64
  xsaveSize : UInt32
  hasXsave : Bool
  hasNoExecute : Bool

/-! uarch_config.c -/

structure CpuFamilyModelInfo where
  family : UInt16
  model : UInt16

structure UarchConfig (b : Build) where
  cpuModels : List CpuFamilyModelInfo
  perfCounters : EventSelectors b

def skylakeCpuModels : List CpuFamilyModelInfo :=
  [⟨6, 0x4e⟩, ⟨6, 0x5e⟩, ⟨6, 0x8e⟩, ⟨6, 0x9e⟩, ⟨6, 0xa5⟩, ⟨6, 0xa6⟩]

def skylakeSelectors (b : Build) : List UInt16 :=
  [0x010e] ++ (if b.countRetired then [0x01c2, 0x02c2] else []) ++
    (if b.countNops then [0x02c0] else []) ++
    (if b.countIdq then [0x0479, 0x0879, 0x2079] else [])

def intelUarchConfigs (b : Build) : List (UarchConfig b) :=
  [⟨skylakeCpuModels, fun i => (skylakeSelectors b).getD i 0⟩]

def getUarchConfigForIntelCpu (b : Build) (eax : UInt32) : Option (UarchConfig b) :=
  let model := (eax >>> 4).toUInt16 &&& 0xf
  let family := (eax >>> 8).toUInt16 &&& 0xf
  let model := if family = 0x6 ∨ family = 0xf then model ||| (eax >>> 12).toUInt16 &&& 0xf0
    else model
  let family := if family = 0xf then family + ((eax >>> 20).toUInt16 &&& 0xff) else family
  (intelUarchConfigs b).find? fun curUarch =>
    curUarch.cpuModels.any fun curInfo => family == curInfo.family && model == curInfo.model

/-- `GenuineIntel`, in the order ebx, ecx, edx. -/
def vendorIntel : UInt32 × UInt32 × UInt32 := (0x756e6547, 0x6c65746e, 0x49656e69)

def getUarchConfigForCpu (b : Build) (hw : Cpuid) : Option (UarchConfig b) :=
  if hw.vendor = vendorIntel then getUarchConfigForIntelCpu b hw.signature else none

/-! The processor while efi_main runs. -/

/-- The tables are none as long as they are the firmware's. `allocated` holds what the firmware
has given away and not got back. -/
structure MainState where
  cpu : Cpu
  msrs : Msrs
  cr8 : UInt64
  paging : Paging
  tables : Option DescriptorTables
  allocated : List (UInt64 × UInt64)

def cr4Mce : BitVec 64 := BitVec.twoPow 64 6
def cr4Osfxsr : BitVec 64 := BitVec.twoPow 64 9
def cr4Osxmmexcpt : BitVec 64 := BitVec.twoPow 64 10
def cr4Osxsave : BitVec 64 := BitVec.twoPow 64 18

def cpuid01EdxMce : UInt32 := 0x80
def cpuid01EdxMca : UInt32 := 0x4000
def mcgCapMcgCtlP : UInt64 := bit 8

def msrIa32McgCtl : UInt32 := 0x17b
def msrIa32Mc0Ctl : Nat := 0x400
def msrIa32Mc0Status : Nat := 0x401
def msrIa32Efer : UInt32 := 0xc0000080
def eferNxe : UInt64 := bit 11

namespace Cpuid

def hasMce (hw : Cpuid) : Bool := hw.features &&& cpuid01EdxMce != 0
def hasMca (hw : Cpuid) : Bool := hw.features &&& cpuid01EdxMca != 0
def perfVersion (hw : Cpuid) : Nat := bitField hw.performance.toNat 0 8
def countersAvailable (hw : Cpuid) : Nat := bitField hw.performance.toNat 8 8

/-- The writes of model-specific registers that do not fault, among those the program makes:
the register exists, and a bank's status is only ever cleared. -/
def acceptsMsr (hw : Cpuid) (mcgCap : UInt64) (msr : UInt32) (value : UInt64) : Bool :=
  (msr == msrIa32Efer && (value &&& eferNxe == 0 || hw.hasNoExecute)) ||
  ((msr == msrIa32FixedCtrCtrl || msr == msrIa32PerfGlobalCtrl) && decide (2 ≤ hw.perfVersion)) ||
  ((List.range hw.countersAvailable).any fun i => msr == msrIa32Perfevtsel i) ||
  (hw.hasMca && ((msr == msrIa32McgCtl && mcgCap &&& mcgCapMcgCtlP != 0) ||
    (List.range (mcgCap &&& 0xff).toNat).any fun i =>
      msr == msrBank msrIa32Mc0Ctl i || (msr == msrBank msrIa32Mc0Status i && value == 0)))

/-- The sets of components `xsetbv` takes: those there are, x87 always, AVX only with SSE, both
halves of MPX or none, and AVX-512 as a whole with AVX. -/
def acceptsXcr0 (hw : Cpuid) (value : UInt64) : Bool :=
  value &&& ~~~hw.xcr0Supported == 0 && componentBit value 0 &&
    (!componentBit value 2 || componentBit value 1) &&
    componentBit value 3 == componentBit value 4 &&
    componentBit value 5 == componentBit value 6 && componentBit value 5 == componentBit value 7 &&
    (!componentBit value 5 || componentBit value 2)

end Cpuid

namespace MainState

def writeMsr (hw : Cpuid) (m : MainState) (write : UInt32 × UInt64) : Option MainState :=
  if hw.acceptsMsr (m.msrs msrIa32McgCap) write.1 write.2 then
    some { m with msrs := wrmsr write.1 write.2 m.msrs }
  else none

def writeMsrs (hw : Cpuid) (m : MainState) : List (UInt32 × UInt64) → Option MainState
  | [] => some m
  | write :: writes => (m.writeMsr hw write).bind fun m => m.writeMsrs hw writes

/-- Setting a bit of CR4 that the processor lacks faults. -/
def writeCr4 (hw : Cpuid) (m : MainState) (value : BitVec 64) : Option MainState :=
  if (has value cr4Osxsave && !has m.paging.cr4 cr4Osxsave && !hw.hasXsave) ||
      (has value cr4Mce && !has m.paging.cr4 cr4Mce && !hw.hasMce) then none
  else some { m with paging := { m.paging with cr4 := value } }

def xsetbv (hw : Cpuid) (m : MainState) (value : UInt64) : Option MainState :=
  if has m.paging.cr4 cr4Osxsave && hw.acceptsXcr0 value then
    some { m with cpu := { m.cpu with xcr0 := value } }
  else none

/-- `xrstor`, with what the compiler has left in the registers. -/
def xrstor (p : Processor) (register : Register → UInt64) (area : UInt64) (m : MainState) :
    Option MainState :=
  if has m.paging.cr4 cr4Osxsave then
    (xrstorArea p { m.cpu with register := register } area).map fun cpu => { m with cpu := cpu }
  else none

def allocate (m : MainState) (answer : EfiStatus × UInt64) (size : UInt64) :
    EfiStatus × MainState :=
  if answer.1 = efiSuccess then (answer.1, { m with allocated := (answer.2, size) :: m.allocated })
  else (answer.1, m)

def free (m : MainState) (address size : UInt64) : MainState :=
  { m with allocated := m.allocated.erase (address, size) }

def setMem (m : MainState) (address : UInt64) (size : Nat) : MainState :=
  { m with cpu := { m.cpu with
      memory := m.cpu.memory.writeBytes address (List.replicate size 0) } }

end MainState

/-! main.c -/

variable {b : Build}

/-- The writes of `init_perf_counters` in their order. -/
def perfCounterWrites (selectors : EventSelectors b) : List (UInt32 × UInt64) :=
  (msrIa32FixedCtrCtrl, 0) :: (msrIa32PerfGlobalCtrl, 0) ::
    (List.range b.perfEventsCount).map fun i => (msrIa32Perfevtsel i, selectorValue selectors i)

def MainState.initPerfCounters (hw : Cpuid) (m : MainState) (selectors : EventSelectors b) :
    Option (EfiStatus × MainState) :=
  let result := PmcBruteforce.initPerfCounters selectors hw.performance m.msrs
  if result.1 ≠ efiSuccess then some (result.1, { m with msrs := result.2 })
  else (m.writeMsrs hw (perfCounterWrites selectors)).map fun m => (result.1, m)

/-- The writes that enable the machine-check banks and clear them. -/
def machineCheckWrites (mcgCap : UInt64) : List (UInt32 × UInt64) :=
  (if mcgCap &&& mcgCapMcgCtlP != 0 then [(msrIa32McgCtl, ~~~0)] else []) ++
    (List.range (mcgCap &&& mcgCapReportingBanksCountMask).toNat).flatMap fun i =>
      [(msrBank msrIa32Mc0Ctl i, ~~~0), (msrBank msrIa32Mc0Status i, 0)]

/-- From the read of CR4 to `xsetbv`. -/
def prepareProcessor (hw : Cpuid) (m : MainState) : Option MainState :=
  let cr4 := m.paging.cr4 ||| cr4Osxsave ||| cr4Osxmmexcpt ||| cr4Osfxsr
  let enabled :=
    if hw.hasMce then
      if hw.hasMca then
        (m.writeMsrs hw (machineCheckWrites (m.msrs msrIa32McgCap))).map fun m => (cr4 ||| cr4Mce, m)
      else some (cr4 ||| cr4Mce, m)
    else some (cr4, m)
  enabled.bind fun (cr4, m) => (m.writeCr4 hw cr4).bind fun m => m.xsetbv hw hw.xcr0Supported

/-- What the firmware answers. -/
structure BootAnswers where
  kernelStackPages : EfiStatus × UInt64
  userCodePage : EfiStatus × UInt64
  xsaveStateArea : EfiStatus × UInt64
  saveFile : Firmware
  tablePages : PageAllocator

/-- What the compiler, the linker and the loader decide: where `tss` and the stubs are, the
firmware's stack, and the registers and the bytes of that stack where they matter. -/
structure Image where
  tssBase : UInt64
  exceptionHandlers : Fin 22 → UInt64
  saveRegsOnException : Bool
  componentOffset : Nat → UInt64
  componentSize : Nat → Nat
  stackBase : UInt64
  stackSize : Nat
  atXrstor : Register → UInt64
  atExecuteUd : Register → UInt64
  stackBytes : ByteMemory

/-- The byte of a page table at an address. -/
def tableByte (s : Paging) (x : UInt64) : UInt8 :=
  let entry := s.tables (x.toBitVec &&& ~~~0xfff#64) (Fin.ofNat 512 (x.toNat / 8))
  UInt8.ofNat (bitField entry.toNat (8 * (x.toNat % 8)) 8)

/-- Where an entry has changed the memory holds the new one. -/
def storeTables (s s' : Paging) (m : ByteMemory) : ByteMemory := fun x =>
  let table := x.toBitVec &&& ~~~0xfff#64
  let i := Fin.ofNat 512 (x.toNat / 8)
  if s'.tables table i = s.tables table i then m x else tableByte s' x

inductive MainOutcome (b : Build) where
  | returned (status : EfiStatus) (m : MainState)
  | halted (m : MainState)
  | executesUd (k : Kernel b) (f : SaveFile) (m : MainState)
  | fault

/-- From `cli` on. -/
def enterSearch (hw : Cpuid) (answers : BootAnswers) (image : Image) (k : Kernel b)
    (f : SaveFile) (m : MainState) : MainOutcome b :=
  let m := { m with
    cpu := { m.cpu with rflags := m.cpu.rflags &&& ~~~flagIf }
    cr8 := 0xf }
  match remapUserCodePage answers.tablePages k.userCodePageRw.toBitVec m.paging with
  | none => .fault
  | some (status, paging) =>
    let m := { m with
      cpu := { m.cpu with memory := storeTables m.paging paging m.cpu.memory }
      paging := paging }
    if status ≠ efiSuccess then .halted m
    else
      let tables := k.processor.tables
      match tables.loadSegments 0x8 0x10 0x28 with
      | none => .fault
      | some _ =>
        let m := { m with tables := some tables }
        match m.writeMsr hw (msrIa32Efer, m.msrs msrIa32Efer ||| eferNxe) with
        | none => .fault
        | some m =>
          let memory : ByteMemory := fun x =>
            if (x - image.stackBase).toNat < image.stackSize then image.stackBytes x
            else m.cpu.memory x
          .executesUd k f { m with cpu := { m.cpu with
            register := image.atExecuteUd
            memory := memory } }

/-- From SetMem on, where there is no way to return any more. -/
def efiMainNoReturn (hw : Cpuid) (answers : BootAnswers) (image : Image) (p : Platform)
    (selectors : EventSelectors b) (kernelStackPages userCodePageRw : UInt64) (m : MainState) :
    MainOutcome b :=
  let m := m.setMem userCodePageRw (2 * 0x1000)
  match prepareProcessor hw m with
  | none => .fault
  | some m =>
    let size := hw.xsaveSize + 0x40
    let (status, m) := m.allocate answers.xsaveStateArea size.toUInt64
    if status ≠ efiSuccess then .halted m
    else
      let m := m.setMem answers.xsaveStateArea.2 size.toNat
      let area := (answers.xsaveStateArea.2 + 0x40 - 1) &&& ~~~0x3f
      let processor : Processor := {
        tables := descriptorTables b.cpuMode image.tssBase
          (setTssRsp0 (kernelStackPages + 0x2000) Tss.initial) image.exceptionHandlers
        componentOffset := image.componentOffset
        componentSize := image.componentSize }
      match m.xrstor processor image.atXrstor area with
      | none => .fault
      | some m =>
        let opened := openSaveFile b p answers.saveFile
        if opened.status ≠ efiSuccess then .halted m
        else
          enterSearch hw answers image
            { processor := processor
              platform := { p with userCodePageForExec := userCodePageRw + 0x1000 }
              selectors := selectors
              saveRegsOnException := image.saveRegsOnException
              kernelStackPages := kernelStackPages
              userCodePageRw := userCodePageRw
              xsaveStateAreaPtr := area }
            opened.saveFile m

def efiMainToExecuteUd (b : Build) (hw : Cpuid) (answers : BootAnswers) (image : Image)
    (p : Platform) (m : MainState) : MainOutcome b :=
  match getUarchConfigForCpu b hw with
  | none => .returned efiUnsupported m
  | some uarchConfig =>
    match m.initPerfCounters hw uarchConfig.perfCounters with
    | none => .fault
    | some (status, m) =>
      if status ≠ efiSuccess then .returned status m
      else
        let (status, m) := m.allocate answers.kernelStackPages 0x2000
        if status ≠ efiSuccess then .returned status m
        else
          let (status, m) := m.allocate answers.userCodePage 0x2000
          if status ≠ efiSuccess then .returned status (m.free answers.kernelStackPages.2 0x2000)
          else
            efiMainNoReturn hw answers image p uarchConfig.perfCounters answers.kernelStackPages.2
              answers.userCodePage.2 m

end PmcBruteforce
