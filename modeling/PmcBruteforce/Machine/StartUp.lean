import PmcBruteforce.Machine.EfiMain

/-! What `efi_main` does with the machine. On hardware and firmware that keep their promises
none of its instructions faults, the ways back to the firmware leave nothing behind but
the setting of the counters, and the call of `execute_ud` finds what a run needs. -/
namespace PmcBruteforce

open Library

variable {b : Build}

/-! The choice of the microarchitecture -/

theorem low_nibble (x : UInt32) (k : UInt32) (small : k.toNat < 32) :
    ((x >>> k).toUInt16 &&& 0xf).toNat = bitField x.toNat k.toNat 4 := by
  have masked : ∀ n : Nat, n &&& 15 = n % 16 := fun n => Nat.and_two_pow_sub_one_eq_mod n 4
  rw [UInt16.toNat_and, UInt32.toNat_toUInt16, UInt32.toNat_shiftRight, Nat.mod_eq_of_lt small,
    Nat.shiftRight_eq_div_pow, bitField]
  exact (masked _).trans (by omega)

/-- The family and the model the program compares. -/
theorem signature_fields (eax : UInt32) :
    let model := (eax >>> 4).toUInt16 &&& 0xf
    let family := (eax >>> 8).toUInt16 &&& 0xf
    model.toNat = bitField eax.toNat 4 4 ∧ family.toNat = bitField eax.toNat 8 4 ∧
      (model ||| (eax >>> 12).toUInt16 &&& 0xf0).toNat =
        bitField eax.toNat 4 4 + 16 * bitField eax.toNat 16 4 := by
  intro model family
  have first : model.toNat = bitField eax.toNat 4 4 := low_nibble eax 4 (by decide)
  have second : family.toNat = bitField eax.toNat 8 4 := low_nibble eax 8 (by decide)
  refine ⟨first, second, ?_⟩
  have low := bitField_lt eax.toNat 4 4
  have high : ((eax >>> 12).toUInt16 &&& 0xf0).toNat = 2 ^ 4 * bitField eax.toNat 16 4 := by
    have mask : (0xf0 : UInt16).toNat = 2 ^ 4 * (2 ^ 4 - 1) := by decide
    have twelve : (12 : UInt32).toNat % 32 = 12 := by decide
    rw [UInt16.toNat_and, mask, and_mask, UInt32.toNat_toUInt16, UInt32.toNat_shiftRight, twelve,
      Nat.shiftRight_eq_div_pow]
    simp only [bitField]
    omega
  rw [UInt16.toNat_or, first, high, or_field low]
  rfl

/-- A family field other than 6 is not 6 once the extended family is added. -/
theorem extended_family {family ext : UInt16} (other : family ≠ 6) :
    (if family = 0xf then family + (ext &&& 0xff) else family) ≠ 6 := by
  split
  · rename_i fifteen
    intro same
    have number := congrArg UInt16.toNat same
    have small : (ext &&& 0xff).toNat ≤ 255 := by
      rw [UInt16.toNat_and]
      exact Nat.and_le_right
    rw [fifteen, UInt16.toNat_add] at number
    simp only [UInt16.reduceToNat] at number
    omega
  · exact other

/-- The processors with a configuration: Intel's with the family field 6 and one of six models,
whatever their stepping, type and extended family are. -/
theorem uarch_config_iff (b : Build) (hw : Cpuid) :
    (getUarchConfigForCpu b hw).isSome = true ↔
      hw.vendor = vendorIntel ∧ bitField hw.signature.toNat 8 4 = 6 ∧
        bitField hw.signature.toNat 4 4 + 16 * bitField hw.signature.toNat 16 4 ∈
          [0x4e, 0x5e, 0x8e, 0x9e, 0xa5, 0xa6] := by
  obtain ⟨-, family, model⟩ := signature_fields hw.signature
  have equal : ∀ x y : UInt16, x = y ↔ x.toNat = y.toNat := fun x y => UInt16.toNat_inj.symm
  rw [getUarchConfigForCpu]
  by_cases vendor : hw.vendor = vendorIntel
  · rw [if_pos vendor, getUarchConfigForIntelCpu]
    simp only [List.find?_isSome, intelUarchConfigs, List.mem_singleton, exists_eq_left,
      List.any_eq_true, Bool.and_eq_true, beq_iff_eq, vendor, true_and]
    by_cases six : bitField hw.signature.toNat 8 4 = 6
    · have here : (hw.signature >>> 8).toUInt16 &&& 0xf = 6 := by
        rw [equal, family, six]
        rfl
      have other : ¬ (6 : UInt16) = 0xf := by decide
      simp only [here, true_or, if_true, if_neg other, skylakeCpuModels, List.mem_cons,
        List.not_mem_nil, or_false, exists_eq_or_imp, exists_eq_left, true_and, six]
      simp only [equal, model]
      rfl
    · have other : (hw.signature >>> 8).toUInt16 &&& 0xf ≠ 6 := by
        rw [ne_eq, equal, family]
        exact six
      have never := @extended_family _ (hw.signature >>> 20).toUInt16 other
      simp only [six, false_and, iff_false]
      rintro ⟨info, member, same, -⟩
      have listed : info.family = 6 := by
        simp only [skylakeCpuModels, List.mem_cons, List.not_mem_nil, or_false] at member
        rcases member with rfl | rfl | rfl | rfl | rfl | rfl <;> rfl
      exact never (same.trans listed)
  · simp [vendor]

/-! Writes of model-specific registers -/

def wrmsrList (writes : List (UInt32 × UInt64)) (msrs : Msrs) : Msrs :=
  writes.foldl (fun msrs write => wrmsr write.1 write.2 msrs) msrs

theorem wrmsrList_other {writes : List (UInt32 × UInt64)} {x : UInt32}
    (other : ∀ write ∈ writes, write.1 ≠ x) (msrs : Msrs) : wrmsrList writes msrs x = msrs x := by
  induction writes generalizing msrs with
  | nil => rfl
  | cons write writes ih =>
    have here : x ≠ write.1 := (other write List.mem_cons_self).symm
    have later := ih (fun w member => other w (List.mem_cons_of_mem _ member))
      (wrmsr write.1 write.2 msrs)
    have first : wrmsr write.1 write.2 msrs x = msrs x := if_neg here
    exact later.trans first

/-- A register whose writes all agree holds what was written. -/
theorem wrmsrList_written {writes : List (UInt32 × UInt64)} {x : UInt32} {value : UInt64}
    (written : (x, value) ∈ writes) (agree : ∀ write ∈ writes, write.1 = x → write.2 = value)
    (msrs : Msrs) : wrmsrList writes msrs x = value := by
  induction writes generalizing msrs with
  | nil => cases written
  | cons write writes ih =>
    have agree' : ∀ w ∈ writes, w.1 = x → w.2 = value := fun w member =>
      agree w (List.mem_cons_of_mem _ member)
    by_cases later : (x, value) ∈ writes
    · exact ih later agree' _
    · have here : (x, value) = write := (List.mem_cons.mp written).resolve_right later
      have other : ∀ w ∈ writes, w.1 ≠ x := by
        intro w member same
        apply later
        rw [← same, ← agree' w member same]
        exact member
      have kept := wrmsrList_other other (wrmsr write.1 write.2 msrs)
      rw [← here] at kept
      have first : wrmsr x value msrs x = value := if_pos rfl
      have all : wrmsrList (write :: writes) msrs = wrmsrList writes (wrmsr x value msrs) := by
        rw [← here]
        rfl
      rw [all, kept, first]

/-- Writes the processor accepts, none of them of the register that says how many banks
there are. -/
theorem writeMsrs_accepted (hw : Cpuid) {m : MainState} {writes : List (UInt32 × UInt64)}
    (accepted : ∀ write ∈ writes,
      hw.acceptsMsr (m.msrs msrIa32McgCap) write.1 write.2 = true ∧ write.1 ≠ msrIa32McgCap) :
    m.writeMsrs hw writes = some { m with msrs := wrmsrList writes m.msrs } := by
  induction writes generalizing m with
  | nil => rfl
  | cons write writes ih =>
    obtain ⟨here, other⟩ := accepted write List.mem_cons_self
    have cap : wrmsr write.1 write.2 m.msrs msrIa32McgCap = m.msrs msrIa32McgCap := if_neg other.symm
    have later := ih (m := { m with msrs := wrmsr write.1 write.2 m.msrs }) (by
      intro w member
      simp only [cap]
      exact accepted w (List.mem_cons_of_mem _ member))
    rw [MainState.writeMsrs, MainState.writeMsr, if_pos here, Option.bind_some, later]
    rfl

theorem initPerfCounters_writes {selectors : EventSelectors b} {eax : UInt32} {msrs : Msrs}
    (success : (initPerfCounters selectors eax msrs).1 = efiSuccess) :
    (initPerfCounters selectors eax msrs).2 = wrmsrList (perfCounterWrites selectors) msrs := by
  unfold initPerfCounters at success ⊢
  by_cases enough : b.perfEventsCount > bitField eax.toNat 8 8
  · have failed : efiUnsupported = efiSuccess := by simpa only [if_pos enough] using success
    exact absurd failed (by decide)
  · simp only [if_neg enough]
    simp only [wrmsrList, perfCounterWrites, List.foldl_cons, List.foldl_map, wrmsrAll]

theorem initPerfCounters_refused {selectors : EventSelectors b} {eax : UInt32} {msrs : Msrs}
    (failed : (initPerfCounters selectors eax msrs).1 ≠ efiSuccess) :
    initPerfCounters selectors eax msrs = (efiUnsupported, msrs) := by
  unfold initPerfCounters at failed ⊢
  by_cases enough : b.perfEventsCount > bitField eax.toNat 8 8
  · simp only [if_pos enough]
  · simp only [if_neg enough] at failed
    exact absurd rfl failed

theorem initPerfCounters_available {selectors : EventSelectors b} {eax : UInt32} {msrs : Msrs}
    (success : (initPerfCounters selectors eax msrs).1 = efiSuccess) :
    b.perfEventsCount ≤ bitField eax.toNat 8 8 := by
  unfold initPerfCounters at success
  by_cases enough : b.perfEventsCount > bitField eax.toNat 8 8
  · have failed : efiUnsupported = efiSuccess := by simpa only [if_pos enough] using success
    exact absurd failed (by decide)
  · exact Nat.not_lt.mp enough

theorem perfCounterWrites_configuration (selectors : EventSelectors b) :
    ∀ write ∈ perfCounterWrites selectors, isConfiguration b write.1 = true := by
  intro write member
  simp only [perfCounterWrites, List.mem_cons, List.mem_map] at member
  simp only [isConfiguration, Bool.or_eq_true, List.any_eq_true, beq_iff_eq]
  rcases member with rfl | rfl | ⟨i, inside, rfl⟩
  · exact .inl (.inl rfl)
  · exact .inl (.inr rfl)
  · exact .inr ⟨i, inside, rfl⟩

section

variable {hw : Cpuid} {mcgCap : UInt64}

theorem accepts_counters (enough : b.perfEventsCount ≤ hw.countersAvailable)
    (version : 2 ≤ hw.perfVersion) (selectors : EventSelectors b) :
    ∀ write ∈ perfCounterWrites selectors,
      hw.acceptsMsr mcgCap write.1 write.2 = true ∧ write.1 ≠ msrIa32McgCap := by
  have few := b.perf_events_count_le
  intro write member
  simp only [perfCounterWrites, List.mem_cons, List.mem_map, List.mem_range] at member
  rcases member with rfl | rfl | ⟨i, inside, rfl⟩
  · exact ⟨by simp [Cpuid.acceptsMsr, version], by decide⟩
  · exact ⟨by simp [Cpuid.acceptsMsr, version], by decide⟩
  · constructor
    · have listed : ((List.range hw.countersAvailable).any fun k =>
          msrIa32Perfevtsel i == msrIa32Perfevtsel k) = true :=
        List.any_eq_true.mpr ⟨i, List.mem_range.mpr (by omega), beq_self_eq_true _⟩
      simp only [Cpuid.acceptsMsr, listed, Bool.or_true, Bool.true_or]
    · exact msr_ne (m := 0x186 + i) (n := 0x179) (by omega) (by omega) (by omega)

theorem masked_banks_le (mcgCap : UInt64) :
    (mcgCap &&& mcgCapReportingBanksCountMask).toNat ≤ (mcgCap &&& 0xff).toNat := by
  have low : (mcgCap &&& mcgCapReportingBanksCountMask).toNat = mcgCap.toNat % 16 := by
    rw [UInt64.toNat_and]
    exact Nat.and_two_pow_sub_one_eq_mod mcgCap.toNat 4
  have all : (mcgCap &&& 0xff).toNat = mcgCap.toNat % 256 := by
    rw [UInt64.toNat_and]
    exact Nat.and_two_pow_sub_one_eq_mod mcgCap.toNat 8
  omega

theorem machineCheckWrites_cases {write : UInt32 × UInt64}
    (member : write ∈ machineCheckWrites mcgCap) :
    (write = (msrIa32McgCtl, ~~~0) ∧ (mcgCap &&& mcgCapMcgCtlP != 0) = true) ∨
    ∃ i < (mcgCap &&& mcgCapReportingBanksCountMask).toNat,
      write = (msrBank msrIa32Mc0Ctl i, ~~~0) ∨ write = (msrBank msrIa32Mc0Status i, 0) := by
  rw [machineCheckWrites, List.mem_append] at member
  rcases member with whole | bank
  · split at whole
    · rename_i present
      exact .inl ⟨List.mem_singleton.mp whole, present⟩
    · cases whole
  · obtain ⟨i, inside, here⟩ := List.mem_flatMap.mp bank
    refine .inr ⟨i, List.mem_range.mp inside, ?_⟩
    simpa using here

theorem accepts_banks (available : hw.hasMca = true) :
    ∀ write ∈ machineCheckWrites mcgCap,
      hw.acceptsMsr mcgCap write.1 write.2 = true ∧ write.1 ≠ msrIa32McgCap := by
  have le := masked_banks_le mcgCap
  have few : (mcgCap &&& mcgCapReportingBanksCountMask).toNat ≤ 15 := by
    rw [UInt64.toNat_and]
    exact Nat.and_le_right
  intro write member
  rcases machineCheckWrites_cases member with ⟨rfl, present⟩ | ⟨i, inside, rfl | rfl⟩
  · exact ⟨by simp only [Cpuid.acceptsMsr, available, present, beq_self_eq_true, Bool.and_true,
      Bool.true_or, Bool.or_true], by decide⟩
  · constructor
    · have listed : ((List.range (mcgCap &&& 0xff).toNat).any fun k =>
          msrBank msrIa32Mc0Ctl i == msrBank msrIa32Mc0Ctl k ||
            (msrBank msrIa32Mc0Ctl i == msrBank msrIa32Mc0Status k && (~~~0 : UInt64) == 0)) = true :=
        List.any_eq_true.mpr ⟨i, List.mem_range.mpr (by omega), by simp⟩
      simp only [Cpuid.acceptsMsr, available, listed, Bool.or_true, Bool.and_true]
    · exact msr_ne (m := 0x400 + i * 4) (n := 0x179) (by omega) (by omega) (by omega)
  · constructor
    · have listed : ((List.range (mcgCap &&& 0xff).toNat).any fun k =>
          msrBank msrIa32Mc0Status i == msrBank msrIa32Mc0Ctl k ||
            (msrBank msrIa32Mc0Status i == msrBank msrIa32Mc0Status k && (0 : UInt64) == 0)) = true :=
        List.any_eq_true.mpr ⟨i, List.mem_range.mpr (by omega), by simp⟩
      simp only [Cpuid.acceptsMsr, available, listed, Bool.or_true, Bool.and_true]
    · exact msr_ne (m := 0x401 + i * 4) (n := 0x179) (by omega) (by omega) (by omega)

/-- Every bank the program counts is enabled and cleared. -/
theorem machineCheckWrites_banks (msrs : Msrs) {i : Nat}
    (inside : i < (mcgCap &&& mcgCapReportingBanksCountMask).toNat) :
    wrmsrList (machineCheckWrites mcgCap) msrs (msrBank msrIa32Mc0Ctl i) = ~~~0 ∧
      wrmsrList (machineCheckWrites mcgCap) msrs (msrBank msrIa32Mc0Status i) = 0 := by
  have few : (mcgCap &&& mcgCapReportingBanksCountMask).toNat ≤ 15 := by
    rw [UInt64.toNat_and]
    exact Nat.and_le_right
  have member : ∀ write, write = (msrBank msrIa32Mc0Ctl i, (~~~0 : UInt64)) ∨
      write = (msrBank msrIa32Mc0Status i, (0 : UInt64)) →
      write ∈ machineCheckWrites mcgCap := by
    intro write here
    rw [machineCheckWrites, List.mem_append]
    exact .inr (List.mem_flatMap.mpr ⟨i, List.mem_range.mpr inside, by simpa using here⟩)
  constructor
  · apply wrmsrList_written (member _ (.inl rfl))
    intro write listed same
    rcases machineCheckWrites_cases listed with ⟨rfl, -⟩ | ⟨k, below, rfl | rfl⟩
    · rfl
    · rfl
    · exact absurd same (msr_ne (m := 0x401 + k * 4) (n := 0x400 + i * 4) (by omega) (by omega)
        (by omega))
  · apply wrmsrList_written (member _ (.inr rfl))
    intro write listed same
    rcases machineCheckWrites_cases listed with ⟨rfl, -⟩ | ⟨k, below, rfl | rfl⟩
    · exact absurd same (msr_ne (m := 0x17b) (n := 0x401 + i * 4) (by omega) (by omega) (by omega))
    · exact absurd same (msr_ne (m := 0x400 + k * 4) (n := 0x401 + i * 4) (by omega) (by omega)
        (by omega))
    · rfl

theorem machineCheckWrites_other (msrs : Msrs) {n : Nat} (small : n < 2 ^ 32) (control : n ≠ 0x17b)
    (outside : n < 0x400 ∨ 0x43a ≤ n) :
    wrmsrList (machineCheckWrites mcgCap) msrs (UInt32.ofNat n) = msrs (UInt32.ofNat n) := by
  have few : (mcgCap &&& mcgCapReportingBanksCountMask).toNat ≤ 15 := by
    rw [UInt64.toNat_and]
    exact Nat.and_le_right
  apply wrmsrList_other
  intro write listed
  rcases machineCheckWrites_cases listed with ⟨rfl, -⟩ | ⟨k, below, rfl | rfl⟩
  · exact msr_ne (m := 0x17b) (by omega) small (by omega)
  · exact msr_ne (m := 0x400 + k * 4) (by omega) small (by omega)
  · exact msr_ne (m := 0x401 + k * 4) (by omega) small (by omega)

end

/-! What the hardware and the firmware promise -/

/-- The end of the addresses user code can run at: those of the lower canonical half, or below
4 GiB, where the segments of the other modes end. -/
def addressLimit : CpuMode → Nat
  | .mode64 => 2 ^ 47
  | _ => 2 ^ 32

/-- The size of the XSAVE area that is asked for. -/
def areaSize (hw : Cpuid) : Nat := (hw.xsaveSize + 0x40).toNat

/-- A processor with XSAVE, NX and the performance monitoring that goes with its counters; a
firmware that gives out aligned pages apart from each other and from its own stack, in
addresses user code can run at, and whose page tables keep the user out. -/
structure Promises (b : Build) (hw : Cpuid) (answers : BootAnswers) (image : Image)
    (m : MainState) : Prop where
  performance : b.perfEventsCount ≤ hw.countersAvailable → 2 ≤ hw.perfVersion
  noExecute : hw.hasNoExecute = true
  xsave : hw.hasXsave = true
  components : hw.acceptsXcr0 hw.xcr0Supported = true
  area : 576 ≤ hw.xsaveSize.toNat ∧ hw.xsaveSize.toNat + 0x40 < 2 ^ 32
  stackAligned : answers.kernelStackPages.2 &&& 0xfff = 0
  pageAligned : answers.userCodePage.2 &&& 0xfff = 0
  low : answers.userCodePage.2.toNat + 0x2000 < addressLimit b.cpuMode
  pageApart : ByteMemory.Apart answers.userCodePage.2 0x2000 answers.kernelStackPages.2 0x2000
  areaApart : ByteMemory.Apart answers.xsaveStateArea.2 (areaSize hw) answers.kernelStackPages.2
    0x2000
  areaOffPage : ByteMemory.Apart answers.xsaveStateArea.2 (areaSize hw) answers.userCodePage.2
    0x2000
  pageOffStack : ByteMemory.Apart answers.userCodePage.2 0x2000 image.stackBase image.stackSize
  areaOffStack : ByteMemory.Apart answers.xsaveStateArea.2 (areaSize hw) image.stackBase
    image.stackSize
  room : 8 * 5 ≤ (image.atExecuteUd .rsp - image.stackBase).toNat
  inside : (image.atExecuteUd .rsp - image.stackBase).toNat ≤ image.stackSize
  wellFormed : m.paging.WellFormed
  firmware : m.paging.OfFirmware
  fresh : FreshPages answers.tablePages m.paging.allocations m.paging.nodes
  areaNoTable : ∀ i < areaSize hw, ∀ table,
    (answers.xsaveStateArea.2 + UInt64.ofNat i).toBitVec &&& ~~~0xfff#64 = table →
      table ∉ m.paging.nodes ∧
        ∀ k, answers.tablePages.status k = efiSuccess → answers.tablePages.page k ≠ table

theorem area_size {hw : Cpuid}
    (fits : 576 ≤ hw.xsaveSize.toNat ∧ hw.xsaveSize.toNat + 0x40 < 2 ^ 32) :
    areaSize hw = hw.xsaveSize.toNat + 0x40 := by
  rw [areaSize, UInt32.toNat_add]
  simp only [UInt32.reduceToNat]
  omega

/-- Rounding up to 64 stays inside what was allocated for it. -/
theorem area_rounded (address : UInt64) :
    ∃ k < 0x40, (address + 0x40 - 1) &&& ~~~0x3f = address + UInt64.ofNat k ∧
      ((address + 0x40 - 1) &&& ~~~0x3f) &&& 0x3f = 0 := by
  have bound := address.toNat_lt
  have mask : (~~~(0x3f : UInt64)).toNat = 2 ^ 6 * (2 ^ 58 - 1) := by decide
  have rounded : ((address + 0x40 - 1) &&& ~~~0x3f).toNat =
      64 * ((address + 0x40 - 1).toNat / 64 % 2 ^ 58) := by
    rw [UInt64.toNat_and, mask, and_mask, bitField]
    omega
  have sum : (address + 0x40 - 1).toNat = (address.toNat + 0x3f) % 2 ^ 64 := by
    simp only [UInt64.toNat_sub, UInt64.toNat_add, UInt64.reduceToNat]
    omega
  refine ⟨(((address + 0x40 - 1) &&& ~~~0x3f) - address).toNat, ?_, ?_, ?_⟩
  · rw [UInt64.toNat_sub, rounded]
    omega
  · apply UInt64.toNat_inj.mp
    rw [UInt64.toNat_add, UInt64.toNat_ofNat', UInt64.toNat_sub, rounded]
    omega
  · have gone : ~~~(0x3f : UInt64) &&& 0x3f = 0 := by decide
    rw [UInt64.and_assoc, gone, UInt64.and_zero]

theorem area_empty (m : ByteMemory) (address : UInt64) {size : Nat} (fits : 640 ≤ size)
    (small : size < 2 ^ 64) :
    EmptyXsaveArea (m.writeBytes address (List.replicate size 0))
      ((address + 0x40 - 1) &&& ~~~0x3f) := by
  obtain ⟨k, few, place, aligned⟩ := area_rounded address
  have word : ∀ n, n + 8 ≤ 576 →
      (m.writeBytes address (List.replicate size 0)).load64
        (((address + 0x40 - 1) &&& ~~~0x3f) + UInt64.ofNat n) = 0 := by
    intro n inside
    have sum : address + UInt64.ofNat k + UInt64.ofNat n = address + UInt64.ofNat (k + n) := by
      rw [UInt64.add_assoc, ← UInt64.ofNat_add]
    rw [place, sum]
    exact ByteMemory.load64_fill m address (by omega) small
  exact ⟨aligned, word 512 (by decide), word 520 (by decide), word 528 (by decide)⟩

theorem storeTables_same {s s' : Paging} (m : ByteMemory) {a : UInt64} {n : Nat}
    (same : ∀ i < n, ∀ table, (a + UInt64.ofNat i).toBitVec &&& ~~~0xfff#64 = table →
      s'.tables table = s.tables table) : ByteMemory.SameOn a n m (storeTables s s' m) := by
  intro i inside
  have kept := same i inside _ rfl
  simp only [storeTables, kept, if_true]

/-! The stages -/

theorem counters_started_up {hw : Cpuid} (version : b.perfEventsCount ≤ hw.countersAvailable →
    2 ≤ hw.perfVersion) (m : MainState) (selectors : EventSelectors b) :
    hw.countersAvailable < b.perfEventsCount ∧
      m.initPerfCounters hw selectors = some (efiUnsupported, m) ∨
    ∃ msrs, m.initPerfCounters hw selectors = some (efiSuccess, { m with msrs := msrs }) ∧
      b.perfEventsCount ≤ hw.countersAvailable ∧
      msrs = wrmsrList (perfCounterWrites selectors) m.msrs ∧ Counting selectors msrs := by
  by_cases success : (initPerfCounters selectors hw.performance m.msrs).1 = efiSuccess
  · have enough := initPerfCounters_available success
    have counting := init_perf_counters_counting success
    have accepted := writeMsrs_accepted hw (m := m) (accepts_counters enough (version enough) selectors)
    rw [initPerfCounters_writes success] at counting
    refine .inr ⟨_, ?_, enough, rfl, counting⟩
    simp only [MainState.initPerfCounters, success, ne_eq, not_true_eq_false, if_false, accepted,
      Option.map_some]
  · have refused := initPerfCounters_refused success
    have other : efiUnsupported ≠ efiSuccess := by decide
    refine .inl ⟨?_, ?_⟩
    · by_contra enough
      apply success
      simp only [initPerfCounters]
      exact congrArg Prod.fst (if_neg enough)
    · rw [MainState.initPerfCounters, refused]
      exact if_pos other

/-- What `prepareProcessor` leaves. -/
structure Prepared (hw : Cpuid) (m m' : MainState) : Prop where
  cpu : m'.cpu = { m.cpu with xcr0 := hw.xcr0Supported }
  rest : m'.cr8 = m.cr8 ∧ m'.tables = m.tables ∧ m'.allocated = m.allocated
  paging : ∃ cr4, m'.paging = { m.paging with cr4 := cr4 } ∧ has cr4 cr4La57 = has m.paging.cr4 cr4La57 ∧
    has cr4 cr4Osxsave = true ∧ (hw.hasMce = true → has cr4 cr4Mce = true)
  others : ∀ n < 2 ^ 32, n ≠ 0x17b → (n < 0x400 ∨ 0x43a ≤ n) →
    m'.msrs (UInt32.ofNat n) = m.msrs (UInt32.ofNat n)
  banks : hw.hasMce = true → hw.hasMca = true → ∀ i < machineCheckBanks m.msrs,
    m'.msrs (msrBank msrIa32Mc0Ctl i) = ~~~0 ∧ m'.msrs (msrBank msrIa32Mc0Status i) = 0

theorem processor_prepared {hw : Cpuid} (xsave : hw.hasXsave = true)
    (components : hw.acceptsXcr0 hw.xcr0Supported = true) (m : MainState) :
    ∃ m', prepareProcessor hw m = some m' ∧ Prepared hw m m' := by
  let cr4 := m.paging.cr4 ||| cr4Osxsave ||| cr4Osxmmexcpt ||| cr4Osfxsr
  have set : has cr4 cr4Osxsave = true ∧ has (cr4 ||| cr4Mce) cr4Osxsave = true := by
    simp [cr4, cr4Osxsave, cr4Osxmmexcpt, cr4Osfxsr, cr4Mce, has_bit]
  have mce : has (cr4 ||| cr4Mce) cr4Mce = true := by
    simp [cr4Mce, has_bit]
  have noMce : has cr4 cr4Mce = has m.paging.cr4 cr4Mce := by
    simp [cr4, cr4Osxsave, cr4Osxmmexcpt, cr4Osfxsr, cr4Mce, has_bit]
  have la57 : has cr4 cr4La57 = has m.paging.cr4 cr4La57 ∧
      has (cr4 ||| cr4Mce) cr4La57 = has m.paging.cr4 cr4La57 := by
    simp [cr4, cr4Osxsave, cr4Osxmmexcpt, cr4Osfxsr, cr4Mce, cr4La57, has_bit]
  let ready (value : BitVec 64) (t : MainState) : MainState := { t with
    paging := { t.paging with cr4 := value }
    cpu := { t.cpu with xcr0 := hw.xcr0Supported } }
  -- what follows the writes of the machine-check registers
  have finish : ∀ (value : BitVec 64) (t : MainState), has value cr4Osxsave = true →
      (has value cr4Mce = true → has t.paging.cr4 cr4Mce = true ∨ hw.hasMce = true) →
      (t.writeCr4 hw value).bind (fun m => m.xsetbv hw hw.xcr0Supported) =
        some (ready value t) := by
    intro value t xsaves mces
    have legal : ((has value cr4Osxsave && !has t.paging.cr4 cr4Osxsave && !hw.hasXsave) ||
        (has value cr4Mce && !has t.paging.cr4 cr4Mce && !hw.hasMce)) = false := by
      cases asked : has value cr4Mce with
      | false => simp [xsave]
      | true =>
        rcases mces asked with already | able
        · simp [xsave, already]
        · simp [xsave, able]
    rw [MainState.writeCr4, legal]
    simp [MainState.xsetbv, xsaves, components, ready]
  cases able : hw.hasMce with
  | false =>
    refine ⟨ready cr4 m, ?_, ⟨rfl, ⟨rfl, rfl, rfl⟩, ⟨cr4, rfl, la57.1, set.1, fun h => ?_⟩,
      fun _ _ _ _ => rfl, fun h => ?_⟩⟩
    · simp only [prepareProcessor, able, Bool.false_eq_true, if_false, Option.bind_some]
      exact finish cr4 m set.1 fun asked => .inl (noMce ▸ asked)
    · cases able.symm.trans h
    · cases able.symm.trans h
  | true =>
    cases banks : hw.hasMca with
    | false =>
      refine ⟨ready (cr4 ||| cr4Mce) m, ?_, ⟨rfl, ⟨rfl, rfl, rfl⟩,
        ⟨cr4 ||| cr4Mce, rfl, la57.2, set.2, fun _ => mce⟩, fun _ _ _ _ => rfl, fun _ h => ?_⟩⟩
      · simp only [prepareProcessor, able, banks, Bool.false_eq_true, if_true, if_false,
          Option.bind_some]
        exact finish (cr4 ||| cr4Mce) m set.2 fun _ => .inr able
      · cases banks.symm.trans h
    | true =>
      have writes := writeMsrs_accepted hw (m := m) (accepts_banks banks)
      let written : MainState := { m with
        msrs := wrmsrList (machineCheckWrites (m.msrs msrIa32McgCap)) m.msrs }
      refine ⟨ready (cr4 ||| cr4Mce) written, ?_, ⟨rfl, ⟨rfl, rfl, rfl⟩,
        ⟨cr4 ||| cr4Mce, rfl, la57.2, set.2, fun _ => mce⟩, ?_, fun _ _ i inside => machineCheckWrites_banks m.msrs inside⟩⟩
      · simp only [prepareProcessor, able, banks, if_true, writes, Option.map_some,
          Option.bind_some]
        exact finish (cr4 ||| cr4Mce) written set.2 fun _ => .inr able
      · exact fun n small control outside => machineCheckWrites_other m.msrs small control outside

/-- What the firmware gets back: its memory, its tables and its settings, but for the counters. -/
structure GivenBack (b : Build) (m m' : MainState) : Prop where
  allocated : m'.allocated = m.allocated
  cpu : m'.cpu = m.cpu
  cr8 : m'.cr8 = m.cr8
  paging : m'.paging = m.paging
  tables : m'.tables = m.tables
  msrs : ∀ msr, isConfiguration b msr = false → m'.msrs msr = m.msrs msr

/-- The kernel of `efi_main`, by the firmware's answers. -/
structure KernelOf (answers : BootAnswers) (image : Image) (p : Platform) (k : Kernel b) : Prop where
  tables : k.processor.tables = descriptorTables b.cpuMode image.tssBase
    (setTssRsp0 (answers.kernelStackPages.2 + 0x2000) Tss.initial) image.exceptionHandlers
  platform : k.platform = { p with userCodePageForExec := answers.userCodePage.2 + 0x1000 }
  stack : k.kernelStackPages = answers.kernelStackPages.2
  page : k.userCodePageRw = answers.userCodePage.2
  area : k.xsaveStateAreaPtr = (answers.xsaveStateArea.2 + 0x40 - 1) &&& ~~~0x3f

/-- What `execute_ud` finds. -/
structure Ready (hw : Cpuid) (answers : BootAnswers) (image : Image) (p : Platform) (m : MainState)
    (k : Kernel b) (f : SaveFile) (m' : MainState) : Prop where
  kernel : KernelOf answers image p k
  setUp : SetUp k b.cpuMode image.tssBase image.exceptionHandlers
  call : BootCall k m'.cpu m'.msrs image.stackBase image.stackSize
  masked : m'.cpu.rflags &&& flagIf = 0 ∧ m'.cr8 = 0xf
  tables : m'.tables = some k.processor.tables
  page : UserCodePage m.paging m'.paging k.userCodePageRw.toBitVec
  noExecute : m'.msrs msrIa32Efer &&& eferNxe = eferNxe
  machineChecks : hw.hasMce = true → has m'.paging.cr4 cr4Mce = true ∧
    (hw.hasMca = true → ∀ i < machineCheckBanks m.msrs,
      m'.msrs (msrBank msrIa32Mc0Ctl i) = ~~~0 ∧ m'.msrs (msrBank msrIa32Mc0Status i) = 0)
  searches : ∀ rs : List (Response b), (efiMain k.platform answers.saveFile answers.tablePages
    { m.paging with cr4 := m'.paging.cr4 } rs).run = some (bootFrom k.platform f rs)

/-- A processor that is not supported, or a firmware call in front of the last return failed. -/
def EarlyFailure (b : Build) (hw : Cpuid) (answers : BootAnswers) : Prop :=
  getUarchConfigForCpu b hw = none ∨ hw.countersAvailable < b.perfEventsCount ∨
    answers.kernelStackPages.1 ≠ efiSuccess ∨ answers.userCodePage.1 ≠ efiSuccess

/-- A firmware call behind the last return has failed, that for one of the tables among them:
there is at most one for each level and each of the two pages. -/
def LateFailure (b : Build) (answers : BootAnswers) (p : Platform) (m : MainState) : Prop :=
  answers.xsaveStateArea.1 ≠ efiSuccess ∨ (openSaveFile b p answers.saveFile).status ≠ efiSuccess ∨
    ∃ k, m.paging.allocations ≤ k ∧ k < m.paging.allocations + 2 * m.paging.topLevel ∧
      answers.tablePages.status k ≠ efiSuccess

/-- The ways out of `efi_main`. A fault is none of them. -/
inductive MainResult (hw : Cpuid) (answers : BootAnswers) (image : Image) (p : Platform)
    (m : MainState) : MainOutcome b → Prop where
  | returned {status : EfiStatus} {m' : MainState} (failed : status ≠ efiSuccess)
      (why : EarlyFailure b hw answers) (back : GivenBack b m m') : MainResult hw answers image p m (.returned status m')
  | halted {m' : MainState} (supported : ¬ EarlyFailure b hw answers)
      (failed : LateFailure b answers p m) (tables : m'.tables = m.tables) :
      MainResult hw answers image p m (.halted m')
  | executesUd {k : Kernel b} {f : SaveFile} {m' : MainState}
      (supported : ¬ EarlyFailure b hw answers) (ready : Ready hw answers image p m k f m') :
      MainResult hw answers image p m (.executesUd k f m')

/-- The machine at `cli`. -/
structure BeforeSearch (hw : Cpuid) (selectors : EventSelectors b) (area : UInt64)
    (m m' : MainState) : Prop where
  paging : ∃ cr4, m'.paging = { m.paging with cr4 := cr4 } ∧
    has cr4 cr4La57 = has m.paging.cr4 cr4La57 ∧ (hw.hasMce = true → has cr4 cr4Mce = true)
  tables : m'.tables = m.tables
  counting : Counting selectors m'.msrs
  empty : EmptyXsaveArea m'.cpu.memory area
  banks : hw.hasMce = true → hw.hasMca = true → ∀ i < machineCheckBanks m.msrs,
    m'.msrs (msrBank msrIa32Mc0Ctl i) = ~~~0 ∧ m'.msrs (msrBank msrIa32Mc0Status i) = 0

theorem UserCodePage.congr {s t s' : Paging} {page : BitVec 64} (h : UserCodePage s s' page)
    (top : t.topLevel = s.topLevel) : UserCodePage t s' page := by
  have same : ∀ w v, t.SamePage w v ↔ s.SamePage w v := by
    intro w v
    rw [Paging.SamePage, Paging.SamePage, top]
  constructor
  · intro w
    rw [same]
    exact h.user w
  · intro w inside
    exact h.fetched w ((same _ _).mp inside)
  · intro w inside
    exact h.written w ((same _ _).mp inside)

/-- CR4 decides on the height of the tables and on nothing else of them. -/
structure SameTables (s t : Paging) : Prop where
  top : t.topLevel = s.topLevel
  nodes : t.nodes = s.nodes
  wellFormed : s.WellFormed → t.WellFormed
  firmware : s.OfFirmware → t.OfFirmware

theorem paging_with_cr4 (s : Paging) {cr4 : BitVec 64} (la57 : has cr4 cr4La57 = has s.cr4 cr4La57) :
    SameTables s { s with cr4 := cr4 } := by
  have top : ({ s with cr4 := cr4 } : Paging).topLevel = s.topLevel := by
    rw [Paging.topLevel, Paging.topLevel, la57]
  constructor
  · exact top
  · rw [Paging.nodes, Paging.nodes, top]
    rfl
  · intro h
    constructor
    · rw [Paging.TreeShaped, top]
      exact h.shaped
    · rw [top]
      exact h.proper
  · intro h
    constructor
    · exact h.root
    · rw [top]
      exact h.entries

theorem or_and_same (x y : UInt64) : (x ||| y) &&& y = y := by
  apply UInt64.toNat_inj.mp
  apply Nat.eq_of_testBit_eq
  intro i
  simp only [UInt64.toNat_and, UInt64.toNat_or, Nat.testBit_and, Nat.testBit_or]
  cases x.toNat.testBit i <;> cases y.toNat.testBit i <;> rfl

theorem page_address {a : UInt64} (aligned : a &&& 0xfff = 0) (low : a.toNat < 2 ^ 52) :
    PageAddress a.toBitVec := by
  apply BitVec.eq_of_toNat_eq
  have mask : addressMask.toNat = 2 ^ 12 * (2 ^ 40 - 1) := by decide
  have number : a.toNat % 2 ^ 12 = 0 := by
    have masked : a.toNat &&& 0xfff = a.toNat % 2 ^ 12 := Nat.and_two_pow_sub_one_eq_mod _ 12
    rw [← masked]
    exact congrArg UInt64.toNat aligned
  rw [BitVec.toNat_and, mask, and_mask, bitField, UInt64.toNat_toBitVec]
  omega

theorem address_reachable {p : Processor} {mode : CpuMode} {tssBase : UInt64} {tss : Tss}
    {exceptionHandlers : Fin 22 → UInt64}
    (tables : p.tables = descriptorTables mode tssBase tss exceptionHandlers) {rip : UInt64}
    (low : rip.toNat < addressLimit mode) : reachable p 0x1b rip = true := by
  have segment := segment_code3 mode tssBase tss exceptionHandlers
  rw [← tables] at segment
  rw [reachable, segment]
  cases mode with
  | mode64 =>
    have canon : canonical rip = true := by
      rw [canonical, Bool.or_eq_true, decide_eq_true_eq, UInt64.lt_iff_toNat_lt]
      exact .inl low
    simpa using canon
  | mode32 =>
    have inside : rip.toNat < 2 ^ 32 := low
    simp [Segment.lastByte]
    omega
  | mode16 =>
    have inside : rip.toNat < 2 ^ 32 := low
    simp [Segment.lastByte]
    omega

theorem stack_aligned {a : UInt64} (aligned : a &&& 0xfff = 0) : a &&& 0xf = 0 := by
  have part : (0xfff : UInt64) &&& 0xf = 0xf := by decide
  rw [← part, ← UInt64.and_assoc, aligned, UInt64.zero_and]

section

variable {hw : Cpuid} {answers : BootAnswers} {image : Image} {p : Platform} {m : MainState}

/-- The part of the XSAVE area the program uses, inside what it has allocated. -/
theorem area_part (promises : Promises b hw answers image m) :
    ∃ i, i + 536 ≤ areaSize hw ∧
      (answers.xsaveStateArea.2 + 0x40 - 1) &&& ~~~0x3f =
        answers.xsaveStateArea.2 + UInt64.ofNat i := by
  obtain ⟨i, few, place, -⟩ := area_rounded answers.xsaveStateArea.2
  have size := area_size promises.area
  have big := promises.area.1
  exact ⟨i, by omega, place⟩

theorem promised_setUp (promises : Promises b hw answers image m) {k : Kernel b}
    (tables : k.processor.tables = descriptorTables b.cpuMode image.tssBase
      (setTssRsp0 (answers.kernelStackPages.2 + 0x2000) Tss.initial) image.exceptionHandlers)
    (pages : k.kernelStackPages = answers.kernelStackPages.2 ∧
      k.userCodePageRw = answers.userCodePage.2 ∧
      k.platform.userCodePageForExec = answers.userCodePage.2 + 0x1000 ∧
      k.xsaveStateAreaPtr = (answers.xsaveStateArea.2 + 0x40 - 1) &&& ~~~0x3f) :
    SetUp k b.cpuMode image.tssBase image.exceptionHandlers := by
  obtain ⟨stack, code, exec, area⟩ := pages
  obtain ⟨i, inside, place⟩ := area_part promises
  have low := promises.low
  have limit : addressLimit b.cpuMode ≤ 2 ^ 47 := by
    cases b.cpuMode <;> simp [addressLimit]
  constructor
  · rw [tables, stack]
  · rw [exec, code]
  · intro n short
    apply address_reachable tables
    have number : (k.platform.userCodePageForExec + (0x1000 - UInt64.ofNat n)).toNat =
        answers.userCodePage.2.toNat + 0x1000 + (0x1000 - n) := by
      rw [exec]
      simp only [UInt64.toNat_add, UInt64.toNat_sub, UInt64.toNat_ofNat', UInt64.reduceToNat]
      omega
    rw [number]
    omega
  · rw [stack]
    exact stack_aligned promises.stackAligned
  · rw [code, stack]
    exact ByteMemory.Apart.front_part promises.pageApart (by decide)
  · rw [area, stack, place]
    exact promises.areaApart.part inside (by decide)
  · rw [area, code, place]
    exact (ByteMemory.Apart.front_part (promises.areaOffPage.part inside (by decide)).symm
      (by decide)).symm

theorem openSaveFile_congr {p q : Platform} (same : q.fileStatus = p.fileStatus) (fw : Firmware) :
    openSaveFile b q fw = openSaveFile b p fw := by
  obtain ⟨exec, fileStatus, stored⟩ := p
  obtain ⟨exec', fileStatus', stored'⟩ := q
  obtain rfl : fileStatus' = fileStatus := same
  have reset : ∀ f : SaveFile, resetSaveFile ⟨exec', fileStatus', stored'⟩ fw f =
      resetSaveFile ⟨exec, fileStatus', stored⟩ fw f := fun _ => rfl
  simp only [openSaveFile, reset]

/-- The area outlives the writes of the tables and of the firmware's stack. -/
theorem area_kept (promises : Promises b hw answers image m) {k : Kernel b}
    (area : k.xsaveStateAreaPtr = (answers.xsaveStateArea.2 + 0x40 - 1) &&& ~~~0x3f)
    {s s' : Paging} (outside : ∀ table, table ∉ m.paging.nodes →
      (∀ k, answers.tablePages.status k = efiSuccess → answers.tablePages.page k ≠ table) → s'.tables table = s.tables table)
    (memory : ByteMemory) :
    ByteMemory.SameOn k.xsaveStateAreaPtr 536 memory (fun x =>
      if (x - image.stackBase).toNat < image.stackSize then image.stackBytes x
      else storeTables s s' memory x) := by
  obtain ⟨i, inside, place⟩ := area_part promises
  have stored : ByteMemory.SameOn answers.xsaveStateArea.2 (areaSize hw) memory
      (storeTables s s' memory) := by
    apply storeTables_same
    intro n below table here
    obtain ⟨beyond, kept⟩ := promises.areaNoTable n below table here
    exact outside table beyond kept
  have frames : ByteMemory.SameOutside image.stackBase image.stackSize (storeTables s s' memory)
      (fun x => if (x - image.stackBase).toNat < image.stackSize then image.stackBytes x
        else storeTables s s' memory x) := fun x outside => if_neg (by omega)
  rw [area, place]
  exact (stored.trans (frames.sameOn promises.areaOffStack)).part inside

theorem enter_search_result (promises : Promises b hw answers image m)
    (supported : ¬ EarlyFailure b hw answers) {k : Kernel b}
    (kernel : KernelOf answers image p k) {f : SaveFile}
    (opened : (openSaveFile b p answers.saveFile).status = efiSuccess)
    (file : f = (openSaveFile b p answers.saveFile).saveFile) {t : MainState}
    (before : BeforeSearch hw k.selectors k.xsaveStateAreaPtr m t) :
    MainResult hw answers image p m (enterSearch hw answers image k f t) := by
  obtain ⟨cr4, paging, la57, mce⟩ := before.paging
  have same := paging_with_cr4 m.paging la57
  rw [← paging] at same
  have wellFormed := same.wellFormed promises.wellFormed
  have firmware := same.firmware promises.firmware
  have fresh : FreshPages answers.tablePages t.paging.allocations t.paging.nodes := by
    rw [same.nodes, paging]
    exact promises.fresh
  have low := promises.low
  have limit : addressLimit b.cpuMode ≤ 2 ^ 47 := by
    cases b.cpuMode <;> simp [addressLimit]
  have aligned : PageAddress k.userCodePageRw.toBitVec := by
    rw [kernel.page]
    exact page_address promises.pageAligned (by omega)
  obtain ⟨⟨status, s'⟩, returned⟩ := remapUserCodePage_returns wellFormed fresh firmware aligned
  by_cases ok : status = efiSuccess
  · subst ok
    obtain ⟨s₁, first, -, -, second⟩ := remapUserCodePage_done wellFormed fresh returned
    have registers : s'.cr4 = cr4 := by
      rw [second.registers.2.2, first.registers.2.2, paging]
    have outside : ∀ table, table ∉ m.paging.nodes →
        (∀ k, answers.tablePages.status k = efiSuccess → answers.tablePages.page k ≠ table) → s'.tables table = t.paging.tables table := by
      intro table beyond kept
      rw [← same.nodes] at beyond
      exact remapUserCodePage_outside wellFormed fresh returned beyond kept
    have segments : k.processor.tables.loadSegments 0x8 0x10 0x28 =
        some (⟨image.tssBase.toNat % 2 ^ 32, 103, 9, false, 0, true, false, false, false⟩,
          image.tssBase.toNat) := by
      rw [kernel.tables]
      exact loads_segments b.cpuMode image.tssBase _ image.exceptionHandlers
    have accepted : ∀ cap value, hw.acceptsMsr cap msrIa32Efer value = true := by
      intro cap value
      simp [Cpuid.acceptsMsr, promises.noExecute]
    have others : ∀ n < 2 ^ 32, n ≠ 0xc0000080 →
        wrmsr msrIa32Efer (t.msrs msrIa32Efer ||| eferNxe) t.msrs (UInt32.ofNat n) =
          t.msrs (UInt32.ofNat n) := by
      intro n small other
      exact if_neg (msr_ne (n := 0xc0000080) small (by omega) other)
    simp only [enterSearch, returned, ne_eq, not_true_eq_false, if_false, segments,
      MainState.writeMsr, accepted, if_true]
    apply MainResult.executesUd supported
    constructor
    · exact kernel
    · exact promised_setUp promises kernel.tables
        ⟨kernel.stack, kernel.page, by rw [kernel.platform], kernel.area⟩
    · have few := b.perf_events_count_le
      obtain ⟨i, inside, place⟩ := area_part promises
      refine ⟨?_, ?_, promises.room, promises.inside, ⟨?_, ?_⟩, ?_⟩
      · rw [kernel.page]
        exact promises.pageOffStack.front_part (by decide)
      · rw [kernel.area, place]
        exact promises.areaOffStack.part inside (by decide)
      · exact (others 0x38d (by decide) (by decide)).trans before.counting.fixed
      · intro i
        have bound := i.isLt
        exact (others (0x186 + i) (by omega) (by omega)).trans (before.counting.selected i)
      · exact before.empty.same (area_kept promises kernel.area outside t.cpu.memory)
    · have cleared : ~~~flagIf &&& flagIf = 0 := by decide
      refine ⟨?_, rfl⟩
      simp only [UInt64.and_assoc, cleared, UInt64.and_zero]
    · rfl
    · exact (user_code_page_remapped wellFormed fresh firmware aligned returned).congr same.top.symm
    · have written : wrmsr msrIa32Efer (t.msrs msrIa32Efer ||| eferNxe) t.msrs msrIa32Efer =
          t.msrs msrIa32Efer ||| eferNxe := if_pos rfl
      simp only [written, or_and_same]
    · intro able
      refine ⟨by simp only [registers, mce able], fun banks i inside => ?_⟩
      have few := machine_check_banks_le m.msrs
      have kept := before.banks able banks i inside
      exact ⟨(others (0x400 + i * 4) (by omega) (by omega)).trans kept.1,
        (others (0x401 + i * 4) (by omega) (by omega)).trans kept.2⟩
    · intro rs
      have back : k.platform.userCodePageForExec - 0x1000 = k.userCodePageRw := by
        rw [kernel.platform, kernel.page]
        exact UInt64.add_sub_cancel _ _
      have call : openSaveFile b k.platform answers.saveFile = openSaveFile b p answers.saveFile :=
        openSaveFile_congr (by rw [kernel.platform]) answers.saveFile
      have again : remapUserCodePage answers.tablePages k.userCodePageRw.toBitVec
          { m.paging with cr4 := s'.cr4 } = some (efiSuccess, s') := by
        rw [registers, ← paging]
        exact returned
      simp only [efiMain, call, opened, back, again, ne_eq, not_true_eq_false, if_false, file]
  · have refused := remapUserCodePage_refused wellFormed fresh returned ok
    rw [same.top, paging] at refused
    simp only [enterSearch, returned, ok, ne_eq, not_false_eq_true, if_true]
    exact .halted supported (.inr (.inr refused)) before.tables

theorem no_return_result (promises : Promises b hw answers image m)
    (supported : ¬ EarlyFailure b hw answers) {selectors : EventSelectors b} {t : MainState} (paging : t.paging = m.paging) (tables : t.tables = m.tables)
    (banks : machineCheckBanks t.msrs = machineCheckBanks m.msrs)
    (counting : Counting selectors t.msrs) :
    MainResult hw answers image p m (efiMainNoReturn hw answers image p selectors
      answers.kernelStackPages.2 answers.userCodePage.2 t) := by
  obtain ⟨u, run, prepared⟩ := processor_prepared promises.xsave promises.components
    (t.setMem answers.userCodePage.2 (2 * 0x1000))
  obtain ⟨cr4, paging', la57, osxsave, mce⟩ := prepared.paging
  have size := area_size promises.area
  have big := promises.area.1
  have fits := promises.area.2
  let area := (answers.xsaveStateArea.2 + 0x40 - 1) &&& ~~~0x3f
  let memory := u.cpu.memory.writeBytes answers.xsaveStateArea.2 (List.replicate (areaSize hw) 0)
  have empty : EmptyXsaveArea memory area :=
    area_empty u.cpu.memory answers.xsaveStateArea.2 (by omega) (by omega)
  have keptTables : u.tables = m.tables := prepared.rest.2.1.trans tables
  by_cases allocated : answers.xsaveStateArea.1 = efiSuccess
  · let processor : Processor := {
      tables := descriptorTables b.cpuMode image.tssBase
        (setTssRsp0 (answers.kernelStackPages.2 + 0x2000) Tss.initial) image.exceptionHandlers
      componentOffset := image.componentOffset
      componentSize := image.componentSize }
    let owned : MainState := { u with
      allocated := (answers.xsaveStateArea.2, (hw.xsaveSize + 0x40).toUInt64) :: u.allocated }
    let filled := owned.setMem answers.xsaveStateArea.2 (areaSize hw)
    have enabled : has filled.paging.cr4 cr4Osxsave = true := by
      have same : filled.paging = u.paging := rfl
      rw [same, paging']
      exact osxsave
    let loaded : Cpu := { filled.cpu with register := image.atXrstor }
    let restored : MainState := { filled with cpu := { loaded with
      xstate := fun i => if componentBit loaded.requestedComponents i then none
        else loaded.xstate i } }
    have xrstor : filled.xrstor processor image.atXrstor area = some restored := by
      have area_ : xrstorArea processor loaded area = _ := xrstor_empty processor empty
      rw [MainState.xrstor, if_pos enabled, area_]
      rfl
    let k : Kernel b := {
      processor := processor
      platform := { p with userCodePageForExec := answers.userCodePage.2 + 0x1000 }
      selectors := selectors
      saveRegsOnException := image.saveRegsOnException
      kernelStackPages := answers.kernelStackPages.2
      userCodePageRw := answers.userCodePage.2
      xsaveStateAreaPtr := area }
    have result : efiMainNoReturn hw answers image p selectors answers.kernelStackPages.2
        answers.userCodePage.2 t =
        if (openSaveFile b p answers.saveFile).status ≠ efiSuccess then .halted restored
        else enterSearch hw answers image k (openSaveFile b p answers.saveFile).saveFile restored := by
      simp only [efiMainNoReturn, run, MainState.allocate, allocated, ne_eq, not_true_eq_false,
        if_true, if_false]
      have loaded' : (MainState.setMem { u with
          allocated := (answers.xsaveStateArea.2, (hw.xsaveSize + 0x40).toUInt64) :: u.allocated }
          answers.xsaveStateArea.2 (hw.xsaveSize + 0x40).toNat).xrstor processor image.atXrstor
            area = some restored := xrstor
      simp only [processor, area] at loaded'
      simp only [loaded']
      rfl
    have kernel : KernelOf answers image p k := ⟨rfl, rfl, rfl, rfl, rfl⟩
    rw [result]
    by_cases opened : (openSaveFile b p answers.saveFile).status = efiSuccess
    · rw [if_neg (not_not_intro opened)]
      have count : machineCheckBanks (t.setMem answers.userCodePage.2 (2 * 0x1000)).msrs =
          machineCheckBanks m.msrs := banks
      refine enter_search_result promises supported kernel opened rfl ⟨⟨cr4, ?_, ?_, mce⟩, keptTables, ?_, empty, ?_⟩
      · rw [← paging]
        exact paging'
      · rw [← paging]
        exact la57
      · have few := b.perf_events_count_le
        refine ⟨(prepared.others 0x38d (by decide) (by decide) (by decide)).trans counting.fixed, ?_⟩
        intro i
        have bound := i.isLt
        exact (prepared.others (0x186 + i) (by omega) (by omega) (by omega)).trans
          (counting.selected i)
      · intro able available i inside
        rw [← count] at inside
        exact prepared.banks able available i inside
    · rw [if_pos opened]
      exact .halted supported (.inr (.inl opened)) keptTables
  · simp only [efiMainNoReturn, run, MainState.allocate, allocated, ne_eq, not_false_eq_true,
      if_true, if_false]
    exact .halted supported (.inl allocated) keptTables

theorem main_result (promises : Promises b hw answers image m) (p : Platform) :
    MainResult hw answers image p m (efiMainToExecuteUd b hw answers image p m) := by
  cases config : getUarchConfigForCpu b hw with
  | none =>
    have unsupported : efiUnsupported ≠ efiSuccess := by decide
    simp only [efiMainToExecuteUd, config]
    exact .returned unsupported (.inl config) ⟨rfl, rfl, rfl, rfl, rfl, fun _ _ => rfl⟩
  | some uarchConfig =>
    rcases counters_started_up promises.performance m uarchConfig.perfCounters with
      ⟨few, refused⟩ | ⟨msrs, started, enough, written, counting⟩
    · have unsupported : efiUnsupported ≠ efiSuccess := by decide
      simp only [efiMainToExecuteUd, config, refused, ne_eq, unsupported, not_false_eq_true, if_true]
      exact .returned unsupported (.inr (.inl few)) ⟨rfl, rfl, rfl, rfl, rfl, fun _ _ => rfl⟩
    · have others : ∀ msr, isConfiguration b msr = false → msrs msr = m.msrs msr := by
        intro msr other
        rw [written]
        apply wrmsrList_other
        intro write member same
        have configuration := perfCounterWrites_configuration uarchConfig.perfCounters write member
        rw [same, other] at configuration
        cases configuration
      have cap : msrs msrIa32McgCap = m.msrs msrIa32McgCap :=
        others _ (not_configuration b (n := 0x179) (by decide) (by decide) (by decide) (by decide))
      have banks : machineCheckBanks msrs = machineCheckBanks m.msrs := by
        rw [machineCheckBanks, machineCheckBanks, cap]
      by_cases stack : answers.kernelStackPages.1 = efiSuccess
      · by_cases page : answers.userCodePage.1 = efiSuccess
        · simp only [efiMainToExecuteUd, config, started, MainState.allocate, stack, page, ne_eq,
            not_true_eq_false, if_true, if_false]
          have supported : ¬ EarlyFailure b hw answers := by
            rintro (unknown | few | refused | refused)
            · rw [config] at unknown
              cases unknown
            · exact absurd enough (Nat.not_le.mpr few)
            · exact refused stack
            · exact refused page
          exact no_return_result promises supported rfl rfl banks counting
        · simp only [efiMainToExecuteUd, config, started, MainState.allocate, stack, page, ne_eq,
            not_true_eq_false, not_false_eq_true, if_true, if_false, MainState.free]
          exact .returned page (.inr (.inr (.inr page))) ⟨List.erase_cons_head _ _, rfl, rfl, rfl, rfl, others⟩
      · simp only [efiMainToExecuteUd, config, started, MainState.allocate, stack, ne_eq,
          not_true_eq_false, not_false_eq_true, if_true, if_false]
        exact .returned stack (.inr (.inr (.inl stack))) ⟨rfl, rfl, rfl, rfl, rfl, others⟩

theorem executes_ud_ready (promises : Promises b hw answers image m) {p : Platform}
    (early : ¬ EarlyFailure b hw answers) (late : ¬ LateFailure b answers p m) :
    ∃ k f m', efiMainToExecuteUd b hw answers image p m = .executesUd k f m' ∧
      Ready hw answers image p m k f m' := by
  have result := main_result promises p
  generalize efiMainToExecuteUd b hw answers image p m = o at result ⊢
  cases result with
  | returned failed why back => exact absurd why early
  | halted supported failed tables => exact absurd failed late
  | executesUd supported ready => exact ⟨_, _, _, rfl, ready⟩

end

/-- A processor, its firmware and the image, where all promises are kept. -/
def skylake : Cpuid where
  vendor := vendorIntel
  signature := 0x506e3
  features := 0xbfebfbff
  performance := 0x07300404
  xcr0Supported := 0x1f
  xsaveSize := 0x440
  hasXsave := true
  hasNoExecute := true

namespace skylake

def answers : BootAnswers where
  kernelStackPages := (efiSuccess, 0x300000)
  userCodePage := (efiSuccess, 0x200000)
  xsaveStateArea := (efiSuccess, 0x400000)
  saveFile := workingFirmware
  tablePages := eightPages

def image : Image where
  tssBase := 0x500000
  exceptionHandlers := fun vector => 0x501000 + 0x10 * UInt64.ofNat vector
  saveRegsOnException := false
  componentOffset := fun _ => 0
  componentSize := fun _ => 0
  stackBase := 0x600000
  stackSize := 0x10000
  atXrstor := fun _ => 0
  atExecuteUd := fun _ => 0x608000
  stackBytes := fun _ => 0

def start : MainState where
  cpu := {
    register := fun _ => 0
    rip := 0x502000
    rflags := 0x202
    cs := 0x38
    ss := 0x30
    memory := fun _ => 0
    xcr0 := 1
    xstate := fun _ => none }
  msrs := fun _ => 0
  cr8 := 0
  paging := oneGib
  tables := none
  allocated := []

/-- GetInfo is asked for the size of its answer first. -/
def platform : Platform := ⟨0, fun n => if n = 0 then efiBufferTooSmall else efiSuccess, fun _ => 0⟩

theorem promises : Promises (Build.makefile .mode64) skylake answers image start := by
  constructor
  · decide
  · rfl
  · rfl
  · decide
  · decide
  · decide
  · decide
  · decide
  · constructor <;> decide
  · constructor <;> decide
  · constructor <;> decide
  · constructor <;> decide
  · constructor <;> decide
  · decide
  · decide
  · exact oneGib.wellFormed
  · exact oneGib.ofFirmware
  · exact oneGib.fresh
  · intro i inside table here
    have size : areaSize skylake = 0x480 := by decide
    have number : table.toNat = 0x400000 := by
      have mask : (~~~0xfff#64).toNat = 2 ^ 12 * (2 ^ 52 - 1) := by decide
      rw [← here, BitVec.toNat_and, mask, and_mask, bitField, UInt64.toNat_toBitVec]
      simp only [answers, UInt64.toNat_add, UInt64.toNat_ofNat', UInt64.reduceToNat]
      omega
    constructor
    · intro member
      rcases oneGib.nodes_subset member with same | same
      all_goals
        rw [same] at number
        exact absurd number (by decide)
    · intro k ok same
      have handed := oneGib.handed ok
      have page : (eightPages.page k).toNat = 0x400000 := (congrArg BitVec.toNat same).trans number
      omega

theorem not_early : ¬ EarlyFailure (Build.makefile .mode64) skylake answers := by
  rintro (unknown | few | refused | refused)
  · exact absurd unknown (by decide)
  · exact absurd few (by decide)
  · exact refused rfl
  · exact refused rfl

theorem not_late : ¬ LateFailure (Build.makefile .mode64) answers platform start := by
  rintro (refused | failed | ⟨k, -, below, failed⟩)
  · exact refused rfl
  · exact failed (by decide)
  · have top : oneGib.topLevel = 3 := oneGib.registers.1
    have few : k < 0 + 2 * oneGib.topLevel := below
    exact failed (if_pos (by omega))

end skylake

end PmcBruteforce
