import PmcBruteforce.Machine.Tables

/-! What the processor finds in the tables: for any addresses of the handlers and of the task
state segment, every exception goes on at its handler, of the software interrupts only the
breakpoint is delivered, and the selectors the program loads pass their checks. -/
namespace PmcBruteforce

open Library

theorem low_word (x : UInt64) : (x &&& 0xffff).toUInt16.toNat = x.toNat % 2 ^ 16 := by
  have masked : x.toNat &&& 65535 = x.toNat % 65536 := Nat.and_two_pow_sub_one_eq_mod x.toNat 16
  simp only [UInt64.toNat_toUInt16, UInt64.toNat_and, UInt64.reduceToNat, masked]
  omega

theorem shifted (x : UInt64) {n : UInt64} (small : n.toNat < 64) :
    (x >>> n).toNat = x.toNat / 2 ^ n.toNat := by
  rw [UInt64.toNat_shiftRight, Nat.mod_eq_of_lt small, Nat.shiftRight_eq_div_pow]

theorem high_half (x : UInt64) : (x >>> 32).toUInt32.toNat = x.toNat / 2 ^ 32 := by
  have bound := x.toNat_lt
  rw [UInt64.toNat_toUInt32, shifted x (by decide)]
  simp only [UInt64.reduceToNat]
  omega

theorem IdtEntry.bytes_length (e : IdtEntry) : e.bytes.length = 16 := by
  simp [IdtEntry.bytes]

theorem GdtEntry.bytes_length (e : GdtEntry) : e.bytes.length = 8 := by
  simp [GdtEntry.bytes]

/-- `_Static_assert(sizeof(struct tss) == 104, "")`. -/
theorem Tss.bytes_length (t : Tss) : t.bytes.length = sizeofTss := by
  simp [Tss.bytes, sizeofTss]

theorem decodeGate_entry (i : Nat) (ptr : UInt64) :
    decodeGate (littleEndian (idtEntry i ptr).bytes) =
      ⟨ptr.toNat, 8, 0, 15, if i = 3 then 3 else 0, true⟩ := by
  have bound := ptr.toNat_lt
  have low := low_word ptr
  have middle := low_word (ptr >>> 16)
  have high := high_half ptr
  rw [shifted ptr (by decide)] at middle
  simp only [UInt64.reduceToNat] at middle
  have flags : (idtEntry i ptr).flags.toNat = if i = 3 then 0xef00 else 0x8f00 := by
    unfold idtEntry
    split <;> rfl
  have number : littleEndian (idtEntry i ptr).bytes =
      ptr.toNat % 2 ^ 16 + 2 ^ 16 * (8 + 2 ^ 16 * ((if i = 3 then 0xef00 else 0x8f00) +
        2 ^ 16 * (ptr.toNat / 2 ^ 16 % 2 ^ 16 + 2 ^ 16 * (ptr.toNat / 2 ^ 32)))) := by
    simp only [IdtEntry.bytes, littleEndian_append, littleEndian_bytes, littleEndianBytes_length,
      flags]
    simp only [idtEntry, low, middle, high]
    split <;> simp <;> omega
  have parts : ∀ flags low middle high : Nat, low < 2 ^ 16 → flags < 2 ^ 16 → middle < 2 ^ 16 →
      high < 2 ^ 32 → decodeGate (low + 2 ^ 16 * (8 + 2 ^ 16 * (flags + 2 ^ 16 *
        (middle + 2 ^ 16 * high)))) = ⟨low + 2 ^ 16 * middle + 2 ^ 32 * high, 8,
          bitField flags 0 3, bitField flags 8 4, bitField flags 13 2, bitField flags 15 1 == 1⟩ := by
    intro flags low middle high hl hf hm hh
    generalize number : low + 2 ^ 16 * (8 + 2 ^ 16 * (flags + 2 ^ 16 *
      (middle + 2 ^ 16 * high))) = n
    have offset : bitField n 0 16 = low ∧ bitField n 48 16 = middle ∧ bitField n 64 32 = high := by
      simp only [bitField, Nat.reducePow] at number ⊢
      omega
    have selector : bitField n 16 16 = 8 := by
      simp only [bitField, Nat.reducePow] at number ⊢
      omega
    have type : bitField n 32 3 = bitField flags 0 3 ∧ bitField n 40 4 = bitField flags 8 4 := by
      simp only [bitField, Nat.reducePow] at number ⊢
      omega
    have rights : bitField n 45 2 = bitField flags 13 2 ∧ bitField n 47 1 = bitField flags 15 1 := by
      simp only [bitField, Nat.reducePow] at number ⊢
      omega
    simp only [decodeGate, offset, selector, type, rights]
    rfl
  rw [number, parts _ _ _ _ (by omega) (by split <;> decide) (by omega) (by omega)]
  have offset : ptr.toNat % 2 ^ 16 + 2 ^ 16 * (ptr.toNat / 2 ^ 16 % 2 ^ 16) +
      2 ^ 32 * (ptr.toNat / 2 ^ 32) = ptr.toNat := by omega
  rw [offset]
  split <;> rfl

theorem decodeSegment_flat :
    decodeSegment (littleEndian (flatSegment gdt64BitCodeSegment).bytes) =
      ⟨0, 0xfffff, 11, true, 0, true, true, false, true⟩ ∧
    decodeSegment (littleEndian (flatSegment gdt32BitDataSegment).bytes) =
      ⟨0, 0xfffff, 3, true, 0, true, false, false, true⟩ ∧
    decodeSegment (littleEndian (flatSegment (gdt32BitDataSegment ||| gdtDpl3)).bytes) =
      ⟨0, 0xfffff, 3, true, 3, true, false, false, true⟩ ∧
    ∀ mode, decodeSegment (littleEndian (flatSegment (gdtUserCodeSegment mode ||| gdtDpl3)).bytes) =
      ⟨0, 0xfffff, 11, true, 3, true, mode == .mode64, mode == .mode32, true⟩ := by
  refine ⟨by decide +kernel, by decide +kernel, by decide +kernel, ?_⟩
  intro mode
  cases mode <;> decide +kernel

theorem field_of_table {front back : List UInt8} {start n v : Nat} (length : front.length = start)
    (fits : v < 256 ^ n) :
    tableField (front ++ (littleEndianBytes n v ++ back)) start n = v := by
  rw [tableField, ← length, List.drop_left]
  have taken : (littleEndianBytes n v ++ back).take n = littleEndianBytes n v := by simp
  rw [taken, littleEndian_bytes, Nat.mod_eq_of_lt fits]

theorem tss_rsp0 (t : Tss) : tableField t.bytes 4 8 = t.rsp0.toNat :=
  field_of_table (littleEndianBytes_length 4 _) (Nat.lt_of_lt_of_eq t.rsp0.toNat_lt (by decide))

theorem tss_io_map (t : Tss) : tableField t.bytes 102 2 = t.ioMapBaseAddress.toNat := by
  let words := [t.rsp1, t.rsp2, t.reserved1, t.ist1, t.ist2, t.ist3, t.ist4, t.ist5, t.ist6, t.ist7,
    t.reserved2].flatMap fun word => littleEndianBytes 8 word.toNat
  let front := littleEndianBytes 4 t.reserved0.toNat ++ (littleEndianBytes 8 t.rsp0.toNat ++
    (words ++ littleEndianBytes 2 t.reserved3.toNat))
  have split : t.bytes = front ++ (littleEndianBytes 2 t.ioMapBaseAddress.toNat ++ []) := by
    simp only [Tss.bytes, front, words, List.append_nil, List.append_assoc]
  have length : front.length = 102 := by simp [front, words]
  rw [split]
  exact field_of_table length (Nat.lt_of_lt_of_eq t.ioMapBaseAddress.toNat_lt (by decide))

theorem tss_descriptor_low (base : UInt64) :
    (tssDescriptor base).1.low.toNat = 103 + 2 ^ 16 * (base.toNat % 2 ^ 16) := by
  have masked : base.toNat &&& 65535 = base.toNat % 65536 :=
    Nat.and_two_pow_sub_one_eq_mod base.toNat 16
  have joined := @or_field 103 16 (by decide) (base.toNat % 65536)
  have limit : (UInt64.ofNat (sizeofTss - 1) &&& 0xffff).toNat = 103 := by decide
  simp only [tssDescriptor, UInt64.toNat_toUInt32, UInt64.toNat_or, limit, UInt64.toNat_shiftLeft,
    UInt64.toNat_and, UInt64.reduceToNat, Nat.reduceMod, masked, Nat.shiftLeft_eq]
  rw [Nat.mul_comm, Nat.mod_eq_of_lt (b := 2 ^ 64) (by omega)]
  simp only [Nat.reducePow] at joined ⊢
  rw [joined]
  omega

theorem tss_descriptor_high (base : UInt64) :
    (tssDescriptor base).1.high.toNat =
      bitField base.toNat 16 8 + 2 ^ 8 * (0x89 + 2 ^ 16 * bitField base.toNat 24 8) := by
  have low := bitField_lt base.toNat 16 8
  have high := bitField_lt base.toNat 24 8
  have first : (base >>> 16 &&& 0xff).toNat = bitField base.toNat 16 8 := by
    rw [UInt64.toNat_and, shifted base (by decide)]
    exact Nat.and_two_pow_sub_one_eq_mod (base.toNat / 2 ^ 16) 8
  have second : (base &&& 0xff000000).toNat = 2 ^ 24 * bitField base.toNat 24 8 := by
    rw [UInt64.toNat_and]
    exact and_mask base.toNat 24 8
  have flags : (gdtPresent ||| gdtTssAvailable).toNat = 2 ^ 8 * 0x89 := by decide
  have lower := or_field low 0x89
  have upper := @or_field (bitField base.toNat 16 8 + 2 ^ 8 * 0x89) 24 (by omega)
    (bitField base.toNat 24 8)
  have number : (gdtPresent ||| gdtTssAvailable ||| (base >>> 16 &&& 0xff) |||
      (base &&& 0xff000000)).toNat =
        bitField base.toNat 16 8 + 2 ^ 8 * 0x89 + 2 ^ 24 * bitField base.toNat 24 8 := by
    rw [UInt64.toNat_or, UInt64.toNat_or, first, second, flags, Nat.or_comm (2 ^ 8 * 0x89), lower,
      upper]
  rw [tssDescriptor]
  simp only [UInt64.toNat_toUInt32, number]
  omega

/-- The bytes of the two rows as the processor reads a system descriptor. -/
theorem decode_tss_descriptor (base : UInt64) :
    decodeSegment (littleEndian (tssDescriptor base).1.bytes) =
      ⟨base.toNat % 2 ^ 32, 103, 9, false, 0, true, false, false, false⟩ := by
  have low := tss_descriptor_low base
  have high := tss_descriptor_high base
  have bound := base.toNat_lt
  have number : littleEndian (tssDescriptor base).1.bytes =
      103 + 2 ^ 16 * (base.toNat % 2 ^ 16) + 2 ^ 32 * (bitField base.toNat 16 8 +
        2 ^ 8 * (0x89 + 2 ^ 16 * bitField base.toNat 24 8)) := by
    rw [GdtEntry.bytes, littleEndian_append, littleEndian_bytes, littleEndian_bytes,
      littleEndianBytes_length, low, high]
    simp only [bitField]
    omega
  generalize littleEndian (tssDescriptor base).1.bytes = n at number
  simp only [bitField, Nat.reducePow] at number
  have address : bitField n 16 24 + 2 ^ 24 * bitField n 56 8 = base.toNat % 2 ^ 32 := by
    simp only [bitField, Nat.reducePow]
    omega
  have limit : bitField n 0 16 + 2 ^ 16 * bitField n 48 4 = 103 := by
    simp only [bitField, Nat.reducePow]
    omega
  have type : bitField n 40 4 = 9 ∧ bitField n 44 1 = 0 ∧ bitField n 45 2 = 0 ∧
      bitField n 47 1 = 1 := by
    simp only [bitField, Nat.reducePow]
    omega
  have flags : bitField n 53 1 = 0 ∧ bitField n 54 1 = 0 ∧ bitField n 55 1 = 0 := by
    simp only [bitField, Nat.reducePow]
    omega
  simp only [decodeSegment, address, limit, type, flags]
  rfl

section

variable (mode : CpuMode) (tssBase : UInt64) (tss : Tss) (exceptionHandlers : Fin 22 → UInt64)

theorem gate_inside (v : Fin 22) :
    (descriptorTables mode tssBase tss exceptionHandlers).gate v =
      some ⟨(exceptionHandlers v).toNat, 8, 0, 15, if v.val = 3 then 3 else 0, true⟩ := by
  have inside : v.val < (setupIdt exceptionHandlers).length := by simp [setupIdt]
  have entry : (setupIdt exceptionHandlers)[v.val] = idtEntry v (exceptionHandlers v) :=
    List.getElem_ofFn _
  have limit : 16 * v.val + 15 ≤ 22 * 16 - 1 := by omega
  have record := table_record IdtEntry.bytes_length inside
  rw [DescriptorTables.gate, descriptorTables, if_pos limit, tableField, record, entry,
    decodeGate_entry]

theorem gate_outside {v : Nat} (outside : 22 ≤ v) :
    (descriptorTables mode tssBase tss exceptionHandlers).gate v = none :=
  if_neg (by simp only [descriptorTables]; omega)

theorem segment_of_row {selector : UInt64} (index : Nat)
    (here : bitField selector.toNat 3 13 = index ∧ bitField selector.toNat 2 1 = 0)
    (row : index ≠ 0) (inside : index < 7) :
    (descriptorTables mode tssBase tss exceptionHandlers).segment selector =
      some (decodeSegment (littleEndian ((setupGdt mode tssBase).get ⟨index, inside⟩).bytes)) := by
  have limit : index ≠ 0 ∧ (0 : Nat) = 0 ∧ 8 * index + 7 ≤ 7 * 8 - 1 := ⟨row, rfl, by omega⟩
  have record := @table_record _ _ _ GdtEntry.bytes_length (setupGdt mode tssBase) index inside
  rw [DescriptorTables.segment, DescriptorTables.descriptor, here.1, here.2, descriptorTables,
    if_pos limit, tableField, record, Option.map_some]
  rfl

theorem segment_code0 :
    (descriptorTables mode tssBase tss exceptionHandlers).segment 0x8 =
      some ⟨0, 0xfffff, 11, true, 0, true, true, false, true⟩ := by
  rw [segment_of_row mode tssBase tss exceptionHandlers 1 (by decide) (by decide)
    (by decide)]
  exact congrArg some decodeSegment_flat.1

theorem segment_data0 :
    (descriptorTables mode tssBase tss exceptionHandlers).segment 0x10 =
      some ⟨0, 0xfffff, 3, true, 0, true, false, false, true⟩ := by
  rw [segment_of_row mode tssBase tss exceptionHandlers 2 (by decide) (by decide)
    (by decide)]
  exact congrArg some decodeSegment_flat.2.1

theorem segment_code3 :
    (descriptorTables mode tssBase tss exceptionHandlers).segment 0x1b =
      some ⟨0, 0xfffff, 11, true, 3, true, mode == .mode64, mode == .mode32, true⟩ := by
  rw [segment_of_row mode tssBase tss exceptionHandlers 3 (by decide) (by decide)
    (by decide)]
  exact congrArg some (decodeSegment_flat.2.2.2 mode)

theorem segment_data3 :
    (descriptorTables mode tssBase tss exceptionHandlers).segment 0x23 =
      some ⟨0, 0xfffff, 3, true, 3, true, false, false, true⟩ := by
  rw [segment_of_row mode tssBase tss exceptionHandlers 4 (by decide) (by decide)
    (by decide)]
  exact congrArg some decodeSegment_flat.2.2.1

theorem exception_target (v : Fin 22) :
    (descriptorTables mode tssBase tss exceptionHandlers).exceptionTarget v =
      some (exceptionHandlers v) := by
  have code : ∀ g : Gate, g.selector = 8 →
      (descriptorTables mode tssBase tss exceptionHandlers).gateCode g = true := by
    intro g selector
    rw [DescriptorTables.gateCode, selector, segment_code0 mode tssBase tss exceptionHandlers]
    rfl
  have reached := code ⟨(exceptionHandlers v).toNat, 8, 0, 15, if v.val = 3 then 3 else 0, true⟩ rfl
  rw [DescriptorTables.exceptionTarget, gate_inside]
  simp only [reached, and_self, if_true, UInt64.ofNat_toNat]

/-- Every exception the stubs know goes on at its stub, and the processor finds no gate for
another. Of the 256 software interrupts of user code, 3 is delivered as the breakpoint, and
every other one as a general protection fault that names it. -/
theorem interrupts_delivered :
    (∀ v : Fin 22, (descriptorTables mode tssBase tss exceptionHandlers).exceptionTarget v =
      some (exceptionHandlers v)) ∧
    (∀ v, 22 ≤ v →
      (descriptorTables mode tssBase tss exceptionHandlers).exceptionTarget v = none) ∧
    ∀ n, (descriptorTables mode tssBase tss exceptionHandlers).softwareInterrupt 3 n =
      if n = 3 then (3, none) else (13, some (8 * n + 2)) := by
  refine ⟨exception_target mode tssBase tss exceptionHandlers, ?_, ?_⟩
  · intro v outside
    rw [DescriptorTables.exceptionTarget, gate_outside mode tssBase tss exceptionHandlers outside]
  · intro n
    by_cases known : n < 22
    · have gate := gate_inside mode tssBase tss exceptionHandlers ⟨n, known⟩
      simp only at gate
      simp only [DescriptorTables.softwareInterrupt, gate, Bool.not_true, Bool.false_eq_true,
        if_false]
      by_cases breakpoint : n = 3
      · simp [breakpoint]
      · simp [breakpoint]
    · have outside := gate_outside mode tssBase tss exceptionHandlers (Nat.not_lt.mp known)
      have other : n ≠ 3 := by omega
      simp [DescriptorTables.softwareInterrupt, outside, other]

theorem loads_task :
    (descriptorTables mode tssBase tss exceptionHandlers).loadsTask 0x28 =
      some (⟨tssBase.toNat % 2 ^ 32, 103, 9, false, 0, true, false, false, false⟩,
        tssBase.toNat) := by
  have bound := tssBase.toNat_lt
  have segment : (descriptorTables mode tssBase tss exceptionHandlers).segment 0x28 =
      some ⟨tssBase.toNat % 2 ^ 32, 103, 9, false, 0, true, false, false, false⟩ := by
    rw [segment_of_row mode tssBase tss exceptionHandlers 5 (by decide) (by decide)
      (by decide)]
    exact congrArg some (decode_tss_descriptor tssBase)
  have second : tableField (descriptorTables mode tssBase tss exceptionHandlers).gdt 48 4 =
      tssBase.toNat / 2 ^ 32 := by
    have front : ((setupGdt mode tssBase).take 6).flatMap GdtEntry.bytes ++
        (littleEndianBytes 4 (tssBase >>> 32).toUInt32.toNat ++ littleEndianBytes 4 0) =
          (descriptorTables mode tssBase tss exceptionHandlers).gdt := by
      simp [descriptorTables, setupGdt, GdtEntry.bytes, tssDescriptor]
    have length : (((setupGdt mode tssBase).take 6).flatMap GdtEntry.bytes).length = 48 := by
      simp [setupGdt, GdtEntry.bytes_length]
    rw [← front, field_of_table length (Nat.lt_of_lt_of_eq (UInt32.toNat_lt _) (by decide)),
      high_half]
  have index : bitField (0x28 : UInt64).toNat 3 13 = 5 := by decide
  have limit : (descriptorTables mode tssBase tss exceptionHandlers).gdtLimit = 55 := rfl
  simp only [DescriptorTables.loadsTask, segment, index, limit]
  rw [if_pos (by decide), second]
  congr 2
  omega

theorem loads_segments :
    (descriptorTables mode tssBase tss exceptionHandlers).loadSegments 0x8 0x10 0x28 =
      some (⟨tssBase.toNat % 2 ^ 32, 103, 9, false, 0, true, false, false, false⟩,
        tssBase.toNat) := by
  have code := segment_code0 mode tssBase tss exceptionHandlers
  have data := segment_data0 mode tssBase tss exceptionHandlers
  rw [DescriptorTables.loadSegments, if_pos, loads_task]
  simp only [DescriptorTables.returnsTo, DescriptorTables.loadsData, DescriptorTables.loadsStack,
    code, data]
  decide

/-- The selectors `iretq` takes to user mode. -/
theorem returns_to_user :
    (descriptorTables mode tssBase tss exceptionHandlers).returnsTo 0 0x1b = true ∧
      (descriptorTables mode tssBase tss exceptionHandlers).loadsStack 3 0x23 = true := by
  have code := segment_code3 mode tssBase tss exceptionHandlers
  have data := segment_data3 mode tssBase tss exceptionHandlers
  simp only [DescriptorTables.returnsTo, DescriptorTables.loadsStack, code, data]
  cases mode <;> decide

end

/-- The selectors the program loads pass the processor's checks in every build, the task
register gets the address of `tss`, the stack for exceptions is the one `set_tss_rsp0` was
given, and no I/O port is open to user code. -/
theorem segments_loaded (mode : CpuMode) (tssBase newRsp0 : UInt64)
    (exceptionHandlers : Fin 22 → UInt64) :
    let t := descriptorTables mode tssBase (setTssRsp0 newRsp0 Tss.initial) exceptionHandlers
    (∃ task, t.loadSegments 0x8 0x10 0x28 = some (task, tssBase.toNat) ∧
      ∀ port, t.portAllowed task.lastByte port = false) ∧
    t.rsp0 = newRsp0 ∧
    t.returnsTo 0 0x1b = true ∧ t.loadsStack 3 0x23 = true ∧
    t.segment 0x1b = some ⟨0, 0xfffff, 11, true, 3, true, mode == .mode64, mode == .mode32, true⟩ := by
  intro t
  have user := returns_to_user mode tssBase (setTssRsp0 newRsp0 Tss.initial) exceptionHandlers
  refine ⟨⟨_, loads_segments mode tssBase _ exceptionHandlers, ?_⟩, ?_, user.1, user.2,
    segment_code3 mode tssBase _ exceptionHandlers⟩
  · intro port
    have place : tableField t.tss 102 2 = 103 := tss_io_map _
    simp only [DescriptorTables.portAllowed, place, Segment.lastByte]
    -- the second of the two bytes already lies behind the last byte of the segment
    have behind : ¬ 103 + port.toNat / 8 + 1 ≤ 103 := by omega
    simp [behind]
  · have read : tableField t.tss 4 8 = newRsp0.toNat := tss_rsp0 _
    rw [DescriptorTables.rsp0, read, UInt64.ofNat_toNat]

end PmcBruteforce
