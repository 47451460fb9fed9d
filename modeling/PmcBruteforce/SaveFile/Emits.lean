import PmcBruteforce.SaveFile.Writes

/-! What a sequence of writes does to the file: either every Write succeeded and the data
was appended, or the newest call in the log is the one Write that failed. -/
namespace PmcBruteforce

theorem saveUint64Bytes_eq (value : UInt64) :
    saveUint64Bytes value = Library.Base128.encode value.toNat := by
  induction value using saveUint64Bytes.induct with
  | case1 value large ih =>
    have large' : ¬ value.toNat < 128 := Nat.not_lt.mpr (UInt64.le_iff_toNat_le.mp large)
    have shifted : (value >>> 7).toNat = value.toNat / 128 := by
      rw [UInt64.toNat_shiftRight]
      simp [Nat.shiftRight_eq_div_pow]
    have low : ((value &&& 127) ||| 128).toUInt8 = UInt8.ofNat (value.toNat % 128 + 128) := by
      apply UInt8.toNat_inj.mp
      have masked : value.toNat &&& 127 = value.toNat % 128 :=
        Nat.and_two_pow_sub_one_eq_mod value.toNat 7
      have flagged : value.toNat % 128 ||| 128 = value.toNat % 128 + 128 := by
        have h := Nat.two_pow_add_eq_or_of_lt (show value.toNat % 128 < 2 ^ 7 by omega) 1
        rw [Nat.or_comm, Nat.add_comm]
        exact h.symm
      simp only [UInt64.toNat_toUInt8, UInt64.toNat_or, UInt64.toNat_and, UInt64.reduceToNat,
        masked, flagged, UInt8.toNat_ofNat']
    rw [saveUint64Bytes, if_pos large, ih, shifted, low, Library.Base128.encode_large large']
  | case2 value small =>
    have small' : value.toNat < 128 := by
      have h := mt UInt64.le_iff_toNat_le.mpr small
      exact Nat.not_le.mp h
    rw [saveUint64Bytes, if_neg small, Library.Base128.encode_small small']
    rfl

/-- The bytes fit `out_value`, which has `sizeof(value)*8/7 + 1` of them. -/
theorem saveUint64Bytes_length (value : UInt64) :
    (saveUint64Bytes value).length ≤ 8 * 8 / 7 + 1 := by
  rw [saveUint64Bytes_eq]
  exact Library.Base128.encode_length_le 9 _ (lt_trans value.toNat_lt (by decide))

def FileCall.Written (c : FileCall) : Prop := c.method = .write ∧ c.status = efiSuccess

def FileCall.WriteFailed (c : FileCall) : Prop := c.method = .write ∧ c.status ≠ efiSuccess

namespace SaveFile

/-- The file is open, its size fits the position, and no Write has failed. -/
structure Healthy (f : SaveFile) : Prop where
  isOpen : f.isOpen = true
  size : f.content.length < 2 ^ 64

/-- `f'` is `f` with `data` appended by successful Writes. -/
structure Appended (f f' : SaveFile) (data : List UInt8) : Prop where
  healthy : f'.Healthy
  content : f'.content = f.content ++ data
  calls : ∃ cs, f'.calls = cs ++ f.calls ∧ ∀ c ∈ cs, c.Written

/-- The newest call of `f'` is a failed Write, and those since `f` before it succeeded. -/
def Failed (f f' : SaveFile) : Prop :=
  ∃ c cs, f'.calls = c :: cs ++ f.calls ∧ c.WriteFailed ∧ ∀ d ∈ cs, d.Written

end SaveFile

/-- A writer that emits `data` or fails at one of its Writes. -/
def Emits (w : SaveFile → EfiStatus × SaveFile) (data : List UInt8) : Prop :=
  ∀ f, f.Healthy →
    ((w f).1 = efiSuccess ∧ f.Appended (w f).2 data) ∨
      ((w f).1 ≠ efiSuccess ∧ f.Failed (w f).2)

theorem emits_nothing : Emits (fun f => (efiSuccess, f)) [] :=
  fun f healthy => .inl ⟨rfl, healthy, by simp, [], rfl, by simp⟩

theorem writeStatus_room {p : Platform} {data : List UInt8} {f : SaveFile}
    (good : f.writeStatus p data = efiSuccess) : f.content.length + data.length < 2 ^ 64 := by
  unfold SaveFile.writeStatus at good
  split at good
  · assumption
  · exact absurd good (by decide)

theorem emits_saveData (p : Platform) (data : List UInt8) : Emits (saveData p data) data := by
  intro f healthy
  by_cases good : f.writeStatus p data = efiSuccess
  · have content : (saveData p data f).2.content = f.content ++ data := by
      simp [saveData, SaveFile.write, SaveFile.logCall, healthy.isOpen, good]
    refine .inl ⟨good, ⟨healthy.isOpen, ?_⟩, content, ?_⟩
    · rw [content, List.length_append]
      exact writeStatus_room good
    · exact ⟨[⟨.write, f.writeStatus p data, f.isOpen⟩], rfl, by simp [FileCall.Written, good]⟩
  · exact .inr ⟨good, ⟨.write, f.writeStatus p data, f.isOpen⟩, [], rfl, ⟨rfl, good⟩, by simp⟩

theorem emits_unlessFailed {w w' : SaveFile → EfiStatus × SaveFile} {data data' : List UInt8}
    (h : Emits w data) (h' : Emits w' data') :
    Emits (fun f => unlessFailed (w f) w') (data ++ data') := by
  intro f healthy
  rcases h f healthy with ⟨good, first⟩ | ⟨bad, failed⟩
  · have proceed : unlessFailed (w f) w' = w' (w f).2 := by simp [unlessFailed, good]
    obtain ⟨cs, hcs, written⟩ := first.calls
    simp only [proceed]
    rcases h' (w f).2 first.healthy with ⟨good', second⟩ | ⟨bad', c, ds, hds, failed, written'⟩
    · obtain ⟨ds, hds, written'⟩ := second.calls
      refine .inl ⟨good', second.healthy, ?_, ds ++ cs, ?_, ?_⟩
      · rw [second.content, first.content, List.append_assoc]
      · rw [hds, hcs, List.append_assoc]
      · intro c hc
        rcases List.mem_append.mp hc with hc | hc
        · exact written' c hc
        · exact written c hc
    · refine .inr ⟨bad', c, ds ++ cs, ?_, failed, ?_⟩
      · rw [hds, hcs]
        simp
      · intro d hd
        rcases List.mem_append.mp hd with hd | hd
        · exact written' d hd
        · exact written d hd
  · have stop : unlessFailed (w f) w' = w f := by simp [unlessFailed, bad]
    simp only [stop]
    exact .inr ⟨bad, failed⟩

theorem emits_saveUint64 (p : Platform) (value : UInt64) :
    Emits (saveUint64 p value) (Library.Base128.word.encode value) := by
  rw [Library.Base128.word_encode, ← saveUint64Bytes_eq]
  exact emits_saveData p _

theorem emits_saveUint64Array (p : Platform) (values : List UInt64) :
    Emits (saveUint64Array p values) (values.flatMap Library.Base128.word.encode) := by
  induction values with
  | nil => exact emits_nothing
  | cons value values ih => exact emits_unlessFailed (emits_saveUint64 p value) ih

theorem emits_if (c : Prop) [Decidable c] {w : SaveFile → EfiStatus × SaveFile}
    {data : List UInt8} (h : Emits w data) :
    Emits (fun f => if c then w f else (efiSuccess, f)) (if c then data else []) := by
  by_cases hc : c
  · simpa only [if_pos hc] using h
  · simpa only [if_neg hc] using emits_nothing

/-- The mask of `save_instruction_data` has no bit below 8, and a byte has none above 7:
the branch that would write the error code is never taken. -/
theorem error_code_test_false (byte : UInt8) :
    (byte.toUInt64 &&& exceptionsWithErrorCodeMask) = 0 := by
  apply UInt64.toNat_inj.mp
  have table : ∀ n : Fin 256, n.val &&& exceptionsWithErrorCodeMask.toNat = 0 := by
    decide +kernel
  rw [UInt64.toNat_and, UInt8.toNat_toUInt64]
  exact table ⟨byte.toNat, byte.toNat_lt⟩

/-- The bytes of one record as `save_instruction_data` emits them. -/
def recordBytes {b : Build} (context : Context) (instructionType : InstructionType b)
    (instruction : List UInt8) (extraData : Option UInt64) (counters : List UInt64) :
    List UInt8 :=
  exceptionByte context extraData.isSome ::
    (extraData.toList.flatMap Library.Base128.word.encode ++
      (counters.flatMap Library.Base128.word.encode ++
        (lengthByte instructionType instruction.length :: instruction)))

theorem emits_saveInstructionData (b : Build) (saving : b.noSave = false) (p : Platform)
    (context : Context) (instructionType : InstructionType b) (instructionBytes : List UInt8)
    (length : Nat) (inside : length ≤ instructionBytes.length) (present : Bool)
    (extraData : UInt64) (counters : List UInt64) :
    Emits (saveInstructionData b p context instructionType instructionBytes length present
        extraData counters)
      (recordBytes context instructionType (instructionBytes.take length)
        (if present then some extraData else none) counters) := by
  have h := emits_unlessFailed (emits_saveData p [exceptionByte context present])
    (emits_unlessFailed emits_nothing
      (emits_unlessFailed
        (emits_if (present = true) (emits_saveUint64 p extraData))
        (emits_unlessFailed (emits_saveUint64Array p counters)
          (emits_unlessFailed (emits_saveData p [lengthByte instructionType length])
            (emits_saveData p (instructionBytes.take length))))))
  have size : (instructionBytes.take length).length = length := List.length_take_of_le inside
  intro f healthy
  have run := h f healthy
  simp only [saveInstructionData, saving, Bool.false_eq_true, if_false, error_code_test_false,
    bne_self_eq_false, recordBytes, size]
  cases present <;> simpa using run

/-! The other calls through the file, and what the log says about failed Writes. -/

namespace SaveFile

def Unfailed (f : SaveFile) : Prop := ∀ c ∈ f.calls, ¬ c.WriteFailed

/-- A Write failed, none before it did, and nothing was written after it. -/
def FailedLast (f : SaveFile) : Prop :=
  ∃ quiet c earlier, f.calls = quiet ++ c :: earlier ∧ (∀ q ∈ quiet, q.method ≠ .write) ∧
    c.WriteFailed ∧ ∀ d ∈ earlier, ¬ d.WriteFailed

/-- `f'` differs from `f` by calls that write nothing, and perhaps in being closed. -/
structure Quiet (f f' : SaveFile) : Prop where
  content : f'.content = f.content
  calls : ∃ cs, f'.calls = cs ++ f.calls ∧ ∀ c ∈ cs, c.method ≠ .write

theorem Quiet.refl (f : SaveFile) : f.Quiet f := ⟨rfl, [], rfl, by simp⟩

theorem Quiet.trans {f g h : SaveFile} (first : f.Quiet g) (second : g.Quiet h) : f.Quiet h := by
  obtain ⟨cs, hcs, quiet⟩ := first.calls
  obtain ⟨ds, hds, quiet'⟩ := second.calls
  refine ⟨second.content.trans first.content, ds ++ cs, by rw [hds, hcs, List.append_assoc], ?_⟩
  intro c hc
  rcases List.mem_append.mp hc with hc | hc
  · exact quiet' c hc
  · exact quiet c hc

theorem Quiet.unfailed {f f' : SaveFile} (h : f.Quiet f') (unfailed : f.Unfailed) :
    f'.Unfailed := by
  obtain ⟨cs, hcs, quiet⟩ := h.calls
  intro c hc
  rw [hcs] at hc
  rcases List.mem_append.mp hc with hc | hc
  · exact fun failed => quiet c hc failed.1
  · exact unfailed c hc

theorem Quiet.failedLast {f f' : SaveFile} (h : f.Quiet f') (failed : f.FailedLast) :
    f'.FailedLast := by
  obtain ⟨cs, hcs, quiet⟩ := h.calls
  obtain ⟨ds, c, earlier, hds, quiet', bad, good⟩ := failed
  refine ⟨cs ++ ds, c, earlier, by rw [hcs, hds, List.append_assoc], ?_, bad, good⟩
  intro q hq
  rcases List.mem_append.mp hq with hq | hq
  · exact quiet q hq
  · exact quiet' q hq

theorem quiet_logCall (f : SaveFile) (method : FileMethod) (status : EfiStatus)
    (other : method ≠ .write) : f.Quiet (f.logCall method status) :=
  ⟨rfl, [⟨method, status, f.isOpen⟩], rfl, by simpa using other⟩

theorem Appended.unfailed {f f' : SaveFile} {data : List UInt8} (h : f.Appended f' data)
    (unfailed : f.Unfailed) : f'.Unfailed := by
  obtain ⟨cs, hcs, written⟩ := h.calls
  intro c hc
  rw [hcs] at hc
  rcases List.mem_append.mp hc with hc | hc
  · exact fun failed => failed.2 (written c hc).2
  · exact unfailed c hc

theorem Failed.failedLast {f f' : SaveFile} (h : f.Failed f') (unfailed : f.Unfailed) :
    f'.FailedLast := by
  obtain ⟨c, cs, hcs, failed, written⟩ := h
  refine ⟨[], c, cs ++ f.calls, hcs, by simp, failed, ?_⟩
  intro d hd
  rcases List.mem_append.mp hd with hd | hd
  · exact fun bad => bad.2 (written d hd).2
  · exact unfailed d hd

end SaveFile

theorem quiet_flushSaveFile (b : Build) (p : Platform) (f : SaveFile) :
    f.Quiet (flushSaveFile b p f) := by
  unfold flushSaveFile
  split
  · exact .refl f
  · exact f.quiet_logCall _ _ (by decide)

theorem quiet_getSaveFilePosition (b : Build) (p : Platform) (f : SaveFile) :
    f.Quiet (getSaveFilePosition b p f) := by
  unfold getSaveFilePosition
  split
  · exact .refl f
  · exact f.quiet_logCall _ _ (by decide)

theorem quiet_closeSaveFile (b : Build) (p : Platform) (f : SaveFile) :
    f.Quiet (closeSaveFile b p f) := by
  unfold closeSaveFile
  split
  · exact .refl f
  · have logged := f.quiet_logCall .close (p.fileStatus f.calls.length) (by decide)
    exact ⟨logged.content, logged.calls⟩

theorem quiet_closing (b : Build) (p : Platform) (f : SaveFile) :
    f.Quiet (closeSaveFile b p (getSaveFilePosition b p f)) :=
  (quiet_getSaveFilePosition b p f).trans (quiet_closeSaveFile b p _)

theorem healthy_flushSaveFile (b : Build) (p : Platform) {f : SaveFile} (h : f.Healthy) :
    (flushSaveFile b p f).Healthy := by
  unfold flushSaveFile
  split
  · exact h
  · exact ⟨h.isOpen, h.size⟩

theorem healthy_getSaveFilePosition (b : Build) (p : Platform) {f : SaveFile} (h : f.Healthy) :
    (getSaveFilePosition b p f).Healthy := by
  unfold getSaveFilePosition
  split
  · exact h
  · exact ⟨h.isOpen, h.size⟩

end PmcBruteforce
