import PmcBruteforce.SaveFile.Writes

/-! The handle of the save file. Each function is described by the calls it adds to the log
and by whether these went through an open file. -/
namespace PmcBruteforce

namespace SaveFile

/-- Every call so far was made through a file that Open had returned and Close had not closed. -/
def HandleValid (f : SaveFile) : Prop := ∀ c ∈ f.calls, c.throughOpenFile = true

instance (f : SaveFile) : Decidable f.HandleValid :=
  inferInstanceAs (Decidable (∀ c ∈ f.calls, c.throughOpenFile = true))

/-- `f'` is `f` after more calls, with the handle as it was. -/
structure Through (f f' : SaveFile) : Prop where
  isOpen : f'.isOpen = f.isOpen
  calls : ∃ cs, f'.calls = cs ++ f.calls ∧ ∀ c ∈ cs, c.throughOpenFile = f.isOpen

theorem Through.refl (f : SaveFile) : f.Through f := ⟨rfl, [], rfl, by simp⟩

theorem Through.trans {f g h : SaveFile} (first : f.Through g) (second : g.Through h) :
    f.Through h := by
  obtain ⟨cs, hcs, through⟩ := first.calls
  obtain ⟨ds, hds, through'⟩ := second.calls
  refine ⟨second.isOpen.trans first.isOpen, ds ++ cs, by rw [hds, hcs, List.append_assoc], ?_⟩
  intro c hc
  rcases List.mem_append.mp hc with hc | hc
  · rw [through' c hc, first.isOpen]
  · exact through c hc

theorem through_logCall (f : SaveFile) (method : FileMethod) (status : EfiStatus) :
    f.Through (f.logCall method status) :=
  ⟨rfl, [⟨method, status, f.isOpen⟩], rfl, by simp⟩

theorem Through.valid {f f' : SaveFile} (h : f.Through f') (isOpen : f.isOpen = true)
    (valid : f.HandleValid) : f'.HandleValid := by
  obtain ⟨cs, hcs, through⟩ := h.calls
  intro c hc
  rw [hcs] at hc
  rcases List.mem_append.mp hc with hc | hc
  · rw [through c hc, isOpen]
  · exact valid c hc

theorem Through.invalid {f f' : SaveFile} (h : f.Through f') (invalid : ¬ f.HandleValid) :
    ¬ f'.HandleValid := by
  obtain ⟨cs, hcs, -⟩ := h.calls
  intro valid
  apply invalid
  intro c hc
  apply valid c
  rw [hcs]
  exact List.mem_append_right cs hc

end SaveFile

/-- A writer that uses the handle and leaves it as it is. -/
def Uses (w : SaveFile → EfiStatus × SaveFile) : Prop := ∀ f : SaveFile, f.Through (w f).2

theorem uses_nothing : Uses fun f => (efiSuccess, f) := fun f => .refl f

theorem uses_saveData (p : Platform) (data : List UInt8) : Uses (saveData p data) :=
  fun f => ⟨rfl, [⟨.write, f.writeStatus p data, f.isOpen⟩], rfl, by simp⟩

theorem uses_unlessFailed {w w' : SaveFile → EfiStatus × SaveFile} (h : Uses w) (h' : Uses w') :
    Uses fun f => unlessFailed (w f) w' := by
  intro f
  simp only [unlessFailed]
  split
  · exact h f
  · exact (h f).trans (h' _)

theorem uses_if (c : Prop) [Decidable c] {w : SaveFile → EfiStatus × SaveFile} (h : Uses w) :
    Uses fun f => if c then w f else (efiSuccess, f) := by
  by_cases holds : c
  · simpa only [if_pos holds] using h
  · simpa only [if_neg holds] using uses_nothing

theorem uses_saveUint64Array (p : Platform) (values : List UInt64) :
    Uses (saveUint64Array p values) := by
  induction values with
  | nil => exact uses_nothing
  | cons value values ih => exact uses_unlessFailed (uses_saveData p _) ih

theorem uses_saveInstructionData (b : Build) (p : Platform) (context : Context)
    (instructionType : InstructionType b) (instructionBytes : List UInt8) (length : Nat)
    (present : Bool) (extraData : UInt64) (counters : List UInt64) :
    Uses (saveInstructionData b p context instructionType instructionBytes length present
      extraData counters) := by
  have saving := uses_unlessFailed (uses_saveData p [exceptionByte context present])
    (uses_unlessFailed
      (uses_if (((exceptionByte context present).toUInt64 &&& exceptionsWithErrorCodeMask) != 0)
        (uses_saveData p (saveUint64Bytes context.errorCode)))
      (uses_unlessFailed (uses_if (present = true) (uses_saveData p (saveUint64Bytes extraData)))
        (uses_unlessFailed (uses_saveUint64Array p counters)
          (uses_unlessFailed (uses_saveData p [lengthByte instructionType length])
            (uses_saveData p (instructionBytes.take length))))))
  intro f
  unfold saveInstructionData
  split
  · exact .refl f
  · exact saving f

/-- The array has an element, so there is a Write. -/
theorem saveUint64Array_writes (p : Platform) (value : UInt64) (values : List UInt64)
    (f : SaveFile) :
    ∃ c ∈ (saveUint64Array p (value :: values) f).2.calls, c.throughOpenFile = f.isOpen := by
  let c : FileCall := ⟨.write, f.writeStatus p (saveUint64Bytes value), f.isOpen⟩
  have first : c ∈ (saveUint64 p value f).2.calls := List.mem_cons_self
  refine ⟨c, ?_, rfl⟩
  unfold saveUint64Array unlessFailed
  split
  · exact first
  · obtain ⟨cs, hcs, -⟩ := (uses_saveUint64Array p values (saveUint64 p value f).2).calls
    rw [hcs]
    exact List.mem_append_right cs first

section

variable (b : Build) (p : Platform)

theorem through_flushSaveFile (f : SaveFile) : f.Through (flushSaveFile b p f) := by
  unfold flushSaveFile
  split
  · exact .refl f
  · exact f.through_logCall _ _

theorem through_getSaveFilePosition (f : SaveFile) : f.Through (getSaveFilePosition b p f) := by
  unfold getSaveFilePosition
  split
  · exact .refl f
  · exact f.through_logCall _ _

theorem closeSaveFile_valid {f : SaveFile} (valid : f.HandleValid)
    (usable : b.noSave = false → f.isOpen = true) : (closeSaveFile b p f).HandleValid := by
  unfold closeSaveFile
  cases saving : b.noSave with
  | true => simpa using valid
  | false => exact (f.through_logCall .close _).valid (usable saving) valid

theorem closeSaveFile_invalid {f : SaveFile} (invalid : ¬ f.HandleValid) :
    ¬ (closeSaveFile b p f).HandleValid := by
  unfold closeSaveFile
  cases b.noSave with
  | true => simpa using invalid
  | false => exact (f.through_logCall .close (p.fileStatus f.calls.length)).invalid invalid

end

end PmcBruteforce
