import PmcBruteforce.SaveFile.Format
import PmcBruteforce.Search.Run

/-! The record of an entry, and what saving does to the file. -/
namespace PmcBruteforce

variable {b : Build}

def savedRecord (e : Entry b) : SavedRecord where
  exceptionNumber := UInt8.ofNat e.response.context.exceptionNumber
  errorCode := none
  extraData :=
    if (classified e.job.state e.response).extraInfoPresent then
      some (classified e.job.state e.response).extraInfo
    else none
  counters := e.response.counters.toList
  instructionType := (classified e.job.state e.response).instructionType.code
  instruction := e.job.state.currentInstruction

theorem savedRecord_valid (e : Entry b) (searching : Searching e.job.state) :
    (writtenFormat b).valid (savedRecord e) where
  exceptionNumber := by
    have h := Record.number_toNat e.response.context.exceptionNumber
    simp only [savedRecord, UInt8.lt_iff_toNat_lt, h, UInt8.reduceToNat]
    omega
  errorCode := rfl
  counters := by simp [savedRecord]
  instructionType := InstructionType.code_lt _
  instruction := by
    have bound := searching.length
    simp only [savedRecord, State.currentInstruction, Buffer.string_length _ _ bound]
    exact bound

theorem emits_saveClassified (saving : b.noSave = false) (p : Platform) (i : List UInt8)
    (s : State b) (r : Response b) (searching : Searching s) :
    Emits (fun f => saveClassified p r (classified s r) { afterSwitch s r with saveFile := f })
      (savedRecord ⟨⟨i, s⟩, r⟩).encode := by
  have bytes : (afterSwitch s r).instructionBytes = s.instructionBytes ∧
      (afterSwitch s r).curInstructionLength = s.curInstructionLength := by
    unfold afterSwitch
    split <;> exact ⟨rfl, rfl⟩
  have inside : s.curInstructionLength ≤ s.instructionBytes.bytes.length := by
    rw [s.instructionBytes.size]
    exact searching.length
  have emits := emits_saveInstructionData b saving p r.context
    (classified s r).instructionType s.instructionBytes.bytes s.curInstructionLength inside
    (classified s r).extraInfoPresent (classified s r).extraInfo r.counters.toList
  simp only [saveClassified, bytes.1, bytes.2]
  exact emits

end PmcBruteforce
