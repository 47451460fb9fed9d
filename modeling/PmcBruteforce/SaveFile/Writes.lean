import PmcBruteforce.Library.Base128
import PmcBruteforce.Machine.Build

/-! The functions of save_file.c that the running search calls, over a model of the file
and of the log of calls made through `output_file`. -/
namespace PmcBruteforce

inductive FileMethod where
  | getInfo | setInfo | write | flush | getPosition | close
  deriving DecidableEq, Repr

structure FileCall where
  method : FileMethod
  status : EfiStatus
  throughOpenFile : Bool
  deriving DecidableEq, Repr

/-- `isOpen` says that `output_file` is not NULL. The newest call is the first. -/
structure SaveFile where
  isOpen : Bool
  content : List UInt8
  calls : List FileCall
  deriving DecidableEq, Repr

namespace SaveFile

/-- The file `open_save_file` leaves when it returns EFI_SUCCESS: open and of size 0. -/
def opened : SaveFile := ⟨true, [], []⟩

def logCall (f : SaveFile) (method : FileMethod) (status : EfiStatus) : SaveFile :=
  { f with calls := ⟨method, status, f.isOpen⟩ :: f.calls }

/-- The status of the next Write. The position is a UINT64, so a file that would outgrow it
is full whatever the firmware answers. -/
def writeStatus (p : Platform) (data : List UInt8) (f : SaveFile) : EfiStatus :=
  if f.content.length + data.length < 2 ^ 64 then p.fileStatus f.calls.length
  else efiVolumeFull

/-- `output_file->Write`. A failing Write may store a part of the data. -/
def write (p : Platform) (data : List UInt8) (f : SaveFile) : EfiStatus × SaveFile :=
  let status := f.writeStatus p data
  let stored :=
    if !f.isOpen then []
    else if status = efiSuccess then data
    else data.take (p.stored f.calls.length)
  (status, { f with content := f.content ++ stored }.logCall .write status)

end SaveFile

def saveData (p : Platform) (data : List UInt8) (f : SaveFile) : EfiStatus × SaveFile :=
  f.write p data

def saveUint64Bytes (value : UInt64) : List UInt8 :=
  if value ≥ 128 then
    ((value &&& 127) ||| 128).toUInt8 :: saveUint64Bytes (value >>> 7)
  else [value.toUInt8]
termination_by value.toNat
decreasing_by
  rename_i h
  have large : 128 ≤ value.toNat := UInt64.le_iff_toNat_le.mp h
  rw [UInt64.toNat_shiftRight]
  simp only [UInt64.reduceToNat, Nat.reduceMod, Nat.shiftRight_eq_div_pow, Nat.reducePow]
  omega

def saveUint64 (p : Platform) (value : UInt64) (f : SaveFile) : EfiStatus × SaveFile :=
  saveData p (saveUint64Bytes value) f

/-- `if (status != EFI_SUCCESS) return status;` between a write and what follows it. -/
def unlessFailed (result : EfiStatus × SaveFile) (next : SaveFile → EfiStatus × SaveFile) :
    EfiStatus × SaveFile :=
  if result.1 != efiSuccess then result else next result.2

def saveUint64Array (p : Platform) : List UInt64 → SaveFile → EfiStatus × SaveFile
  | [], f => (efiSuccess, f)
  | value :: values, f => unlessFailed (saveUint64 p value f) (saveUint64Array p values)

def extraDataPresentFlag : UInt8 := 0x80

def exceptionByte (context : Context) (extraDataPresent : Bool) : UInt8 :=
  let exceptionNumber := UInt8.ofNat context.exceptionNumber
  if extraDataPresent then exceptionNumber ||| extraDataPresentFlag else exceptionNumber

def lengthByte {b : Build} (instructionType : InstructionType b) (length : Nat) : UInt8 :=
  UInt8.ofNat length ||| (instructionType.code <<< 4)

/-- `save_instruction_data`. The test for the error code is the one of the source: it masks
the exception byte itself, not the bit that the exception number selects. -/
def saveInstructionData (b : Build) (p : Platform) (context : Context)
    (instructionType : InstructionType b) (instructionBytes : List UInt8) (length : Nat)
    (extraDataPresent : Bool) (extraData : UInt64) (perfCountersValues : List UInt64)
    (f : SaveFile) : EfiStatus × SaveFile :=
  if b.noSave then (efiSuccess, f)
  else
    let exceptionNumber := exceptionByte context extraDataPresent
    unlessFailed (saveData p [exceptionNumber] f) fun f =>
    unlessFailed
      (if (exceptionNumber.toUInt64 &&& exceptionsWithErrorCodeMask) != 0 then
        saveUint64 p context.errorCode f
      else (efiSuccess, f)) fun f =>
    unlessFailed
      (if extraDataPresent then saveUint64 p extraData f else (efiSuccess, f)) fun f =>
    unlessFailed (saveUint64Array p perfCountersValues f) fun f =>
    unlessFailed (saveData p [lengthByte instructionType length] f) fun f =>
    saveData p (instructionBytes.take length) f

def flushSaveFile (b : Build) (p : Platform) (f : SaveFile) : SaveFile :=
  if b.noSave then f else f.logCall .flush (p.fileStatus f.calls.length)

/-- `get_save_file_position`, whose result is only printed. -/
def getSaveFilePosition (b : Build) (p : Platform) (f : SaveFile) : SaveFile :=
  if b.noSave then f else f.logCall .getPosition (p.fileStatus f.calls.length)

def closeSaveFile (b : Build) (p : Platform) (f : SaveFile) : SaveFile :=
  if b.noSave then f
  else { f.logCall .close (p.fileStatus f.calls.length) with isOpen := false }

end PmcBruteforce
