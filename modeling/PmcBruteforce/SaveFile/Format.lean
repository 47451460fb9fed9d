import PmcBruteforce.Prefix.Filter
import PmcBruteforce.SaveFile.Emits

/-! The record format and its decoder. The format has one parameter, the exceptions whose
records hold an error code, so that the format `save_instruction_data` sets out to write
and the one it writes are two instances of one code. -/
namespace PmcBruteforce

structure SavedRecord where
  exceptionNumber : UInt8
  errorCode : Option UInt64
  extraData : Option UInt64
  counters : List UInt64
  instructionType : UInt8
  instruction : List UInt8
  deriving DecidableEq, Repr

namespace SavedRecord

structure Valid (pushes : UInt8 → Bool) (count : Nat) (r : SavedRecord) : Prop where
  exceptionNumber : r.exceptionNumber < 0x80
  errorCode : r.errorCode.isSome = pushes r.exceptionNumber
  counters : r.counters.length = count
  instructionType : r.instructionType < 16
  instruction : r.instruction.length ≤ 15

def encode (r : SavedRecord) : List UInt8 :=
  (if r.extraData.isSome then r.exceptionNumber ||| extraDataPresentFlag
    else r.exceptionNumber) ::
    (r.errorCode.toList.flatMap Library.Base128.word.encode ++
      (r.extraData.toList.flatMap Library.Base128.word.encode ++
        (r.counters.flatMap Library.Base128.word.encode ++
          ((UInt8.ofNat r.instruction.length ||| (r.instructionType <<< 4)) ::
            r.instruction))))

/-- The format, byte by byte: exception number with the flag, error code where the
exception has one, extra data where the flag is set, the counters, type and length in
one byte, and the instruction. -/
def decode (pushes : UInt8 → Bool) (count : Nat) :
    List UInt8 → Option (SavedRecord × List UInt8)
  | [] => none
  | first :: input => do
    let exceptionNumber := first &&& 0x7f
    let (errorCode, input) ←
      (Library.Base128.word.optional (pushes exceptionNumber)).decode input
    let (extraData, input) ←
      (Library.Base128.word.optional (first &&& extraDataPresentFlag != 0)).decode input
    let (counters, input) ← (Library.Base128.word.replicate count).decode input
    match input with
    | [] => none
    | packed :: input =>
      let length := (packed &&& 0x0f).toNat
      if length ≤ input.length then
        some (⟨exceptionNumber, errorCode, extraData, counters, packed >>> 4,
          input.take length⟩, input.drop length)
      else none

theorem first_byte (n : UInt8) (h : n < 0x80) (present : Bool) :
    let first := if present then n ||| extraDataPresentFlag else n
    first &&& 0x7f = n ∧ (first &&& extraDataPresentFlag != 0) = present := by
  revert present h
  induction n using forall_byte
  decide +revert +kernel

theorem packed_byte (t : UInt8) (ht : t < 16) (length : Nat) (h : length ≤ 15) :
    let packed := UInt8.ofNat length ||| (t <<< 4)
    (packed &&& 0x0f).toNat = length ∧ packed >>> 4 = t := by
  have table : ∀ (t : UInt8) (n : Fin 16), t < 16 →
      ((UInt8.ofNat n ||| (t <<< 4)) &&& 0x0f).toNat = n ∧
        (UInt8.ofNat n ||| (t <<< 4)) >>> 4 = t := forall_byte (by decide +kernel)
  exact table t ⟨length, by omega⟩ ht

theorem decode_encode (pushes : UInt8 → Bool) (count : Nat) (r : SavedRecord)
    (valid : r.Valid pushes count) (rest : List UInt8) :
    decode pushes count (r.encode ++ rest) = some (r, rest) := by
  obtain ⟨number, flag⟩ := first_byte r.exceptionNumber valid.exceptionNumber
    r.extraData.isSome
  obtain ⟨size, type⟩ := packed_byte r.instructionType valid.instructionType
    r.instruction.length valid.instruction
  have errorCode := (Library.Base128.word.optional (pushes r.exceptionNumber)).decode_encode
    r.errorCode ⟨valid.errorCode, fun _ _ => trivial⟩
  have extraData := (Library.Base128.word.optional r.extraData.isSome).decode_encode
    r.extraData ⟨rfl, fun _ _ => trivial⟩
  have counters := (Library.Base128.word.replicate count).decode_encode
    r.counters ⟨valid.counters, fun _ _ => trivial⟩
  simp only [Library.Codec.optional, Library.Codec.replicate] at errorCode extraData counters
  simp only [encode, List.cons_append, List.append_assoc, decode, number, flag,
    Library.Codec.optional, Library.Codec.replicate, errorCode, extraData, counters,
    Option.bind_eq_bind, Option.bind_some, size, type, List.length_append, Nat.le_add_right,
    if_true, List.take_left, List.drop_left]

theorem decode_shortest (pushes : UInt8 → Bool) (count : Nat) (input : List UInt8)
    (r : SavedRecord) (rest : List UInt8) (h : decode pushes count input = some (r, rest)) :
    r.encode.length + rest.length ≤ input.length := by
  cases input with
  | nil => cases h
  | cons first input =>
    simp only [decode, Option.bind_eq_bind, Option.bind_eq_some_iff, Prod.exists] at h
    obtain ⟨errorCode, i1, h1, extraData, i2, h2, counters, i3, h3, h4⟩ := h
    have s1 := Library.Codec.shortest _ _ _ _ h1
    have s2 := Library.Codec.shortest _ _ _ _ h2
    have s3 := Library.Codec.shortest _ _ _ _ h3
    simp only [Library.Codec.optional, Library.Codec.replicate] at s1 s2 s3
    cases i3 with
    | nil => cases h4
    | cons packed i4 =>
      simp only at h4
      split at h4
      · rename_i inside
        obtain ⟨rfl, rfl⟩ := Prod.mk.inj (Option.some.inj h4)
        simp only [List.length_cons] at s3
        simp only [encode, List.length_cons, List.length_append, List.length_take,
          List.length_drop]
        omega
      · cases h4

def codec (pushes : UInt8 → Bool) (count : Nat) : Library.Codec UInt8 SavedRecord where
  valid := Valid pushes count
  encode := encode
  decode := decode pushes count
  decode_encode := decode_encode pushes count
  shortest := decode_shortest pushes count

theorem encode_ne_nil (r : SavedRecord) : r.encode ≠ [] := by simp [encode]

end SavedRecord

def formatHasErrorCode (n : UInt8) : Bool :=
  if h : n.toNat < 22 then hasErrorCode ⟨n.toNat, h⟩ else false

/-- The format with an error code wherever the exception pushes one. -/
def recordFormat (b : Build) : Library.Codec UInt8 SavedRecord :=
  SavedRecord.codec formatHasErrorCode b.perfEventsCount

/-- The format of what is written: no record has an error code. -/
def writtenFormat (b : Build) : Library.Codec UInt8 SavedRecord :=
  SavedRecord.codec (fun _ => false) b.perfEventsCount

/-- The arguments of one call of `save_instruction_data`. -/
structure Record (b : Build) where
  context : Context
  instructionType : InstructionType b
  instruction : List UInt8
  positive : 0 < instruction.length
  fits : instruction.length ≤ 15
  extraData : Option UInt64
  counters : Counters b

namespace Record

variable {b : Build}

def fields (r : Record b) : SavedRecord where
  exceptionNumber := UInt8.ofNat r.context.exceptionNumber
  errorCode := if hasErrorCode r.context.exceptionNumber then some r.context.errorCode else none
  extraData := r.extraData
  counters := r.counters.toList
  instructionType := r.instructionType.code
  instruction := r.instruction

def written (r : Record b) : SavedRecord := { r.fields with errorCode := none }

theorem number_toNat (n : Fin 22) : (UInt8.ofNat n).toNat = n := by
  rw [UInt8.toNat_ofNat']
  omega

theorem formatHasErrorCode_eq (n : Fin 22) :
    formatHasErrorCode (UInt8.ofNat n) = hasErrorCode n := by
  have inside : (UInt8.ofNat n).toNat < 22 := by
    rw [number_toNat]
    exact n.isLt
  rw [formatHasErrorCode, dif_pos inside]
  exact congrArg hasErrorCode (Fin.ext (number_toNat n))

theorem fields_valid (r : Record b) : (recordFormat b).valid r.fields where
  exceptionNumber := by
    have h := number_toNat r.context.exceptionNumber
    simp only [fields, UInt8.lt_iff_toNat_lt, h, UInt8.reduceToNat]
    omega
  errorCode := by
    simp only [fields, formatHasErrorCode_eq]
    cases hasErrorCode r.context.exceptionNumber <;> rfl
  counters := by simp [fields]
  instructionType := r.instructionType.code_lt
  instruction := r.fits

theorem recordBytes_eq (r : Record b) :
    recordBytes r.context r.instructionType r.instruction r.extraData r.counters.toList =
      r.written.encode := rfl

theorem written_eq_fields (r : Record b)
    (h : hasErrorCode r.context.exceptionNumber = false) : r.written = r.fields := by
  simp [written, fields, h]

theorem written_length (r : Record b) : r.written.encode.length ≤ r.fields.encode.length := by
  simp only [SavedRecord.encode, written, List.length_cons, List.length_append]
  simp

theorem written_shorter (r : Record b) (h : hasErrorCode r.context.exceptionNumber = true) :
    r.written.encode.length < r.fields.encode.length := by
  have pos : 0 < (Library.Base128.encode r.context.errorCode.toNat).length :=
    List.length_pos_iff.mpr (Library.Base128.encode_ne_nil _)
  simp only [SavedRecord.encode, written, fields, h, List.length_cons, List.length_append]
  simp
  omega

theorem written_lengths_shorter (records : List (Record b)) (r : Record b)
    (member : r ∈ records) (h : hasErrorCode r.context.exceptionNumber = true) :
    ((records.map written).flatMap SavedRecord.encode).length <
      ((records.map fields).flatMap SavedRecord.encode).length := by
  have lengths : ∀ rs : List (Record b), ((rs.map written).flatMap SavedRecord.encode).length ≤
      ((rs.map fields).flatMap SavedRecord.encode).length := by
    intro rs
    induction rs with
    | nil => simp
    | cons s rs ih =>
      have := s.written_length
      simp only [List.map_cons, List.flatMap_cons, List.length_append]
      omega
  induction records with
  | nil => cases member
  | cons s records ih =>
    simp only [List.map_cons, List.flatMap_cons, List.length_append]
    rcases List.mem_cons.mp member with rfl | later
    · have first := r.written_shorter h
      have others := lengths records
      omega
    · have first := s.written_length
      have others := ih later
      omega

end Record

/-- The calls of `save_instruction_data` for a list of records, up to the first failure. -/
def saveRecords (b : Build) (p : Platform) : List (Record b) → SaveFile → EfiStatus × SaveFile
  | [], f => (efiSuccess, f)
  | r :: rs, f =>
    unlessFailed
      (saveInstructionData b p r.context r.instructionType r.instruction r.instruction.length
        r.extraData.isSome (r.extraData.getD 0) r.counters.toList f)
      (saveRecords b p rs)

theorem emits_record (b : Build) (saving : b.noSave = false) (p : Platform) (r : Record b) :
    Emits (saveInstructionData b p r.context r.instructionType r.instruction
        r.instruction.length r.extraData.isSome (r.extraData.getD 0) r.counters.toList)
      r.written.encode := by
  have h := emits_saveInstructionData b saving p r.context r.instructionType r.instruction
    r.instruction.length (Nat.le_refl _) r.extraData.isSome (r.extraData.getD 0)
    r.counters.toList
  have extra : (if r.extraData.isSome then some (r.extraData.getD 0) else none) = r.extraData := by
    cases r.extraData <;> rfl
  rw [extra, List.take_length, r.recordBytes_eq] at h
  exact h

theorem emits_saveRecords (b : Build) (saving : b.noSave = false) (p : Platform)
    (records : List (Record b)) :
    Emits (saveRecords b p records) ((records.map Record.written).flatMap SavedRecord.encode) := by
  induction records with
  | nil => exact emits_nothing
  | cons r rs ih => exact emits_unlessFailed (emits_record b saving p r) ih

theorem opened_healthy : SaveFile.opened.Healthy := ⟨rfl, by decide⟩

/-- When every Write succeeds, the decoder of the format reads the list of records back
exactly if none of them has an error code: the mask test never lets one be written. -/
theorem saved_records_decode_iff (b : Build) (saving : b.noSave = false) (p : Platform)
    (records : List (Record b))
    (success : (saveRecords b p records SaveFile.opened).1 = efiSuccess) :
    (recordFormat b).decodeAll (saveRecords b p records SaveFile.opened).2.content =
        some (records.map Record.fields) ↔
      ∀ r ∈ records, hasErrorCode r.context.exceptionNumber = false := by
  have content : (saveRecords b p records SaveFile.opened).2.content =
      (records.map Record.written).flatMap SavedRecord.encode := by
    rcases emits_saveRecords b saving p records _ opened_healthy with ⟨-, h⟩ | ⟨failed, -⟩
    · exact h.content
    · exact absurd success failed
  rw [content]
  constructor
  · intro decoded r member
    cases h : hasErrorCode r.context.exceptionNumber with
    | false => rfl
    | true =>
      have longer := (recordFormat b).decodeAll_shortest _ _ decoded
      have shorter := Record.written_lengths_shorter records r member h
      exact absurd longer (Nat.not_le.mpr shorter)
  · intro none
    have same : records.map Record.written = records.map Record.fields :=
      List.map_congr_left (fun r member => r.written_eq_fields (none r member))
    rw [same]
    apply (recordFormat b).decodeAll_encode (fun r _ => r.encode_ne_nil)
    intro s member
    obtain ⟨r, -, rfl⟩ := List.mem_map.mp member
    exact r.fields_valid

def pageFaultRecord : Record (Build.makefile .mode64) where
  context := ⟨exceptionPageFault, #v[4, 0x201ffe, 0x1b, 0x102, 0, 0x23]⟩
  instructionType := .undocumentedNotUd
  instruction := [0x8b, 0x00]
  positive := by decide
  fits := by decide
  extraData := none
  counters := #v[7, 5, 6]

def divideErrorRecord : Record (Build.makefile .mode64) where
  context := ⟨0, userFault 0x201ffe⟩
  instructionType := .undocumentedNotUd
  instruction := [0xf6, 0xf0]
  positive := by decide
  fits := by decide
  extraData := some 0x1234
  counters := #v[300, 5, 6]

theorem divide_error_record_recovered :
    (recordFormat (Build.makefile .mode64)).decodeAll
        (saveRecords (Build.makefile .mode64) Platform.reliable
          [divideErrorRecord, divideErrorRecord] SaveFile.opened).2.content =
      some ([divideErrorRecord, divideErrorRecord].map Record.fields) :=
  (saved_records_decode_iff (Build.makefile .mode64) rfl Platform.reliable
    [divideErrorRecord, divideErrorRecord] (by decide +kernel)).mpr (by decide +kernel)

theorem page_fault_record_not_recovered :
    (saveRecords (Build.makefile .mode64) Platform.reliable [pageFaultRecord]
        SaveFile.opened).1 = efiSuccess ∧
      (recordFormat (Build.makefile .mode64)).decodeAll
          (saveRecords (Build.makefile .mode64) Platform.reliable [pageFaultRecord]
            SaveFile.opened).2.content ≠
        some ([pageFaultRecord].map Record.fields) := by decide +kernel

end PmcBruteforce
