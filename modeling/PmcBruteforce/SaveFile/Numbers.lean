import PmcBruteforce.Library.Memory
import PmcBruteforce.SaveFile.Emits

/-! The numbers `save_uint64_array` writes: read back as they were, each in the fewest bytes,
built inside the array `out_value`, and on a failing Write all those in front of it. -/
namespace PmcBruteforce

open Library (store overwrite)

/-- `sizeof(value)*8/7 + 1` -/
def outValueSize : Nat := 8 * 8 / 7 + 1

/-- The statements of `save_uint64` that fill `out_value` from `size` on. -/
def fillOutValue (value : UInt64) (outValue : List UInt8) (size : Nat) :
    Option (List UInt8 × Nat) :=
  if value ≥ 128 then do
    let outValue ← store outValue size ((value &&& 127) ||| 128).toUInt8
    fillOutValue (value >>> 7) outValue (size + 1)
  else do
    let outValue ← store outValue size value.toUInt8
    some (outValue, size + 1)
termination_by value.toNat
decreasing_by
  rename_i h
  have large : 128 ≤ value.toNat := UInt64.le_iff_toNat_le.mp h
  rw [UInt64.toNat_shiftRight]
  simp only [UInt64.reduceToNat, Nat.reduceMod, Nat.shiftRight_eq_div_pow, Nat.reducePow]
  omega

/-- `save_uint64` with its array, in which the stack has left `garbage`: a store behind the end
of it has no result. -/
def saveUint64Stored (p : Platform) (garbage : Vector UInt8 outValueSize) (value : UInt64)
    (f : SaveFile) : Option (EfiStatus × SaveFile) := do
  let (outValue, size) ← fillOutValue value garbage.toList 0
  some (saveData p (outValue.take size) f)

theorem fillOutValue_eq {value : UInt64} {outValue : List UInt8} {size : Nat}
    (room : size + (saveUint64Bytes value).length ≤ outValue.length) :
    fillOutValue value outValue size = some (overwrite outValue size (saveUint64Bytes value),
      size + (saveUint64Bytes value).length) := by
  induction value using saveUint64Bytes.induct generalizing outValue size with
  | case1 value large ih =>
    rw [saveUint64Bytes, if_pos large] at room ⊢
    rw [List.length_cons] at room ⊢
    have stored := Library.store_inside (m := outValue) (i := size) (by omega)
      ((value &&& 127) ||| 128).toUInt8
    have kept : (overwrite outValue size [((value &&& 127) ||| 128).toUInt8]).length =
        outValue.length := Library.overwrite_length (by rw [List.length_singleton]; omega)
    have behind : size + 1 + (saveUint64Bytes (value >>> 7)).length ≤
        (overwrite outValue size [((value &&& 127) ||| 128).toUInt8]).length := by
      rw [kept]
      omega
    have next := ih behind
    rw [Library.overwrite_cons (by rw [List.length_cons]; omega)] at next
    rw [fillOutValue, if_pos large, stored]
    simp only [Option.bind_eq_bind, Option.bind_some, next]
    rw [Nat.add_assoc, Nat.add_comm 1]
  | case2 value small =>
    rw [saveUint64Bytes, if_neg small, List.length_singleton] at room ⊢
    rw [fillOutValue, if_neg small, Library.store_inside (by omega)]
    rfl

theorem saveUint64Stored_eq (p : Platform) (garbage : Vector UInt8 outValueSize) (value : UInt64)
    (f : SaveFile) : saveUint64Stored p garbage value f = some (saveUint64 p value f) := by
  have fits : 0 + (saveUint64Bytes value).length ≤ garbage.toList.length := by
    rw [Nat.zero_add, Vector.length_toList]
    exact saveUint64Bytes_length value
  have front : (overwrite garbage.toList 0 (saveUint64Bytes value)).take
      (saveUint64Bytes value).length = saveUint64Bytes value := by
    rw [overwrite, List.take_zero, List.nil_append, List.take_left]
  rw [saveUint64Stored, fillOutValue_eq fits]
  simp only [Nat.zero_add, Option.bind_eq_bind, Option.bind_some, front]
  rfl

/-- What `save_uint64_array` leaves: one Write for each element, or the elements in front of the
one whose Write failed, behind which the firmware may have stored a part of its bytes. -/
inductive ArrayWritten (values : List UInt64) (f : SaveFile) : EfiStatus × SaveFile → Prop where
  | complete (f' : SaveFile) (cs : List FileCall)
      (content : f'.content = f.content ++ values.flatMap saveUint64Bytes)
      (calls : f'.calls = cs ++ f.calls) (each : cs.length = values.length)
      (written : ∀ c ∈ cs, c.Written) : ArrayWritten values f (efiSuccess, f')
  | failed (f' : SaveFile) (cs : List FileCall) (status : EfiStatus) (before after : List UInt64)
      (value : UInt64) (part : List UInt8) (split : values = before ++ value :: after)
      (content : f'.content = f.content ++ (before.flatMap saveUint64Bytes ++ part))
      (stored : part <+: saveUint64Bytes value)
      (calls : f'.calls = ⟨.write, status, true⟩ :: cs ++ f.calls)
      (each : cs.length = before.length) (written : ∀ c ∈ cs, c.Written)
      (error : status ≠ efiSuccess) : ArrayWritten values f (status, f')

theorem saveUint64_written (p : Platform) (value : UInt64) {f : SaveFile} (isOpen : f.isOpen = true) :
    (saveUint64 p value f).2.isOpen = true ∧
    (saveUint64 p value f).2.calls = ⟨.write, (saveUint64 p value f).1, true⟩ :: f.calls ∧
    ∃ part, (saveUint64 p value f).2.content = f.content ++ part ∧ part <+: saveUint64Bytes value ∧
      ((saveUint64 p value f).1 = efiSuccess → part = saveUint64Bytes value) := by
  refine ⟨isOpen, ?_, ?_⟩
  · simp [saveUint64, saveData, SaveFile.write, SaveFile.logCall, isOpen]
  · by_cases good : f.writeStatus p (saveUint64Bytes value) = efiSuccess
    · refine ⟨saveUint64Bytes value, ?_, List.prefix_refl _, fun _ => rfl⟩
      simp [saveUint64, saveData, SaveFile.write, SaveFile.logCall, isOpen, good]
    · refine ⟨(saveUint64Bytes value).take (p.stored f.calls.length), ?_,
        List.take_prefix _ _, fun success => absurd success good⟩
      simp [saveUint64, saveData, SaveFile.write, SaveFile.logCall, isOpen, good]

theorem saveUint64Array_written (p : Platform) (values : List UInt64) {f : SaveFile}
    (isOpen : f.isOpen = true) : ArrayWritten values f (saveUint64Array p values f) := by
  induction values generalizing f with
  | nil => exact .complete f [] (List.append_nil _).symm rfl rfl (fun c member => by cases member)
  | cons value values ih =>
    obtain ⟨isOpen', calls, part, content, stored, whole⟩ := saveUint64_written p value isOpen
    by_cases good : (saveUint64 p value f).1 = efiSuccess
    · have rest := ih isOpen'
      obtain rfl := whole good
      have written : FileCall.Written ⟨.write, (saveUint64 p value f).1, true⟩ := ⟨rfl, good⟩
      have proceed : saveUint64Array p (value :: values) f =
          saveUint64Array p values (saveUint64 p value f).2 := by
        simp [saveUint64Array, unlessFailed, good]
      rw [proceed]
      generalize saveUint64Array p values (saveUint64 p value f).2 = result at rest
      cases rest with
      | complete f' cs content' calls' each written' =>
        refine .complete f' (cs ++ [⟨.write, (saveUint64 p value f).1, true⟩]) ?_ ?_ ?_ ?_
        · rw [content', content, List.flatMap_cons, List.append_assoc]
        · rw [calls', calls, List.append_assoc]
          rfl
        · rw [List.length_append, each]
          rfl
        · intro c member
          rcases List.mem_append.mp member with member | member
          · exact written' c member
          · exact List.mem_singleton.mp member ▸ written
      | failed f' cs status before after value' part split content' stored' calls' each written'
          error =>
        refine .failed f' (cs ++ [⟨.write, (saveUint64 p value f).1, true⟩]) status
          (value :: before) after value' part ?_ ?_ stored' ?_ ?_ ?_ error
        · rw [split]
          rfl
        · rw [content', content, List.flatMap_cons, List.append_assoc, List.append_assoc]
        · rw [calls', calls]
          simp
        · rw [List.length_append, each]
          rfl
        · intro c member
          rcases List.mem_append.mp member with member | member
          · exact written' c member
          · exact List.mem_singleton.mp member ▸ written
    · have stop : saveUint64Array p (value :: values) f = saveUint64 p value f := by
        simp [saveUint64Array, unlessFailed, good]
      rw [stop]
      exact .failed _ [] _ [] values value part rfl content stored calls rfl
        (fun c member => by cases member) good

theorem saved_numbers_decode (values : List UInt64) (rest : List UInt8) :
    Library.Base128.word.decodeN values.length (values.flatMap saveUint64Bytes ++ rest) =
      some (values, rest) := by
  have bytes : saveUint64Bytes = Library.Base128.word.encode := funext saveUint64Bytes_eq
  rw [bytes]
  exact Library.Base128.word.decodeN_encode values (fun _ _ => trivial) rest

/-- The bytes of `save_uint64_array` decode to its numbers and to nothing behind them. Each
number is built inside `out_value`, and no other reading of it is shorter. -/
theorem uint64_array_saved (p : Platform) (values : List UInt64) {f : SaveFile}
    (isOpen : f.isOpen = true) :
    (∀ rest, Library.Base128.word.decodeN values.length
      (values.flatMap saveUint64Bytes ++ rest) = some (values, rest)) ∧
    (∀ garbage value, saveUint64Stored p garbage value f = some (saveUint64 p value f)) ∧
    (∀ (value : UInt64) (input rest : List UInt8),
      Library.Base128.decode input = some (value.toNat, rest) →
        (saveUint64Bytes value).length + rest.length ≤ input.length) ∧
    ArrayWritten values f (saveUint64Array p values f) := by
  refine ⟨saved_numbers_decode values, fun garbage value => saveUint64Stored_eq p garbage value f, ?_,
    saveUint64Array_written p values isOpen⟩
  intro value input rest decoded
  rw [saveUint64Bytes_eq]
  exact Library.Base128.decode_shortest input value.toNat rest decoded

def secondWriteFails : Platform :=
  { Platform.reliable with
    fileStatus := fun n => if n = 1 then efiVolumeFull else efiSuccess
    stored := fun _ => 1 }

theorem second_number_not_saved :
    saveUint64Array secondWriteFails [300, 1000, 5] SaveFile.opened =
      (efiVolumeFull, ⟨true, [0xac, 0x02, 0xe8],
        [⟨.write, efiVolumeFull, true⟩, ⟨.write, efiSuccess, true⟩]⟩) ∧
    ArrayWritten [300, 1000, 5] SaveFile.opened
      (saveUint64Array secondWriteFails [300, 1000, 5] SaveFile.opened) := by
  exact ⟨by decide +kernel, (uint64_array_saved secondWriteFails [300, 1000, 5] rfl).2.2.2⟩

end PmcBruteforce
