import PmcBruteforce.Prefix.Scanners

/-! The filter as a function of the byte string. MAX_PREFIXES is one, so the loop reads a
prefix at position 0 and at most decides that position 1 is not another one. -/
namespace PmcBruteforce

theorem forall_byte {P : UInt8 → Prop} (h : ∀ n : Fin 256, P (UInt8.ofFin n)) (b : UInt8) :
    P b := h b.toFin

/-- What a byte is when the scan reaches it, the byte after it being the last argument. -/
inductive PrefixKind where
  | opcode | single | evex | vex3 | vex2
  deriving DecidableEq, Repr

/-- Outside 64-bit mode 0x62, 0xc4 and 0xc5 are BOUND, LES and LDS unless the next byte
is there and reads as a register operand. -/
def escapes (mode : CpuMode) (next : Option UInt8) : Bool :=
  mode == .mode64 || next.any (fun n => decide (0xc0 ≤ n))

def prefixKind (mode : CpuMode) (b : UInt8) (next : Option UInt8) : PrefixKind :=
  match switchLabel b with
  | .evex => if escapes mode next then .evex else .opcode
  | .vex => if escapes mode next then (if b = 0xc4 then .vex3 else .vex2) else .opcode
  | .other => if mode = .mode64 ∧ (b &&& 0xf0) = 0x40 then .single else .opcode
  | _ => .single

def evexPayloadOk : List UInt8 → Bool
  | p0 :: p1 :: p2 :: _ =>
    (p0 &&& 0b11110000) == 0b11110000 && (p1 &&& 0b01111000) == 0 &&
      (p2 &&& 0b10011111) == 0b00001000
  | _ => true

def vex3PayloadOk : List UInt8 → Bool
  | b1 :: b2 :: _ => (b1 &&& 0b11100000) == 0b11100000 && (b2 &&& 0b01111000) == 0b01111000
  | _ => true

def vex2PayloadOk : List UInt8 → Bool
  | b1 :: _ => (b1 &&& 0b11111000) == 0b11111000
  | [] => true

def startsWithOpcode (mode : CpuMode) : List UInt8 → Bool
  | [] => true
  | b :: t => prefixKind mode b t.head? == .opcode

/-- The byte strings the filter keeps. -/
def accepts (mode : CpuMode) : List UInt8 → Bool
  | [] => true
  | b :: t =>
    match prefixKind mode b t.head? with
    | .opcode => true
    | .single => startsWithOpcode mode t
    | .evex => evexPayloadOk t
    | .vex3 => vex3PayloadOk t
    | .vex2 => vex2PayloadOk t

theorem prefixKind_single {mode : CpuMode} {first : UInt8} {next : Option UInt8}
    (h : prefixKind mode first next = .single) (other : Option UInt8) :
    prefixKind mode first other = .single := by
  unfold prefixKind at h ⊢
  cases label : switchLabel first <;> simp only [label] at h ⊢
  case evex => split at h <;> cases h
  case vex =>
    split at h
    · split at h <;> cases h
    · cases h
  case other => exact h

/-- One prefix is the most that may stand in front of an opcode. -/
theorem rejects_prefixed {mode : CpuMode} {front rest : List UInt8} (some_ : front ≠ [])
    (prefixes : ∀ b ∈ front, prefixKind mode b none = .single)
    (noOpcode : startsWithOpcode mode rest = false) : accepts mode (front ++ rest) = false := by
  cases front with
  | nil => exact absurd rfl some_
  | cons b front =>
    have first := prefixKind_single (prefixes b List.mem_cons_self) (front ++ rest).head?
    simp only [List.cons_append, accepts, first]
    cases front with
    | nil => exact noOpcode
    | cons c front =>
      have second := prefixKind_single (prefixes c (List.mem_cons_of_mem _ List.mem_cons_self))
        (front ++ rest).head?
      simp only [List.cons_append, startsWithOpcode, second]
      rfl

theorem scanPrefixes_congr (mode : CpuMode) (xs ys : List UInt8) (length remaining i : Nat)
    (flags : PrefixFlags) (bound : i + remaining = length)
    (same : ∀ k < length, byteAt xs k = byteAt ys k) :
    scanPrefixes mode xs length remaining i flags =
      scanPrefixes mode ys length remaining i flags := by
  induction remaining generalizing i flags with
  | zero => rfl
  | succ remaining ih =>
    have here := same i (by omega)
    have later := fun flags => ih (i + 1) flags (by omega)
    have next : (i + 1 = length ∨ byteAt xs (i + 1) < 0xc0) ↔
        (i + 1 = length ∨ byteAt ys (i + 1) < 0xc0) := by
      by_cases last : i + 1 = length
      · simp [last]
      · rw [same (i + 1) (by omega)]
    have next' : (i + 1 ≥ length ∨ byteAt xs (i + 1) < 0xc0) ↔
        (i + 1 ≥ length ∨ byteAt ys (i + 1) < 0xc0) := by
      by_cases last : i + 1 = length
      · simp [last]
      · rw [same (i + 1) (by omega)]
    have evex : evexBlock xs length i = evexBlock ys length i := by
      unfold evexBlock
      split
      · rfl
      · rw [same (i + 1) (by omega), same (i + 2) (by omega), same (i + 3) (by omega)]
    have vex : ∀ inv mal, vexBlock xs length i inv mal = vexBlock ys length i inv mal := by
      intro inv mal
      by_cases two : i + 2 < length
      · simp only [vexBlock, here, same (i + 1) (by omega), same (i + 2) two]
      · by_cases one : i + 1 < length
        · simp only [vexBlock, here, two, same (i + 1) one, false_and, and_false, if_false]
        · simp only [vexBlock, here, two, one, false_and, and_false, if_false]
    simp only [scanPrefixes, here, later, next, next', evex, vex]

theorem not_escapes_iff (mode : CpuMode) (next : Option UInt8) :
    escapes mode next = false ↔ mode ≠ .mode64 ∧ ∀ n ∈ next, n < 0xc0 := by
  cases next with
  | none => simp [escapes]
  | some n => simp [escapes, UInt8.not_le]

theorem look_ahead (b : UInt8) (t : List UInt8) (i length : Nat) (xs : List UInt8)
    (split : xs.drop i = b :: t) (len : length = xs.length) :
    byteAt xs i = b ∧ i < length ∧
      ((i + 1 = length ∨ byteAt xs (i + 1) < 0xc0) ↔ ∀ n ∈ t.head?, n < 0xc0) := by
  have size := congrArg List.length split
  have read : ∀ k, xs.getD (i + k) 0 = (b :: t).getD k 0 := by
    intro k
    rw [← split, List.getD_eq_getElem?_getD, List.getD_eq_getElem?_getD, List.getElem?_drop]
  simp only [List.length_drop, List.length_cons] at size
  refine ⟨by simpa [byteAt] using read 0, by omega, ?_⟩
  cases t with
  | nil => simp at size ⊢; omega
  | cons n t =>
    have next : byteAt xs (i + 1) = n := by simpa [byteAt] using read 1
    have more : ¬ i + 1 = length := by simp at size; omega
    simp [next, more]

theorem scanPrefixes_second (mode : CpuMode) (b0 b1 : UInt8) (u : List UInt8)
    (flags : PrefixFlags) :
    scanPrefixes mode (b0 :: b1 :: u) (u.length + 2) (u.length + 1) 1 flags =
      if prefixKind mode b1 u.head? = .opcode then .accept else .reject := by
  obtain ⟨here, -, next⟩ := look_ahead b1 u 1 (u.length + 2) (b0 :: b1 :: u) rfl rfl
  have ge : (1 + 1 ≥ u.length + 2) = (1 + 1 = u.length + 2) := by
    apply propext
    omega
  have escape : (mode ≠ .mode64 ∧ ∀ n ∈ u.head?, n < 0xc0) ↔ escapes mode u.head? = false :=
    (not_escapes_iff mode _).symm
  rcases Bool.eq_false_or_eq_true (escapes mode u.head?) with he | he <;>
    cases label : switchLabel b1 <;>
    simp only [scanPrefixes, here, maxPrefixes, ge, next, escape, he, label, prefixKind, ge_iff_le,
      Nat.le_refl, if_true, ite_self] <;>
    split_ifs <;> simp_all

theorem evexBlock_eq (b : UInt8) (t : List UInt8) :
    evexBlock (b :: t) (t.length + 1) 0 = if evexPayloadOk t then .accept else .reject := by
  match t with
  | [] | [_] | [_, _] => rfl
  | p0 :: p1 :: p2 :: rest =>
    have inside : ¬ 0 + 3 ≥ (p0 :: p1 :: p2 :: rest).length + 1 := by simp
    simp only [evexBlock, if_neg inside, byteAt, evexPayloadOk]
    by_cases h0 : p0 &&& 0b11110000 = 0b11110000 <;>
      by_cases h1 : p1 &&& 0b01111000 = 0 <;>
      by_cases h2 : p2 &&& 0b10011111 = 0b00001000 <;> simp [h0, h1, h2]

theorem vexBlock_three (t : List UInt8) :
    vexBlock (0xc4 :: t) (t.length + 1) 0 false false =
      if vex3PayloadOk t then .accept else .reject := by
  match t with
  | [] | [_] => simp [vexBlock, byteAt, vex3PayloadOk, FilterResult.accept]
  | b1 :: b2 :: rest =>
    by_cases h1 : b1 &&& 0b11100000 = 0b11100000 <;>
      by_cases h2 : b2 &&& 0b01111000 = 0b01111000 <;>
      simp [vexBlock, byteAt, vex3PayloadOk, FilterResult.accept, h1, h2]

theorem vexBlock_two (t : List UInt8) :
    vexBlock (0xc5 :: t) (t.length + 1) 0 false false =
      if vex2PayloadOk t then .accept else .reject := by
  match t with
  | [] => simp [vexBlock, byteAt, vex2PayloadOk, FilterResult.accept]
  | b1 :: rest =>
    by_cases h1 : b1 &&& 0b11111000 = 0b11111000 <;>
      simp [vexBlock, byteAt, vex2PayloadOk, FilterResult.accept, h1]

theorem switchLabel_vex_iff (b : UInt8) : switchLabel b = .vex ↔ b = 0xc4 ∨ b = 0xc5 := by
  induction b using forall_byte
  decide +revert +kernel

theorem scanPrefixes_first (mode : CpuMode) (b : UInt8) (t : List UInt8) :
    scanPrefixes mode (b :: t) (t.length + 1) (t.length + 1) 0 {} =
      if accepts mode (b :: t) then .accept else .reject := by
  obtain ⟨here, -, next⟩ := look_ahead b t 0 (t.length + 1) (b :: t) rfl rfl
  have ge : (0 + 1 ≥ t.length + 1) = (0 + 1 = t.length + 1) := by
    apply propext
    omega
  have escape : (mode ≠ .mode64 ∧ ∀ n ∈ t.head?, n < 0xc0) ↔ escapes mode t.head? = false :=
    (not_escapes_iff mode _).symm
  have first : ¬ 0 ≥ 1 := by omega
  -- What remains of the loop after a prefix that may be followed by others.
  have after : ∀ flags, scanPrefixes mode (b :: t) (t.length + 1) t.length 1 flags =
      if startsWithOpcode mode t then .accept else .reject := by
    intro flags
    cases t with
    | nil => rfl
    | cons b1 u =>
      have h := scanPrefixes_second mode b b1 u flags
      simpa only [startsWithOpcode, List.length_cons, beq_iff_eq] using h
  cases label : switchLabel b
  case evex =>
    simp only [scanPrefixes, here, label, maxPrefixes, first, next, escape, accepts, prefixKind,
      evexBlock_eq]
    rcases Bool.eq_false_or_eq_true (escapes mode t.head?) with he | he <;> simp [he]
  case vex =>
    simp only [scanPrefixes, here, label, maxPrefixes, first, ge, next, escape, accepts,
      prefixKind]
    rcases Bool.eq_false_or_eq_true (escapes mode t.head?) with he | he
    · rcases (switchLabel_vex_iff b).mp label with rfl | rfl
      · simp [he, vexBlock_three]
      · simp [he, vexBlock_two]
    · simp [he]
  case other =>
    simp only [scanPrefixes, here, label, maxPrefixes, first, after, accepts, prefixKind]
    split_ifs <;> simp_all
  all_goals
    simp only [scanPrefixes, here, label, maxPrefixes, first, after, accepts, prefixKind,
      Bool.or_self, Bool.false_eq_true, if_false]

theorem byteAt_take (bytes : List UInt8) (length k : Nat) (h : k < length) :
    byteAt (bytes.take length) k = byteAt bytes k := by
  simp [byteAt, List.getD_eq_getElem?_getD, List.getElem?_take_of_lt h]

/-- The whole filter: it rejects exactly what `accepts` does not accept, and it never
leaves the malformed flag set. -/
theorem contains_invalid_eq (mode : CpuMode) (bytes : List UInt8) (length : Nat)
    (h : length ≤ bytes.length) :
    containsInvalidCountOfPrefixes mode bytes length =
      if accepts mode (bytes.take length) then .accept else .reject := by
  have size : (bytes.take length).length = length := List.length_take_of_le h
  have congr := scanPrefixes_congr mode bytes (bytes.take length) length length 0 {}
    (Nat.zero_add _) (fun k hk => (byteAt_take bytes length k hk).symm)
  rw [containsInvalidCountOfPrefixes, congr]
  cases string : bytes.take length with
  | nil =>
    have zero : length = 0 := by simpa [string] using size.symm
    subst zero
    rfl
  | cons b t =>
    rw [string, List.length_cons] at size
    rw [← size, scanPrefixes_first]

theorem contains_invalid_malformed (mode : CpuMode) (bytes : List UInt8) (length : Nat)
    (h : length ≤ bytes.length) :
    (containsInvalidCountOfPrefixes mode bytes length).malformedInstructionExpectUd = false := by
  rw [contains_invalid_eq mode bytes length h]
  split <;> rfl

theorem rejectedByFilter_eq (mode : CpuMode) (s : List UInt8) :
    rejectedByFilter mode s = !accepts mode s := by
  rw [rejectedByFilter, contains_invalid_eq mode s s.length (Nat.le_refl _), List.take_length]
  cases accepts mode s <;> rfl

theorem valid_iff_accepts (mode : CpuMode) (s : List UInt8) :
    (containsInvalidCountOfPrefixes mode s s.length).invalid = false ↔ accepts mode s = true := by
  have same := rejectedByFilter_eq mode s
  rw [rejectedByFilter] at same
  rw [same, Bool.not_eq_false']

theorem contains_invalid_take (mode : CpuMode) (bytes : List UInt8) (length : Nat)
    (h : length ≤ bytes.length) :
    (containsInvalidCountOfPrefixes mode bytes length).invalid =
      rejectedByFilter mode (bytes.take length) := by
  rw [contains_invalid_eq mode bytes length h, rejectedByFilter_eq]
  cases accepts mode (bytes.take length) <;> rfl

end PmcBruteforce
