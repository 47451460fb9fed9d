import PmcBruteforce.Prefix.Count

/-! The pointer update at the end of `check_last_instruction`: a while loop that carries,
a do-while loop that increments and filters, and a goto from the second into the first.
Each loop is cut at its test, and a run is a number of such steps. -/
namespace PmcBruteforce

/-- `instruction_bytes`, an array of 15 bytes. -/
structure Buffer where
  bytes : List UInt8
  size : bytes.length = 15
  deriving DecidableEq

namespace Buffer

def zero : Buffer := ⟨List.replicate 15 0, rfl⟩

def set (buffer : Buffer) (i : Nat) (b : UInt8) : Buffer :=
  ⟨buffer.bytes.set i b, by rw [List.length_set, buffer.size]⟩

def get (buffer : Buffer) (i : Nat) : UInt8 := byteAt buffer.bytes i

def string (buffer : Buffer) (n : Nat) : List UInt8 := buffer.bytes.take n

@[simp] theorem get_set_same (buffer : Buffer) (i : Nat) (b : UInt8) (h : i < 15) :
    (buffer.set i b).get i = b := by
  simp [get, set, byteAt, List.getD_eq_getElem?_getD, buffer.size, h]

@[simp] theorem get_set_other (buffer : Buffer) (i k : Nat) (b : UInt8) (h : i ≠ k) :
    (buffer.set i b).get k = buffer.get k := by
  simp [get, set, byteAt, List.getD_eq_getElem?_getD, h]

theorem get_zero (i : Nat) : zero.get i = 0 := by
  simp only [get, zero, byteAt, List.getD_eq_getElem?_getD, List.getElem?_replicate]
  split <;> rfl

theorem getElem?_eq (buffer : Buffer) (i : Nat) (h : i < 15) :
    buffer.bytes[i]? = some (buffer.get i) :=
  getElem?_byteAt (buffer.size.symm ▸ h)

theorem string_length (buffer : Buffer) (n : Nat) (h : n ≤ 15) :
    (buffer.string n).length = n :=
  List.length_take_of_le (buffer.size.symm ▸ h)

theorem string_succ (buffer : Buffer) (n : Nat) (h : n < 15) :
    buffer.string (n + 1) = buffer.string n ++ [buffer.get n] := by
  rw [string, string, List.take_add_one, buffer.getElem?_eq n h]
  rfl

theorem string_set (buffer : Buffer) (n i : Nat) (b : UInt8) (h : n ≤ i) :
    (buffer.set i b).string n = buffer.string n := by
  simp [string, set, List.take_set_of_le h]

theorem string_take (buffer : Buffer) {m n : Nat} (h : m ≤ n) :
    (buffer.string n).take m = buffer.string m := by
  rw [string, string, List.take_take, Nat.min_eq_left h]

theorem string_eq_of_le {x y : Buffer} {m n : Nat} (h : x.string n = y.string n) (le : m ≤ n) :
    x.string m = y.string m := by
  rw [← x.string_take le, ← y.string_take le, h]

theorem get_eq_of_string {x y : Buffer} {k n : Nat} (h : x.string n = y.string n) (lt : k < n) :
    x.get k = y.get k := by
  unfold get
  rw [← byteAt_take x.bytes n k lt, ← byteAt_take y.bytes n k lt]
  exact congrArg (fun s => byteAt s k) h

end Buffer

structure PointerLoop where
  instructionBytes : Buffer
  curByteIndex : Nat
  curInstructionLength : Nat
  malformedInstructionExpectUd : Bool
  deriving DecidableEq

/-- The two places a step starts from: the test of the while loop under the label
`update_byte_index`, and the body of the do-while loop. -/
inductive PointerLabel where
  | updateByteIndex | doBody
  deriving DecidableEq

inductive PointerExit where
  | candidate (l : PointerLoop)
  | done (l : PointerLoop)
  | outOfBounds

def pointerStep (mode : CpuMode) (label : PointerLabel) (l : PointerLoop) :
    (PointerLabel × PointerLoop) ⊕ PointerExit :=
  match l.instructionBytes.bytes[l.curByteIndex]? with
  | none => .inr .outOfBounds
  | some byte =>
    match label with
    | .updateByteIndex =>
      if byte = 0xff then
        let l := { l with instructionBytes := l.instructionBytes.set l.curByteIndex 0 }
        if l.curByteIndex = 0 then .inr (.done l)
        else .inl (.updateByteIndex, { l with curByteIndex := l.curByteIndex - 1 })
      else
        -- will be incremented during page fault handling if needed
        .inl (.doBody, { l with curInstructionLength := l.curByteIndex + 1 })
    | .doBody =>
      if byte = 0xff then .inl (.updateByteIndex, l)
      else
        let instructionBytes := l.instructionBytes.set l.curByteIndex (byte + 1)
        let filter := containsInvalidCountOfPrefixes mode instructionBytes.bytes
          l.curInstructionLength
        let l : PointerLoop := { l with
          instructionBytes := instructionBytes
          malformedInstructionExpectUd := filter.malformedInstructionExpectUd }
        if filter.invalid then .inl (.doBody, l) else .inr (.candidate l)

/-- The loops cut off after a number of steps. -/
def runPointer (mode : CpuMode) : Nat → PointerLabel → PointerLoop → Option PointerExit
  | 0, _, _ => none
  | fuel + 1, label, l =>
    match pointerStep mode label l with
    | .inl (label, l) => runPointer mode fuel label l
    | .inr e => some e

def pointerFuel : Nat := 15 * 514

/-- Each step lowers this number: a carry lowers the index, an increment raises the byte,
and the two jumps between the loops go one way at 0xff and the other way below it. -/
def pointerMeasure (label : PointerLabel) (l : PointerLoop) : Nat :=
  514 * l.curByteIndex +
    if l.instructionBytes.get l.curByteIndex = 0xff then
      (if label = .doBody then 1 else 0)
    else 2 * (256 - (l.instructionBytes.get l.curByteIndex).toNat) +
      (if label = .doBody then 0 else 1)

theorem pointerMeasure_lt (label : PointerLabel) (l : PointerLoop) :
    pointerMeasure label l < 514 * (l.curByteIndex + 1) := by
  unfold pointerMeasure
  split
  · split <;> omega
  · split <;> omega

def NoneGreater (mode : CpuMode) (start : Buffer) (k : Nat) : Prop :=
  ∀ v, start.get k < v → rejectedByFilter mode (start.string k ++ [v]) = true

/-- The loop invariant, about the buffer and the index the update starts from: what lies
before the pointer is as it was, what lies behind it is zero, and every string passed
over so far was rejected. -/
structure Trying (mode : CpuMode) (start : Buffer) (first : Nat) (label : PointerLabel)
    (l : PointerLoop) : Prop where
  index : l.curByteIndex ≤ first
  before : l.instructionBytes.string l.curByteIndex = start.string l.curByteIndex
  behind : ∀ k, l.curByteIndex < k → l.instructionBytes.get k = 0
  here : start.get l.curByteIndex ≤ l.instructionBytes.get l.curByteIndex
  tried : ∀ v, start.get l.curByteIndex < v → v ≤ l.instructionBytes.get l.curByteIndex →
    rejectedByFilter mode (start.string l.curByteIndex ++ [v]) = true
  passed : ∀ k, l.curByteIndex < k → k ≤ first → NoneGreater mode start k
  length : label = .doBody → l.curInstructionLength = l.curByteIndex + 1

/-- The candidate the loops leave. -/
structure NextCandidate (mode : CpuMode) (start : Buffer) (first : Nat) (l : PointerLoop) :
    Prop where
  index : l.curByteIndex ≤ first
  before : l.instructionBytes.string l.curByteIndex = start.string l.curByteIndex
  behind : ∀ k, l.curByteIndex < k → l.instructionBytes.get k = 0
  greater : start.get l.curByteIndex < l.instructionBytes.get l.curByteIndex
  skipped : ∀ v, start.get l.curByteIndex < v → v < l.instructionBytes.get l.curByteIndex →
    rejectedByFilter mode (start.string l.curByteIndex ++ [v]) = true
  passed : ∀ k, l.curByteIndex < k → k ≤ first → NoneGreater mode start k
  length : l.curInstructionLength = l.curByteIndex + 1
  accepted : rejectedByFilter mode (l.instructionBytes.string (l.curByteIndex + 1)) = false
  malformed : l.malformedInstructionExpectUd = false

/-- What the loops end with, and never out of bounds. -/
def PointerExit.Correct (mode : CpuMode) (start : Buffer) (first : Nat) : PointerExit → Prop
  | .candidate l => NextCandidate mode start first l
  | .done _ => ∀ k ≤ first, NoneGreater mode start k
  | .outOfBounds => False

theorem byte_succ {b : UInt8} (h : b ≠ 0xff) : (b + 1).toNat = b.toNat + 1 := by
  have bound := b.toNat_lt
  have different : b.toNat ≠ 255 := fun same => h (UInt8.toNat_inj.mp same)
  rw [UInt8.toNat_add]
  simp only [UInt8.toNat_one]
  omega

theorem le_of_lt_byte_succ {b v : UInt8} (h : b ≠ 0xff) (lt : v < b + 1) : v ≤ b := by
  have := UInt8.lt_iff_toNat_lt.mp lt
  rw [byte_succ h] at this
  exact UInt8.le_iff_toNat_le.mpr (by omega)

theorem byte_le_max (b : UInt8) : b ≤ 0xff :=
  UInt8.le_iff_toNat_le.mpr (Nat.le_of_lt_succ b.toNat_lt)

theorem Trying.string {mode : CpuMode} {start : Buffer} {first : Nat} {label : PointerLabel}
    {l : PointerLoop} (h : Trying mode start first label l) (bound : l.curByteIndex < 15)
    (b : UInt8) :
    (l.instructionBytes.set l.curByteIndex b).string (l.curByteIndex + 1) =
      start.string l.curByteIndex ++ [b] := by
  rw [Buffer.string_succ _ _ bound, Buffer.string_set _ _ _ _ (Nat.le_refl _), h.before,
    Buffer.get_set_same _ _ _ bound]

section

variable {mode : CpuMode} {start : Buffer} {first : Nat} {label : PointerLabel} {l : PointerLoop}

/-- At 0xff the position under the pointer is exhausted too. -/
theorem Trying.exhausted (h : Trying mode start first label l)
    (full : l.instructionBytes.get l.curByteIndex = 0xff) :
    ∀ k, l.curByteIndex ≤ k → k ≤ first → NoneGreater mode start k := by
  intro k low high v greater
  rcases Nat.lt_or_eq_of_le low with later | rfl
  · exact h.passed k later high v greater
  · exact h.tried v greater (full ▸ byte_le_max v)

theorem Trying.carry (h : Trying mode start first .updateByteIndex l) (bound : first < 15)
    (full : l.instructionBytes.get l.curByteIndex = 0xff) (positive : l.curByteIndex ≠ 0) :
    Trying mode start first .updateByteIndex { l with
      instructionBytes := l.instructionBytes.set l.curByteIndex 0
      curByteIndex := l.curByteIndex - 1 } := by
  have inside : l.curByteIndex < 15 := Nat.lt_of_le_of_lt h.index bound
  have below : l.curByteIndex - 1 < l.curByteIndex := by omega
  have same := Buffer.get_eq_of_string h.before below
  have kept : (l.instructionBytes.set l.curByteIndex 0).get (l.curByteIndex - 1) =
      start.get (l.curByteIndex - 1) := by
    rw [Buffer.get_set_other _ _ _ _ (by omega), same]
  constructor
  · exact Nat.le_trans (Nat.sub_le _ _) h.index
  · simp only
    rw [Buffer.string_set _ _ _ _ (Nat.le_of_lt below)]
    exact Buffer.string_eq_of_le h.before (Nat.le_of_lt below)
  · intro k later
    simp only at later
    by_cases here : k = l.curByteIndex
    · rw [here]
      exact Buffer.get_set_same _ _ _ inside
    · rw [Buffer.get_set_other _ _ _ _ (Ne.symm here)]
      exact h.behind k (by omega)
  · simp only [kept]
    exact UInt8.le_refl _
  · intro v greater le
    simp only [kept] at greater le
    exact absurd greater (UInt8.not_lt.mpr le)
  · intro k later high
    simp only at later
    exact h.exhausted full k (by omega) high
  · simp

theorem pointerMeasure_carry (l : PointerLoop) (positive : l.curByteIndex ≠ 0) :
    pointerMeasure .updateByteIndex { l with
      instructionBytes := l.instructionBytes.set l.curByteIndex 0
      curByteIndex := l.curByteIndex - 1 } < pointerMeasure .updateByteIndex l := by
  have old : 514 * l.curByteIndex ≤ pointerMeasure .updateByteIndex l := Nat.le_add_right _ _
  apply Nat.lt_of_lt_of_le (pointerMeasure_lt _ _)
  apply Nat.le_trans _ old
  simp only
  omega

/-- The body of the do-while loop: the buffer with the byte under the pointer incremented. -/
def PointerLoop.incremented (l : PointerLoop) : Buffer :=
  l.instructionBytes.set l.curByteIndex (l.instructionBytes.get l.curByteIndex + 1)

theorem Trying.before_incremented (h : Trying mode start first label l) :
    l.incremented.string l.curByteIndex = start.string l.curByteIndex :=
  (Buffer.string_set _ _ _ _ (Nat.le_refl _)).trans h.before

theorem Trying.behind_incremented (h : Trying mode start first label l) :
    ∀ k, l.curByteIndex < k → l.incremented.get k = 0 := by
  intro k later
  rw [PointerLoop.incremented, Buffer.get_set_other _ _ _ _ (by omega)]
  exact h.behind k later

/-- The filter is asked about the string under the pointer. -/
theorem Trying.filter_incremented (h : Trying mode start first .doBody l)
    (inside : l.curByteIndex < 15) :
    let filter := containsInvalidCountOfPrefixes mode l.incremented.bytes l.curInstructionLength
    filter.invalid = rejectedByFilter mode
        (start.string l.curByteIndex ++ [l.instructionBytes.get l.curByteIndex + 1]) ∧
      filter.malformedInstructionExpectUd = false := by
  have fits : l.curByteIndex + 1 ≤ l.incremented.bytes.length := by
    rw [Buffer.size]
    exact inside
  have answer := contains_invalid_take mode _ _ fits
  change _ = rejectedByFilter mode (Buffer.string _ _) at answer
  rw [h.length rfl]
  refine ⟨?_, contains_invalid_malformed mode _ _ fits⟩
  rwa [PointerLoop.incremented, h.string inside] at answer

theorem Trying.rejected (h : Trying mode start first .doBody l) (inside : l.curByteIndex < 15)
    (notFull : l.instructionBytes.get l.curByteIndex ≠ 0xff)
    (rejected : rejectedByFilter mode
      (start.string l.curByteIndex ++ [l.instructionBytes.get l.curByteIndex + 1]) = true)
    (malformed : Bool) : Trying mode start first .doBody { l with
      instructionBytes := l.incremented, malformedInstructionExpectUd := malformed } := by
  have here : l.incremented.get l.curByteIndex = l.instructionBytes.get l.curByteIndex + 1 :=
    Buffer.get_set_same _ _ _ inside
  have least := UInt8.le_iff_toNat_le.mp h.here
  have succ := byte_succ notFull
  refine ⟨h.index, h.before_incremented, h.behind_incremented, ?_, ?_, h.passed,
    fun _ => h.length rfl⟩
  · simp only [here]
    exact UInt8.le_iff_toNat_le.mpr (by omega)
  · intro v greater le
    simp only [here] at le
    rcases UInt8.lt_or_eq_of_le le with lt | rfl
    · exact h.tried v greater (le_of_lt_byte_succ notFull lt)
    · exact rejected

theorem pointerMeasure_rejected (l : PointerLoop) (inside : l.curByteIndex < 15)
    (notFull : l.instructionBytes.get l.curByteIndex ≠ 0xff) (malformed : Bool) :
    pointerMeasure .doBody { l with
      instructionBytes := l.incremented, malformedInstructionExpectUd := malformed } <
      pointerMeasure .doBody l := by
  have here : l.incremented.get l.curByteIndex = l.instructionBytes.get l.curByteIndex + 1 :=
    Buffer.get_set_same _ _ _ inside
  have room := (l.instructionBytes.get l.curByteIndex).toNat_lt
  simp only [pointerMeasure, here, if_neg notFull, byte_succ notFull, if_true]
  split <;> omega

theorem Trying.accepted (h : Trying mode start first .doBody l) (inside : l.curByteIndex < 15)
    (notFull : l.instructionBytes.get l.curByteIndex ≠ 0xff)
    (accepted : rejectedByFilter mode
      (start.string l.curByteIndex ++ [l.instructionBytes.get l.curByteIndex + 1]) = false) :
    NextCandidate mode start first { l with
      instructionBytes := l.incremented, malformedInstructionExpectUd := false } := by
  have here : l.incremented.get l.curByteIndex = l.instructionBytes.get l.curByteIndex + 1 :=
    Buffer.get_set_same _ _ _ inside
  have least := UInt8.le_iff_toNat_le.mp h.here
  have succ := byte_succ notFull
  refine ⟨h.index, h.before_incremented, h.behind_incremented, ?_, ?_, h.passed, h.length rfl,
    ?_, rfl⟩
  · simp only [here]
    exact UInt8.lt_iff_toNat_lt.mpr (by omega)
  · intro v greater lt
    simp only [here] at lt
    exact h.tried v greater (le_of_lt_byte_succ notFull lt)
  · simp only [PointerLoop.incremented, h.string inside]
    exact accepted

end

theorem pointer_step (mode : CpuMode) (start : Buffer) (first : Nat) (bound : first < 15)
    (label : PointerLabel) (l : PointerLoop) (h : Trying mode start first label l) :
    match pointerStep mode label l with
    | .inl (label', l') =>
      Trying mode start first label' l' ∧ pointerMeasure label' l' < pointerMeasure label l
    | .inr e => e.Correct mode start first := by
  have inside : l.curByteIndex < 15 := Nat.lt_of_le_of_lt h.index bound
  have read := l.instructionBytes.getElem?_eq l.curByteIndex inside
  cases label with
  | updateByteIndex =>
    simp only [pointerStep, read]
    by_cases full : l.instructionBytes.get l.curByteIndex = 0xff
    · simp only [if_pos full]
      by_cases zero : l.curByteIndex = 0
      · simp only [if_pos zero]
        exact fun k high => h.exhausted full k (zero ▸ Nat.zero_le k) high
      · simp only [if_neg zero]
        exact ⟨h.carry bound full zero, pointerMeasure_carry l zero⟩
    · simp only [if_neg full]
      refine ⟨⟨h.index, h.before, h.behind, h.here, h.tried, h.passed, fun _ => rfl⟩, ?_⟩
      simp only [pointerMeasure, if_neg full, reduceCtorEq, if_false, if_true]
      omega
  | doBody =>
    obtain ⟨answer, malformed⟩ := h.filter_incremented inside
    simp only [pointerStep, read]
    by_cases full : l.instructionBytes.get l.curByteIndex = 0xff
    · simp only [if_pos full]
      refine ⟨⟨h.index, h.before, h.behind, h.here, h.tried, h.passed, by simp⟩, ?_⟩
      simp [pointerMeasure, full]
    · have fold : l.instructionBytes.set l.curByteIndex
          (l.instructionBytes.get l.curByteIndex + 1) = l.incremented := rfl
      simp only [if_neg full, fold, answer, malformed]
      by_cases rejected : rejectedByFilter mode
          (start.string l.curByteIndex ++ [l.instructionBytes.get l.curByteIndex + 1]) = true
      · simp only [if_pos rejected]
        exact ⟨h.rejected inside full rejected false, pointerMeasure_rejected l inside full false⟩
      · simp only [if_neg rejected]
        exact h.accepted inside full (Bool.eq_false_iff.mpr rejected)

theorem pointer_run (mode : CpuMode) (start : Buffer) (first : Nat) (bound : first < 15)
    (fuel : Nat) (label : PointerLabel) (l : PointerLoop) (h : Trying mode start first label l)
    (enough : pointerMeasure label l < fuel) :
    ∃ e, runPointer mode fuel label l = some e ∧ e.Correct mode start first := by
  induction fuel generalizing label l with
  | zero => omega
  | succ fuel ih =>
    have step := pointer_step mode start first bound label l h
    unfold runPointer
    split
    · rename_i label' l' same
      simp only [same] at step
      exact ih label' l' step.1 (by omega)
    · rename_i e same
      simp only [same] at step
      exact ⟨e, rfl, step⟩

end PmcBruteforce
