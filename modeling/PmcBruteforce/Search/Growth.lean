import PmcBruteforce.Prefix.Filter
import PmcBruteforce.Search.Invariant

/-! What growth does to an accepted candidate. It appends zero bytes without asking the filter
again, and a zero is no valid last payload byte of VEX or EVEX. -/
namespace PmcBruteforce

variable {b : Build}

/-- The payload bytes of the VEX or EVEX prefix a string begins with, and 0 for all others. -/
def payloadLength (mode : CpuMode) : List UInt8 → Nat
  | [] => 0
  | b :: t =>
    match prefixKind mode b t.head? with
    | .opcode | .single => 0
    | .vex2 => 1
    | .vex3 => 2
    | .evex => 3

theorem prefixKind_zero (mode : CpuMode) (b : UInt8) :
    prefixKind mode b (some 0) = prefixKind mode b none := by
  have same : escapes mode (some 0) = escapes mode none := by cases mode <;> rfl
  simp only [prefixKind, same]

theorem prefixKind_grown (mode : CpuMode) (b : UInt8) (t : List UInt8) (k : Nat) :
    prefixKind mode b (t ++ List.replicate k 0).head? = prefixKind mode b t.head? := by
  cases t with
  | cons => rfl
  | nil =>
    cases k with
    | zero => rfl
    | succ => exact prefixKind_zero mode b

theorem startsWithOpcode_grown {mode : CpuMode} {t : List UInt8}
    (h : startsWithOpcode mode t = true) (k : Nat) :
    startsWithOpcode mode (t ++ List.replicate k 0) = true := by
  cases t with
  | cons b t =>
    simp only [List.cons_append, startsWithOpcode, prefixKind_grown]
    exact h
  | nil =>
    cases k with
    | zero => rfl
    | succ k =>
      have opcode : ∀ next, prefixKind mode 0 next = .opcode := by
        intro next
        cases mode <;> rfl
      simp [List.replicate_succ, startsWithOpcode, opcode]

theorem vex2PayloadOk_grown {t : List UInt8} (h : vex2PayloadOk t = true) (k : Nat) :
    vex2PayloadOk (t ++ List.replicate k 0) = false ↔ t.length < 1 ∧ 1 ≤ t.length + k := by
  match t, k with
  | _ :: _, _ => simpa [vex2PayloadOk] using h
  | [], 0 => simp [vex2PayloadOk]
  | [], k + 1 => simp [List.replicate_succ, vex2PayloadOk]

theorem vex3PayloadOk_grown {t : List UInt8} (h : vex3PayloadOk t = true) (k : Nat) :
    vex3PayloadOk (t ++ List.replicate k 0) = false ↔ t.length < 2 ∧ 2 ≤ t.length + k := by
  match t, k with
  | _ :: _ :: _, _ => simpa [vex3PayloadOk] using h
  | [], 0 | [], 1 | [_], 0 => simp [vex3PayloadOk]
  | [], k + 2 => simp [List.replicate_succ, vex3PayloadOk]
  | [_], k + 1 =>
    simp [List.replicate_succ, vex3PayloadOk]
    omega

theorem evexPayloadOk_grown {t : List UInt8} (h : evexPayloadOk t = true) (k : Nat) :
    evexPayloadOk (t ++ List.replicate k 0) = false ↔ t.length < 3 ∧ 3 ≤ t.length + k := by
  match t, k with
  | p0 :: p1 :: p2 :: t, k =>
    have kept : evexPayloadOk (p0 :: p1 :: p2 :: t ++ List.replicate k 0) = true := h
    rw [kept]
    simp
  | [], 0 | [], 1 | [], 2 | [_], 0 | [_], 1 | [_, _], 0 => simp [evexPayloadOk]
  | [], k + 3 => simp [List.replicate_succ, evexPayloadOk]
  | [_], k + 2 =>
    simp [List.replicate_succ, evexPayloadOk]
    omega
  | [_, _], k + 1 =>
    simp [List.replicate_succ, evexPayloadOk]
    omega

/-- Zeros behind an accepted string: it stays accepted unless they complete its payload. -/
theorem accepts_grown {mode : CpuMode} {b : UInt8} {t : List UInt8}
    (h : accepts mode (b :: t) = true) (k : Nat) :
    accepts mode (b :: t ++ List.replicate k 0) = false ↔
      t.length < payloadLength mode (b :: t) ∧ payloadLength mode (b :: t) ≤ t.length + k := by
  simp only [List.cons_append, accepts, prefixKind_grown, payloadLength] at h ⊢
  cases kind : prefixKind mode b t.head? with
  | opcode => simp
  | single =>
    rw [kind] at h
    simp [startsWithOpcode_grown h k]
  | evex =>
    rw [kind] at h
    exact evexPayloadOk_grown h k
  | vex3 =>
    rw [kind] at h
    exact vex3PayloadOk_grown h k
  | vex2 =>
    rw [kind] at h
    exact vex2PayloadOk_grown h k

theorem payloadLength_grown (mode : CpuMode) (b : UInt8) (t : List UInt8) (k : Nat) :
    payloadLength mode (b :: t ++ List.replicate k 0) = payloadLength mode (b :: t) := by
  simp only [List.cons_append, payloadLength, prefixKind_grown]

theorem Buffer.string_zeros (x : Buffer) {m n : Nat} (le : m ≤ n) (bound : n ≤ 15)
    (zeros : ∀ k, m ≤ k → x.get k = 0) :
    x.string n = x.string m ++ List.replicate (n - m) 0 := by
  induction n, le using Nat.le_induction with
  | base => simp
  | succ n le ih =>
    rw [x.string_succ n bound, zeros n le, ih (Nat.le_of_succ_le bound), Nat.succ_sub le,
      List.replicate_succ', List.append_assoc]

/-- The instruction has grown over the last payload byte of its VEX or EVEX prefix. -/
def GrownOverPayload (s : State b) : Prop :=
  s.curByteIndex < payloadLength b.cpuMode s.currentInstruction ∧
    payloadLength b.cpuMode s.currentInstruction < s.curInstructionLength

theorem Positioned.rejected_iff {s : State b} (h : Positioned s) :
    (containsInvalidCountOfPrefixes b.cpuMode s.instructionBytes.bytes
      s.curInstructionLength).invalid = true ↔ GrownOverPayload s := by
  have index := h.index
  have length := h.length
  have size := s.instructionBytes.size
  have candidate : accepts b.cpuMode (s.instructionBytes.string (s.curByteIndex + 1)) = true := by
    have accepted := h.accepted
    rw [contains_invalid_take _ _ _ (by omega), rejectedByFilter_eq] at accepted
    simpa [Buffer.string] using accepted
  have grown := s.instructionBytes.string_zeros (Nat.succ_le_of_lt index) length
    (fun k behind => h.behind k behind)
  have width := s.instructionBytes.string_length (s.curByteIndex + 1) (by omega)
  rw [contains_invalid_take _ _ _ (by omega), rejectedByFilter_eq, Bool.not_eq_true']
  change accepts b.cpuMode (s.instructionBytes.string s.curInstructionLength) = false ↔ _
  unfold GrownOverPayload State.currentInstruction
  rw [grown]
  cases string : s.instructionBytes.string (s.curByteIndex + 1) with
  | nil =>
    rw [string] at width
    cases width
  | cons first t =>
    rw [string] at candidate width
    rw [List.length_cons, Nat.succ.injEq] at width
    rw [accepts_grown candidate, payloadLength_grown, width]
    omega

/-- Every instruction in `unique_instructions_executed`, which `boot_unique_count` says these
are, passes the filter at its final length. -/
def AcceptedAtFinalLength (p : Platform) (t : Run b) : Prop :=
  ∀ e ∈ countedIn p t, (containsInvalidCountOfPrefixes b.cpuMode
    e.job.state.instructionBytes.bytes e.job.state.curInstructionLength).invalid = false

/-- The counted instructions of a run pass the filter exactly if none of them has grown over
its payload. -/
theorem accepted_at_final_length_iff (p : Platform) (rs : List (Response b)) :
    AcceptedAtFinalLength p (boot p rs) ↔
      ∀ e ∈ countedIn p (boot p rs), ¬ GrownOverPayload e.job.state := by
  refine forall₂_congr fun e member => ?_
  have positioned := (boot_log_consistent (List.mem_filter.mp member).1).positioned
  rw [← positioned.rejected_iff, Bool.not_eq_true]

def grownVexRun : Run (Build.makefile .mode64) :=
  boot Platform.reliable ([ud2Response, ud2Response] ++ List.replicate 0xc5 generalProtection ++
    [instructionFetchFault, generalProtection])

theorem grown_vex_rejected :
    ¬ AcceptedAtFinalLength Platform.reliable grownVexRun := by
  have ran : (countedIn Platform.reliable grownVexRun).any (fun e =>
      e.job.instruction == [0xc5, 0x00] && (containsInvalidCountOfPrefixes .mode64
        e.job.state.instructionBytes.bytes e.job.state.curInstructionLength).invalid) = true := by
    decide +kernel
  obtain ⟨e, member, both⟩ := List.any_eq_true.mp ran
  intro accepted
  exact Bool.eq_false_iff.mp (accepted e member) ((Bool.and_eq_true _ _).mp both).2

end PmcBruteforce
