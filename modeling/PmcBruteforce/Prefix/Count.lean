import PmcBruteforce.Prefix.Filter

/-! `count_prefixes` on the buffers the search builds: an accepted string followed by
zeros. The scan stops among the first four bytes there, so its look-ahead, which the
source does not guard, stays inside the array. -/
namespace PmcBruteforce

theorem isPrefix_eq (mode : CpuMode) (b n : UInt8) :
    isPrefix mode b n =
      match switchLabel b with
      | .evex => mode == .mode64 || decide (0xc0 ≤ n)
      | .other => mode == .mode64 && (b &&& 0xf0) == 0x40
      | _ => true := by
  unfold isPrefix
  generalize decide (0xc0 ≤ n) = register
  generalize (mode == CpuMode.mode64) = m64
  induction b using forall_byte
  revert m64 register
  decide +revert +kernel

/-- The loop of `count_prefixes` does not go past position `k`. -/
def StopsAt (mode : CpuMode) (bytes : List UInt8) (k : Nat) : Prop :=
  isPrefix mode (byteAt bytes k) (byteAt bytes (k + 1)) = false ∨
    (byteAt bytes k &&& 0xfe) = 0xc4

theorem getElem?_byteAt {bytes : List UInt8} {i : Nat} (h : i < bytes.length) :
    bytes[i]? = some (byteAt bytes i) := by
  simp [byteAt, List.getD_eq_getElem?_getD, h]

theorem countPrefixesFrom_stops (mode : CpuMode) (bytes : List UInt8) (length k : Nat)
    (inside : k + 1 < bytes.length) (stops : StopsAt mode bytes k) (remaining prefixes : Nat)
    (bound : prefixes + remaining = length) (before : prefixes ≤ k) :
    ∃ n, countPrefixesFrom mode bytes length remaining prefixes = some n ∧ n ≤ k + 1 := by
  induction remaining generalizing prefixes with
  | zero => exact ⟨prefixes, rfl, by omega⟩
  | succ remaining ih =>
    have guard : prefixes < length + 1 := by omega
    simp only [countPrefixesFrom, getElem?_byteAt (show prefixes < bytes.length by omega),
      getElem?_byteAt (show prefixes + 1 < bytes.length by omega), if_pos guard,
      Option.bind_eq_bind, Option.bind_some]
    split
    · split
      · exact ⟨prefixes + 1, rfl, by omega⟩
      · rename_i isP notVex
        have different : prefixes ≠ k := by
          rintro rfl
          rcases stops with h | h
          · simp [h] at isP
          · simp [h] at notVex
        exact ih (prefixes + 1) (by omega) (by omega)
    · exact ⟨prefixes, rfl, by omega⟩

theorem vex_masked_iff (b : UInt8) : (b &&& 0xfe) = 0xc4 ↔ switchLabel b = .vex := by
  induction b using forall_byte
  decide +revert +kernel

theorem prefixKind_vex {mode : CpuMode} {b : UInt8} {next : Option UInt8}
    (h : prefixKind mode b next = .vex3 ∨ prefixKind mode b next = .vex2) :
    switchLabel b = .vex := by
  unfold prefixKind at h
  cases label : switchLabel b <;> simp only [label] at h <;> first | rfl | skip
  all_goals
    rcases h with h | h <;> first | contradiction | (split at h <;> contradiction)

theorem stops_at_opcode (mode : CpuMode) (bytes : List UInt8) (k : Nat)
    (h : prefixKind mode (byteAt bytes k) (some (byteAt bytes (k + 1))) = .opcode) :
    StopsAt mode bytes k := by
  unfold StopsAt
  rw [isPrefix_eq]
  cases label : switchLabel (byteAt bytes k) with
  | vex => exact .inr ((vex_masked_iff _).mpr label)
  | evex => simp_all [prefixKind, escapes]
  | other => simp_all [prefixKind]
  | _ => simp_all [prefixKind]

theorem stops_at_zero (mode : CpuMode) (bytes : List UInt8) (k : Nat)
    (h : byteAt bytes k = 0) : StopsAt mode bytes k := by
  refine .inl ?_
  rw [h, isPrefix_eq]
  cases mode <;> rfl

theorem stops_at_evex_payload (mode : CpuMode) (bytes : List UInt8) (k : Nat)
    (h : byteAt bytes k &&& 0b01111000 = 0) : StopsAt mode bytes k := by
  have table : ∀ b : UInt8, b &&& 0b01111000 = 0 →
      switchLabel b = .other ∧ (b &&& 0xf0) ≠ 0x40 := forall_byte (by decide +kernel)
  obtain ⟨label, rex⟩ := table _ h
  refine .inl ?_
  rw [isPrefix_eq, label]
  simp [rex]

theorem accepted_stops (mode : CpuMode) (bytes : List UInt8) (m : Nat) (positive : 0 < m)
    (len : m ≤ bytes.length) (accepted : accepts mode (bytes.take m) = true)
    (zeros : ∀ i, m ≤ i → byteAt bytes i = 0) : ∃ k ≤ 3, StopsAt mode bytes k := by
  by_cases short : m ≤ 3
  · exact ⟨m, short, stops_at_zero mode bytes m (zeros m (Nat.le_refl _))⟩
  · obtain ⟨b0, b1, b2, b3, rest, rfl⟩ :
        ∃ b0 b1 b2 b3 rest, bytes = b0 :: b1 :: b2 :: b3 :: rest := by
      match bytes, len with
      | b0 :: b1 :: b2 :: b3 :: rest, _ => exact ⟨b0, b1, b2, b3, rest, rfl⟩
      | [], len | [_], len | [_, _], len | [_, _, _], len =>
        simp only [List.length_cons, List.length_nil] at len
        omega
    obtain ⟨n, rfl⟩ : ∃ n, m = n + 4 := ⟨m - 4, by omega⟩
    simp only [List.take_succ_cons, accepts, List.head?_cons] at accepted
    cases kind : prefixKind mode b0 (some b1) with
    | opcode => exact ⟨0, by omega, stops_at_opcode mode _ 0 kind⟩
    | single =>
      rw [kind] at accepted
      simp only [startsWithOpcode, List.head?_cons, beq_iff_eq] at accepted
      exact ⟨1, by omega, stops_at_opcode mode _ 1 accepted⟩
    | evex =>
      rw [kind] at accepted
      simp only [evexPayloadOk, Bool.and_eq_true, beq_iff_eq] at accepted
      exact ⟨2, by omega, stops_at_evex_payload mode _ 2 accepted.1.2⟩
    | vex3 | vex2 =>
      have vex : prefixKind mode b0 (some b1) = .vex3 ∨ prefixKind mode b0 (some b1) = .vex2 := by
        simp [kind]
      exact ⟨0, by omega, .inr ((vex_masked_iff _).mpr (prefixKind_vex vex))⟩

/-- The read the guard of the source does not protect is never out of bounds. -/
theorem count_prefixes_in_bounds (mode : CpuMode) (bytes : List UInt8) (m length : Nat)
    (positive : 0 < m) (len : m ≤ bytes.length) (room : 5 ≤ bytes.length)
    (accepted : accepts mode (bytes.take m) = true)
    (zeros : ∀ i, m ≤ i → byteAt bytes i = 0) :
    ∃ n, countPrefixes mode bytes length = some n ∧ n ≤ 4 := by
  obtain ⟨k, small, stops⟩ := accepted_stops mode bytes m positive len accepted zeros
  obtain ⟨n, count, le⟩ := countPrefixesFrom_stops mode bytes length k (by omega) stops length 0
    (Nat.zero_add _) (Nat.zero_le _)
  exact ⟨n, count, by omega⟩

end PmcBruteforce
