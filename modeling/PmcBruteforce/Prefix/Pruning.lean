import PmcBruteforce.Prefix.Filter

/-! Acceptance is inherited by prefixes. A test that the filter skips at the end of a short
string can only fail later, so that a rejected string has no accepted extension. -/
namespace PmcBruteforce

theorem prefixKind_none (mode : CpuMode) (b n : UInt8) :
    prefixKind mode b none = prefixKind mode b (some n) ∨ prefixKind mode b none = .opcode := by
  have less : escapes mode none = escapes mode (some n) ∨ escapes mode none = false := by
    cases mode <;> simp [escapes]
  unfold prefixKind
  cases switchLabel b with
  | evex | vex =>
    rcases less with same | outside
    · exact .inl (by simp only [same])
    · exact .inr (by simp [outside])
  | _ => exact .inl rfl

theorem evexPayloadOk_of_append {s t : List UInt8} (h : evexPayloadOk (s ++ t) = true) :
    evexPayloadOk s = true := by
  match s with
  | [] | [_] | [_, _] => rfl
  | _ :: _ :: _ :: _ => exact h

theorem vex3PayloadOk_of_append {s t : List UInt8} (h : vex3PayloadOk (s ++ t) = true) :
    vex3PayloadOk s = true := by
  match s with
  | [] | [_] => rfl
  | _ :: _ :: _ => exact h

theorem vex2PayloadOk_of_append {s t : List UInt8} (h : vex2PayloadOk (s ++ t) = true) :
    vex2PayloadOk s = true := by
  cases s with
  | nil => rfl
  | cons => exact h

theorem startsWithOpcode_of_append {mode : CpuMode} {s t : List UInt8}
    (h : startsWithOpcode mode (s ++ t) = true) : startsWithOpcode mode s = true := by
  cases s with
  | nil => rfl
  | cons b s =>
    simp only [List.cons_append, startsWithOpcode, beq_iff_eq] at h ⊢
    cases s with
    | cons => exact h
    | nil =>
      cases t with
      | nil => exact h
      | cons n t =>
        rcases prefixKind_none mode b n with same | opcode
        · exact same.trans h
        · exact opcode

theorem accepts_of_append {mode : CpuMode} {s t : List UInt8}
    (h : accepts mode (s ++ t) = true) : accepts mode s = true := by
  match s with
  | [] => rfl
  | [b] =>
    -- A single byte passes every test.
    simp only [accepts, List.head?_nil]
    cases prefixKind mode b none <;> rfl
  | b :: c :: s =>
    simp only [List.cons_append, accepts, List.head?_cons] at h ⊢
    cases kind : prefixKind mode b (some c) with
    | opcode => rfl
    | single =>
      rw [kind] at h
      exact startsWithOpcode_of_append (s := c :: s) h
    | evex =>
      rw [kind] at h
      exact evexPayloadOk_of_append (s := c :: s) h
    | vex3 =>
      rw [kind] at h
      exact vex3PayloadOk_of_append (s := c :: s) h
    | vex2 =>
      rw [kind] at h
      exact vex2PayloadOk_of_append (s := c :: s) h

theorem rejected_append {mode : CpuMode} {s : List UInt8}
    (rejected : rejectedByFilter mode s = true) (t : List UInt8) :
    rejectedByFilter mode (s ++ t) = true := by
  rw [rejectedByFilter_eq, Bool.not_eq_true'] at rejected ⊢
  cases longer : accepts mode (s ++ t) with
  | false => rfl
  | true => exact absurd (accepts_of_append longer) (Bool.eq_false_iff.mp rejected)

/-- A candidate dropped before its remaining bytes are known hides nothing. -/
theorem pruning_sound (mode : CpuMode) (s t : List UInt8)
    (rejected : (containsInvalidCountOfPrefixes mode s s.length).invalid = true) :
    (containsInvalidCountOfPrefixes mode (s ++ t) (s ++ t).length).invalid = true :=
  rejected_append rejected t

theorem two_prefixes_pruned :
    (containsInvalidCountOfPrefixes .mode64 [0x66, 0xf0] 2).invalid = true ∧
      (containsInvalidCountOfPrefixes .mode64 [0x66, 0xf0, 0x0f, 0xb1] 4).invalid = true :=
  ⟨by decide +kernel, pruning_sound .mode64 [0x66, 0xf0] [0x0f, 0xb1] (by decide +kernel)⟩

end PmcBruteforce
