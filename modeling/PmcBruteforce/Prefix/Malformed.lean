import PmcBruteforce.Prefix.Filter

/-! VEX behind other prefixes. The switch of the filter sorts these strings into invalid
ones and into malformed ones that it means to keep; the test against MAX_PREFIXES comes
before the outcome is used. -/
namespace PmcBruteforce

def startsWithVex (mode : CpuMode) : List UInt8 → Bool
  | [] => false
  | b :: t => prefixKind mode b t.head? == .vex3 || prefixKind mode b t.head? == .vex2

/-- The payload bytes of VEX that are in the string pass the test of the filter. -/
def vexPayloadOk : List UInt8 → Bool
  | 0xc4 :: t => vex3PayloadOk t
  | 0xc5 :: t => vex2PayloadOk t
  | _ => true

def isRex (mode : CpuMode) (b : UInt8) : Bool := mode == .mode64 && (b &&& 0xf0) == 0x40

/-- LOCK in front of VEX, and REX in front of its two-byte form. -/
def malformedVex (mode : CpuMode) : List UInt8 → Bool
  | [] => false
  | b :: t =>
    startsWithVex mode t && (b == 0xf0 || isRex mode b && t.head? == some 0xc5) && vexPayloadOk t

/-- A run of prefix bytes in front of VEX with 0x66, 0xf2 or 0xf3 among them, or REX in front
of the three-byte form. -/
def InvalidVex (mode : CpuMode) (s : List UInt8) : Prop :=
  ∃ front vex, s = front ++ vex ∧ startsWithVex mode vex = true ∧
    (∀ b ∈ front, prefixKind mode b none = .single) ∧
    (0x66 ∈ front ∨ 0xf2 ∈ front ∨ 0xf3 ∈ front ∨
      (∃ b ∈ front, isRex mode b = true) ∧ vex.head? = some 0xc4)

/-- What the comment in the filter says about VEX behind other prefixes. -/
structure VexTreated (mode : CpuMode) (s : List UInt8) : Prop where
  kept : malformedVex mode s = true → containsInvalidCountOfPrefixes mode s s.length = ⟨false, true⟩
  invalid : InvalidVex mode s → (containsInvalidCountOfPrefixes mode s s.length).invalid = true
  other : malformedVex mode s = false →
    (containsInvalidCountOfPrefixes mode s s.length).invalid = false →
    (containsInvalidCountOfPrefixes mode s s.length).malformedInstructionExpectUd = false

theorem single_of_rex {mode : CpuMode} {b : UInt8} (rex : isRex mode b = true)
    (next : Option UInt8) : prefixKind mode b next = .single := by
  have label : ∀ b : UInt8, (b &&& 0xf0) = 0x40 → switchLabel b = .other :=
    forall_byte (by decide +kernel)
  simp only [isRex, Bool.and_eq_true, beq_iff_eq] at rex
  simp only [prefixKind, label b rex.2, rex, and_self, if_true]

theorem not_opcode_of_vex {mode : CpuMode} {s : List UInt8} (vex : startsWithVex mode s = true) :
    startsWithOpcode mode s = false := by
  cases s with
  | nil => cases vex
  | cons b t =>
    simp only [startsWithVex, Bool.or_eq_true, beq_iff_eq] at vex
    rcases vex with kind | kind <;> simp [startsWithOpcode, kind]

theorem rejects_prefixed_vex {mode : CpuMode} {front vex : List UInt8} (some_ : front ≠ [])
    (prefixes : ∀ b ∈ front, prefixKind mode b none = .single)
    (starts : startsWithVex mode vex = true) : accepts mode (front ++ vex) = false :=
  rejects_prefixed some_ prefixes (not_opcode_of_vex starts)

theorem malformedVex_rejected {mode : CpuMode} {s : List UInt8}
    (malformed : malformedVex mode s = true) : accepts mode s = false := by
  cases s with
  | nil => cases malformed
  | cons b t =>
    simp only [malformedVex, Bool.and_eq_true, Bool.or_eq_true, beq_iff_eq] at malformed
    obtain ⟨⟨starts, before⟩, -⟩ := malformed
    have single : prefixKind mode b none = .single := by
      rcases before with rfl | ⟨rex, -⟩
      · rfl
      · exact single_of_rex rex none
    exact rejects_prefixed_vex (List.cons_ne_nil b [])
      (fun c member => List.mem_singleton.mp member ▸ single) starts

theorem contains_invalid_string (mode : CpuMode) (s : List UInt8) :
    containsInvalidCountOfPrefixes mode s s.length =
      if accepts mode s then .accept else .reject := by
  rw [contains_invalid_eq mode s s.length (Nat.le_refl _), List.take_length]

/-- The strings that are to be kept never are, and all others are treated as the comment says. -/
theorem vex_treated_iff (mode : CpuMode) (s : List UInt8) :
    VexTreated mode s ↔ malformedVex mode s = false := by
  constructor
  · intro treated
    rw [Bool.eq_false_iff]
    intro malformed
    have kept := treated.kept malformed
    rw [contains_invalid_string, malformedVex_rejected malformed] at kept
    cases kept
  · intro notMalformed
    constructor
    · intro malformed
      exact absurd malformed (Bool.eq_false_iff.mp notMalformed)
    · rintro ⟨front, vex, rfl, starts, prefixes, before⟩
      have some_ : front ≠ [] := by
        rintro rfl
        simp at before
      rw [contains_invalid_string, rejects_prefixed_vex some_ prefixes starts]
      rfl
    · intro _ _
      exact contains_invalid_malformed mode s s.length (Nat.le_refl _)

theorem lock_vex_rejected :
    containsInvalidCountOfPrefixes .mode64 [0xf0, 0xc5, 0xf8, 0x77] 4 = ⟨true, false⟩ ∧
      ¬ VexTreated .mode64 [0xf0, 0xc5, 0xf8, 0x77] ∧
    containsInvalidCountOfPrefixes .mode64 [0x48, 0xc5, 0xf8, 0x77] 4 = ⟨true, false⟩ ∧
      ¬ VexTreated .mode64 [0x48, 0xc5, 0xf8, 0x77] := by
  have rejected : ∀ b, b = 0xf0 ∨ b = 0x48 →
      malformedVex .mode64 [b, 0xc5, 0xf8, 0x77] = true ∧
        containsInvalidCountOfPrefixes .mode64 [b, 0xc5, 0xf8, 0x77] 4 = ⟨true, false⟩ := by
    rintro b (rfl | rfl) <;> decide +kernel
  have untreated : ∀ b, b = 0xf0 ∨ b = 0x48 → ¬ VexTreated .mode64 [b, 0xc5, 0xf8, 0x77] := by
    intro b front treated
    obtain ⟨malformed, outcome⟩ := rejected b front
    cases outcome.symm.trans (treated.kept malformed)
  exact ⟨(rejected _ (.inl rfl)).2, untreated _ (.inl rfl),
    (rejected _ (.inr rfl)).2, untreated _ (.inr rfl)⟩

end PmcBruteforce
