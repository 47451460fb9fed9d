import PmcBruteforce.Prefix.Filter

/-! The register fields in the payload of VEX and EVEX. They are stored inverted, so a field of
ones names no extension and no second source: the payload the filter means to keep. -/
namespace PmcBruteforce

def field (byte : UInt8) (low width : Nat) : Nat := byte.toNat / 2 ^ low % 2 ^ width

inductive Escape where
  | vex2 (b1 : UInt8)
  | vex3 (b1 b2 : UInt8)
  | evex (p0 p1 p2 : UInt8)
  deriving DecidableEq, Repr

namespace Escape

def kind : Escape → PrefixKind
  | vex2 _ => .vex2
  | vex3 _ _ => .vex3
  | evex _ _ _ => .evex

def payload : Escape → List UInt8
  | vex2 b1 => [b1]
  | vex3 b1 b2 => [b1, b2]
  | evex p0 p1 p2 => [p0, p1, p2]

/-- R, X, B and R' of EVEX extend nothing, V' is not used, and neither are z, b and aaa. -/
def EvexUnextended (p0 p2 : UInt8) : Prop :=
  field p0 7 1 = 1 ∧ field p0 6 1 = 1 ∧ field p0 5 1 = 1 ∧ field p0 4 1 = 1 ∧
    field p2 3 1 = 1 ∧ field p2 7 1 = 0 ∧ field p2 4 1 = 0 ∧ field p2 0 3 = 0

/-- No extension and no second source: R, X, B and R' set, vvvv and V' all ones. -/
def Canonical : Escape → Prop
  | vex2 b1 => field b1 7 1 = 1 ∧ field b1 3 4 = 15
  | vex3 b1 b2 =>
    field b1 7 1 = 1 ∧ field b1 6 1 = 1 ∧ field b1 5 1 = 1 ∧ field b2 3 4 = 15
  | evex p0 p1 p2 => EvexUnextended p0 p2 ∧ field p1 3 4 = 15

end Escape

structure Reaches (mode : CpuMode) (s front : List UInt8) (first : UInt8) (e : Escape)
    (rest : List UInt8) : Prop where
  split : s = front ++ first :: (e.payload ++ rest)
  prefixes : ∀ b ∈ front, prefixKind mode b none = .single
  escape : prefixKind mode first e.payload.head? = e.kind

/-- Of the escapes the scan reaches in front of MAX_PREFIXES those with a canonical payload are
kept, and in what is kept there are no others. -/
structure PayloadsCanonical (mode : CpuMode) (s : List UInt8) : Prop where
  canonical : ∀ front first e rest, Reaches mode s front first e rest →
    (containsInvalidCountOfPrefixes mode s s.length).invalid = false → e.Canonical
  accepted : ∀ front first e rest, Reaches mode s front first e rest →
    front.length < maxPrefixes → e.Canonical →
      (containsInvalidCountOfPrefixes mode s s.length).invalid = false

def StartsWithPlainEvex (mode : CpuMode) (s : List UInt8) : Prop :=
  ∃ first p0 p1 p2 rest, s = first :: p0 :: p1 :: p2 :: rest ∧
    prefixKind mode first (some p0) = .evex ∧ Escape.EvexUnextended p0 p2 ∧
      (field p1 3 4 = 0 ∨ field p1 3 4 = 15)

/-- Each mask of the filter, in the order of the source, with the fields it stands for. EVEX has
the vvvv mask of VEX compared with zero. -/
theorem payload_masks (b : UInt8) :
    ((b &&& 0b11110000) = 0b11110000 ↔
      field b 7 1 = 1 ∧ field b 6 1 = 1 ∧ field b 5 1 = 1 ∧ field b 4 1 = 1) ∧
    ((b &&& 0b01111000) = 0 ↔ field b 3 4 = 0) ∧
    ((b &&& 0b10011111) = 0b00001000 ↔
      field b 3 1 = 1 ∧ field b 7 1 = 0 ∧ field b 4 1 = 0 ∧ field b 0 3 = 0) ∧
    ((b &&& 0b11100000) = 0b11100000 ↔
      field b 7 1 = 1 ∧ field b 6 1 = 1 ∧ field b 5 1 = 1) ∧
    ((b &&& 0b01111000) = 0b01111000 ↔ field b 3 4 = 15) ∧
    ((b &&& 0b11111000) = 0b11111000 ↔ field b 7 1 = 1 ∧ field b 3 4 = 15) := by
  induction b using forall_byte
  decide +revert +kernel

def Escape.Kept : Escape → Prop
  | .evex p0 p1 p2 => EvexUnextended p0 p2 ∧ field p1 3 4 = 0
  | e => e.Canonical

section

variable {mode : CpuMode} {s front rest : List UInt8} {first : UInt8} {e : Escape}

theorem accepts_escape (escape : prefixKind mode first e.payload.head? = e.kind) :
    accepts mode (first :: (e.payload ++ rest)) = true ↔ e.Kept := by
  cases e with
  | vex2 b1 =>
    have kind : prefixKind mode first (some b1) = .vex2 := escape
    simp only [accepts, Escape.payload, List.cons_append, List.head?_cons, kind, vex2PayloadOk,
      beq_iff_eq]
    obtain ⟨-, -, -, -, -, mask⟩ := payload_masks b1
    exact mask
  | vex3 b1 b2 =>
    have kind : prefixKind mode first (some b1) = .vex3 := escape
    obtain ⟨-, -, -, extensions, -, -⟩ := payload_masks b1
    obtain ⟨-, -, -, -, operand, -⟩ := payload_masks b2
    simp only [accepts, Escape.payload, List.cons_append, List.head?_cons, kind, vex3PayloadOk,
      Bool.and_eq_true, beq_iff_eq, extensions, operand]
    exact ⟨fun h => ⟨h.1.1, h.1.2.1, h.1.2.2, h.2⟩, fun h => ⟨⟨h.1, h.2.1, h.2.2.1⟩, h.2.2.2⟩⟩
  | evex p0 p1 p2 =>
    have kind : prefixKind mode first (some p0) = .evex := escape
    obtain ⟨extensions, -, -, -, -, -⟩ := payload_masks p0
    obtain ⟨-, operand, -, -, -, -⟩ := payload_masks p1
    obtain ⟨-, -, last, -, -, -⟩ := payload_masks p2
    simp only [accepts, Escape.payload, List.cons_append, List.head?_cons, kind, evexPayloadOk,
      Bool.and_eq_true, beq_iff_eq, extensions, operand, last]
    exact ⟨fun h => ⟨⟨h.1.1.1, h.1.1.2.1, h.1.1.2.2.1, h.1.1.2.2.2, h.2⟩, h.1.2⟩,
      fun h => ⟨⟨⟨h.1.1, h.1.2.1, h.1.2.2.1, h.1.2.2.2.1⟩, h.2⟩, h.1.2.2.2.2⟩⟩

theorem Reaches.accepted_iff (h : Reaches mode s front first e rest) :
    accepts mode s = true ↔ front = [] ∧ e.Kept := by
  rw [h.split]
  by_cases nothing : front = []
  · subst nothing
    rw [List.nil_append, accepts_escape h.escape]
    exact ⟨fun kept => ⟨rfl, kept⟩, And.right⟩
  · have head : (e.payload ++ rest).head? = e.payload.head? := by cases e <;> rfl
    have noOpcode : startsWithOpcode mode (first :: (e.payload ++ rest)) = false := by
      rw [startsWithOpcode, head, h.escape]
      cases e <;> rfl
    rw [rejects_prefixed nothing h.prefixes noOpcode]
    exact iff_of_false Bool.false_ne_true fun both => nothing both.1

theorem Escape.canonical_iff_kept (other : ∀ p0 p1 p2, e = .evex p0 p1 p2 →
    ¬ (EvexUnextended p0 p2 ∧ (field p1 3 4 = 0 ∨ field p1 3 4 = 15))) :
    e.Canonical ↔ e.Kept := by
  cases e with
  | vex2 | vex3 => exact Iff.rfl
  | evex p0 p1 p2 =>
    have never := other p0 p1 p2 rfl
    exact ⟨fun h => absurd ⟨h.1, .inr h.2⟩ never, fun h => absurd ⟨h.1, .inl h.2⟩ never⟩

end

/-- The filter keeps the canonical payloads, and no others, but for EVEX: of those without
extensions it keeps the ones with a second source of zeros and drops the canonical ones. -/
theorem payloads_canonical_iff (mode : CpuMode) (s : List UInt8) :
    PayloadsCanonical mode s ↔ ¬ StartsWithPlainEvex mode s := by
  constructor
  · rintro sound ⟨first, p0, p1, p2, rest, rfl, escape, unextended, operand⟩
    have reaches : Reaches mode (first :: p0 :: p1 :: p2 :: rest) [] first (.evex p0 p1 p2) rest :=
      ⟨rfl, fun b member => (by cases member), escape⟩
    have accepted := reaches.accepted_iff
    rw [← valid_iff_accepts] at accepted
    rcases operand with zeros | ones
    · have canonical := sound.canonical _ _ _ _ reaches
        (accepted.mpr ⟨rfl, unextended, zeros⟩)
      exact absurd (zeros.symm.trans canonical.2) (by decide)
    · have kept := sound.accepted _ _ _ _ reaches Nat.zero_lt_one ⟨unextended, ones⟩
      exact absurd ((accepted.mp kept).2.2.symm.trans ones) (by decide)
  · intro notPlain
    have agree : ∀ {front first e rest}, Reaches mode s front first e rest → front = [] →
        (e.Canonical ↔ e.Kept) := by
      rintro front first e rest reaches rfl
      apply Escape.canonical_iff_kept
      rintro p0 p1 p2 rfl both
      exact notPlain ⟨first, p0, p1, p2, rest, reaches.split, reaches.escape, both⟩
    constructor
    · intro front first e rest reaches valid
      obtain ⟨nothing, kept⟩ := reaches.accepted_iff.mp ((valid_iff_accepts mode s).mp valid)
      exact (agree reaches nothing).mpr kept
    · intro front first e rest reaches within canonical
      have nothing := List.length_eq_zero_iff.mp (Nat.lt_one_iff.mp within)
      exact (valid_iff_accepts mode s).mpr
        (reaches.accepted_iff.mpr ⟨nothing, (agree reaches nothing).mp canonical⟩)

theorem canonical_evex_rejected :
    (containsInvalidCountOfPrefixes .mode64 [0x62, 0xf1, 0x7c, 0x48, 0x58, 0xc0] 6).invalid = true ∧
      ¬ PayloadsCanonical .mode64 [0x62, 0xf1, 0x7c, 0x48, 0x58, 0xc0] ∧
    (containsInvalidCountOfPrefixes .mode64 [0x62, 0xf1, 0x04, 0x48, 0x58, 0xc0] 6).invalid = false ∧
      ¬ PayloadsCanonical .mode64 [0x62, 0xf1, 0x04, 0x48, 0x58, 0xc0] := by
  have reaches : ∀ p1, Reaches .mode64 [0x62, 0xf1, p1, 0x48, 0x58, 0xc0] [] 0x62
      (.evex 0xf1 p1 0x48) [0x58, 0xc0] :=
    fun p1 => ⟨rfl, fun b member => (by cases member), rfl⟩
  have canonical : (Escape.evex 0xf1 0x7c 0x48).Canonical := by
    unfold Escape.Canonical Escape.EvexUnextended
    decide
  have rejected : (containsInvalidCountOfPrefixes .mode64
      [0x62, 0xf1, 0x7c, 0x48, 0x58, 0xc0] 6).invalid = true := by decide +kernel
  have kept : (containsInvalidCountOfPrefixes .mode64
      [0x62, 0xf1, 0x04, 0x48, 0x58, 0xc0] 6).invalid = false := by decide +kernel
  refine ⟨rejected, fun sound => ?_, kept, fun sound => ?_⟩
  · have accepted := sound.accepted _ _ _ _ (reaches 0x7c) Nat.zero_lt_one canonical
    cases rejected.symm.trans accepted
  · have operand := (sound.canonical _ _ _ _ (reaches 0x04) kept).2
    exact absurd operand (by decide)

end PmcBruteforce
