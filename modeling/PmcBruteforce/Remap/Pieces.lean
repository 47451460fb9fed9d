import PmcBruteforce.Remap.Entries

/-! The pieces a large page is split into: where each maps an address of its own, and with
which attributes. -/
namespace PmcBruteforce

/-- A present 2 MiB or 1 GiB entry. The bits between PAT and the address are reserved. -/
structure LargePage (level : Nat) (e : PageEntry) : Prop where
  present : e.getLsbD 0 = true
  size : e.getLsbD 7 = true
  height : level = 1 ∨ level = 2
  reserved : ∀ n, 13 ≤ n → n < 12 + 9 * level → e.getLsbD n = false

structure Attributes where
  writable : Bool
  user : Bool
  writeThrough : Bool
  cacheDisable : Bool
  global : Bool
  noExecute : Bool
  pat : Bool
  deriving DecidableEq, Repr

/-- The attributes of a leaf. PAT is bit 7 of a 4 KiB entry and bit 12 of a larger one. -/
def attributes (x : Nat × PageEntry) : Attributes where
  writable := has x.2 pageWritable
  user := has x.2 pageUser
  writeThrough := x.2.getLsbD 3
  cacheDisable := x.2.getLsbD 4
  global := x.2.getLsbD 8
  noExecute := has x.2 pageNoExecute
  pat := if x.1 = 0 then x.2.getLsbD 7 else x.2.getLsbD 12

theorem getLsbD_offset {k : Nat} (inside : k < 64) (n : Nat) :
    (BitVec.twoPow 64 k - 1).getLsbD n = decide (n < k) := by
  have bound : 2 ^ k < 2 ^ 64 := Nat.pow_lt_pow_of_lt (by decide) inside
  have positive : 0 < 2 ^ k := Nat.pow_pos (by decide)
  have value : (BitVec.twoPow 64 k - 1).toNat = 2 ^ k - 1 := by
    have one : (1 : BitVec 64).toNat = 1 := rfl
    rw [BitVec.toNat_sub, BitVec.toNat_twoPow, one, Nat.mod_eq_of_lt bound]
    omega
  rw [BitVec.getLsbD, value, Nat.testBit_two_pow_sub_one]

theorem getLsbD_physicalAddress (virt : BitVec 64) {level : Nat} (inside : level ≤ 4)
    (e : PageEntry) (n : Nat) :
    (physicalAddress virt (level, e)).getLsbD n =
      if n < 12 + 9 * level then virt.getLsbD n else e.getLsbD n && decide (n < 52) := by
  have offset := getLsbD_offset (show 12 + 9 * level < 64 by omega) n
  simp only [physicalAddress, BitVec.getLsbD_or, BitVec.getLsbD_and, BitVec.getLsbD_not,
    getLsbD_addressMask, offset]
  by_cases low : n < 12 + 9 * level
  · simp [low]
  · have high : 12 ≤ n := by omega
    by_cases top : n < 52
    · have word : n < 64 := by omega
      simp [low, high, top, word]
    · simp [low, top]

theorem testBit_ptIndex (w : BitVec 64) (level : Nat) (n : Nat) :
    (ptIndex w level).val.testBit n = (decide (n < 9) && w.getLsbD (12 + 9 * level + n)) := by
  have value : (ptIndex w level).val = (w >>> (12 + 9 * level)).toNat % 2 ^ 9 := rfl
  rw [value, Nat.testBit_mod_two_pow, BitVec.testBit_toNat, BitVec.getLsbD_ushiftRight]

theorem testBit_index (j : Fin 512) {n : Nat} (large : 9 ≤ n) : j.val.testBit n = false := by
  apply Nat.testBit_lt_two_pow
  have bound : 2 ^ 9 ≤ 2 ^ n := Nat.pow_le_pow_right (by decide) large
  exact lt_of_lt_of_le j.isLt bound

theorem getLsbD_pieceOf {level : Nat} {e : PageEntry}
    (clear : ∀ n, 12 + 9 * level ≤ n → n < 21 + 9 * level → e.getLsbD n = false)
    (j : Fin 512) (n : Nat) :
    (pieceOf level e j).getLsbD n =
      ((e.getLsbD n && !(decide (level = 0) && decide (n = 7))) ||
        (decide (12 + 9 * level ≤ n) && decide (n < 64) &&
          j.val.testBit (n - (12 + 9 * level)))) := by
  have offset : BitVec.twoPow 64 (12 + 9 * level) * BitVec.ofNat 64 j =
      BitVec.ofNat 64 j <<< (12 + 9 * level) := by
    rw [BitVec.mul_comm, BitVec.mul_twoPow_eq_shiftLeft]
  have bits : ∀ n, (BitVec.ofNat 64 j.val <<< (12 + 9 * level)).getLsbD n =
      (decide (12 + 9 * level ≤ n) && decide (n < 64) &&
        j.val.testBit (n - (12 + 9 * level))) := by
    intro n
    rw [BitVec.getLsbD_shiftLeft, BitVec.getLsbD_ofNat]
    by_cases inside : n < 64
    · have shifted : n - (12 + 9 * level) < 64 := by omega
      have above : (!decide (n < 12 + 9 * level)) = decide (12 + 9 * level ≤ n) := by
        rw [← decide_not, decide_eq_decide, Nat.not_lt]
      rw [above, decide_eq_true inside, decide_eq_true shifted]
      simp
    · simp [inside]
  have disjoint : pieceBase level e &&& BitVec.ofNat 64 j.val <<< (12 + 9 * level) = 0#64 := by
    apply BitVec.eq_of_getLsbD_eq
    intro n _
    rw [BitVec.getLsbD_and, bits, getLsbD_pieceBase, BitVec.getLsbD_zero]
    by_cases low : 12 + 9 * level ≤ n
    · by_cases high : n < 21 + 9 * level
      · rw [clear n low high, Bool.false_and, Bool.false_and]
      · rw [testBit_index j (by omega), Bool.and_false, Bool.and_false]
    · rw [decide_eq_false low, Bool.false_and, Bool.false_and, Bool.and_false]
  have sum : pieceOf level e j =
      pieceBase level e ||| BitVec.ofNat 64 j.val <<< (12 + 9 * level) := by
    rw [← BitVec.add_eq_or_of_and_eq_zero _ _ disjoint, ← offset]
    rfl
  rw [sum, BitVec.getLsbD_or, bits, getLsbD_pieceBase]

namespace LargePage

variable {level : Nat} {e : PageEntry}

theorem clear (large : LargePage (level + 1) e) (noPat : level = 0 → e.getLsbD 12 = false) (n : Nat)
    (low : 12 + 9 * level ≤ n) (high : n < 21 + 9 * level) : e.getLsbD n = false := by
  by_cases pat : n = 12
  · subst pat
    exact noPat (by omega)
  · exact large.reserved n (by omega) (by omega)

theorem small (large : LargePage (level + 1) e) : level ≤ 1 := by
  rcases large.height with one | two
  · omega
  · omega

theorem piece (large : LargePage (level + 2) e) (j : Fin 512) :
    LargePage (level + 1) (pieceOf (level + 1) e j) ∧
      (pieceOf (level + 1) e j).getLsbD 12 = e.getLsbD 12 := by
  have bits := getLsbD_pieceOf (large.clear fun zero => absurd zero (Nat.succ_ne_zero level)) j
  have below : ∀ n < 12 + 9 * (level + 1), (pieceOf (level + 1) e j).getLsbD n = e.getLsbD n := by
    intro n low
    rw [bits, decide_eq_false (Nat.succ_ne_zero level), decide_eq_false (Nat.not_le.mpr low)]
    simp
  have height := large.height
  refine ⟨⟨?_, ?_, ?_, ?_⟩, ?_⟩
  · rw [below 0 (by omega)]
    exact large.present
  · rw [below 7 (by omega)]
    exact large.size
  · omega
  · intro n above under
    rw [below n under]
    exact large.reserved n above (by omega)
  · exact below 12 (by omega)

theorem piece_maps (large : LargePage (level + 1) e) (noPat : level = 0 → e.getLsbD 12 = false)
    (w : BitVec 64) :
    physicalAddress w (level, pieceOf level e (ptIndex w level)) =
        physicalAddress w (level + 1, e) ∧
      attributes (level, pieceOf level e (ptIndex w level)) = attributes (level + 1, e) := by
  have bits := getLsbD_pieceOf (large.clear noPat) (ptIndex w level)
  have small := large.small
  constructor
  · apply BitVec.eq_of_getLsbD_eq
    intro n word
    rw [getLsbD_physicalAddress w (by omega), getLsbD_physicalAddress w (by omega), bits,
      testBit_ptIndex]
    by_cases low : n < 12 + 9 * level
    · rw [if_pos low, if_pos (by omega)]
    · rw [if_neg low]
      by_cases own : n < 12 + 9 * (level + 1)
      · have index : 12 + 9 * level + (n - (12 + 9 * level)) = n := by omega
        rw [if_pos own, large.clear noPat n (by omega) (by omega), index]
        simp [word, Nat.not_lt.mp low, (by omega : n - (12 + 9 * level) < 9), (by omega : n < 52)]
      · rw [if_neg own]
        rw [decide_eq_false (by omega : ¬ n - (12 + 9 * level) < 9),
          decide_eq_false (by omega : n ≠ 7)]
        simp
  · have flag : ∀ n < 12, n ≠ 7 →
        (pieceOf level e (ptIndex w level)).getLsbD n = e.getLsbD n := by
      intro n low other
      rw [pieceOf_low _ _ _ low, decide_eq_false other]
      simp
    have top : (pieceOf level e (ptIndex w level)).getLsbD 63 = e.getLsbD 63 := by
      rw [bits, testBit_ptIndex, decide_eq_false (by omega : ¬ 63 - (12 + 9 * level) < 9)]
      simp
    have pat : (if level = 0 then (pieceOf level e (ptIndex w level)).getLsbD 7
        else (pieceOf level e (ptIndex w level)).getLsbD 12) = e.getLsbD 12 := by
      by_cases zero : level = 0
      · rw [if_pos zero, noPat zero, pieceOf_low _ _ _ (by decide), zero]
        simp
      · rw [if_neg zero, bits, decide_eq_false zero,
          decide_eq_false (by omega : ¬ 12 + 9 * level ≤ 12)]
        simp
    simp only [attributes, has_writable, has_user, has_no_execute, pat, top, flag 1 (by decide)
      (by decide), flag 2 (by decide) (by decide), flag 3 (by decide) (by decide),
      flag 4 (by decide) (by decide), flag 8 (by decide) (by decide), Nat.succ_ne_zero, if_false]

end LargePage

/-- The leaf that maps `w` when the call has split the page `e` on its way to `virt`, down from
the table of this level. -/
def splitLeaf (virt w : BitVec 64) : Nat → PageEntry → Nat × PageEntry
  | 0, e => (0, pieceOf 0 e (ptIndex w 0))
  | level + 1, e =>
    if ptIndex w (level + 1) = ptIndex virt (level + 1) then
      splitLeaf virt w level (pieceOf (level + 1) e (ptIndex virt (level + 1)))
    else (level + 1, pieceOf (level + 1) e (ptIndex w (level + 1)))

theorem splitLeaf_level_eq_zero {virt w : BitVec 64} {level : Nat} {e : PageEntry} :
    (splitLeaf virt w level e).1 = 0 ↔ ∀ k, 1 ≤ k → k ≤ level → ptIndex w k = ptIndex virt k := by
  induction level generalizing e with
  | zero =>
    refine iff_of_true rfl fun k positive le => ?_
    omega
  | succ level ih =>
    by_cases same : ptIndex w (level + 1) = ptIndex virt (level + 1)
    · rw [splitLeaf, if_pos same, ih]
      constructor
      · intro below k positive le
        rcases Nat.le_succ_iff.mp le with le | rfl
        · exact below k positive le
        · exact same
      · intro all k positive le
        exact all k positive (Nat.le_succ_of_le le)
    · rw [splitLeaf, if_neg same]
      refine iff_of_false (Nat.succ_ne_zero level) fun all => ?_
      exact same (all (level + 1) (Nat.le_add_left 1 level) le_rfl)

/-- Where the leaf is a 4 KiB entry, the PAT bit of the large page is an address bit of it. -/
theorem LargePage.split_kept_iff (virt w : BitVec 64) {level : Nat} {e : PageEntry}
    (large : LargePage (level + 1) e) :
    (physicalAddress w (splitLeaf virt w level e) = physicalAddress w (level + 1, e) ∧
        attributes (splitLeaf virt w level e) = attributes (level + 1, e)) ↔
      e.getLsbD 12 = false ∨ (splitLeaf virt w level e).1 ≠ 0 := by
  induction level generalizing e with
  | zero =>
    constructor
    · rintro ⟨-, same⟩
      have pat := congrArg Attributes.pat same
      have lost : (attributes (splitLeaf virt w 0 e)).pat = false := by
        simp only [attributes, splitLeaf, if_true]
        rw [pieceOf_low _ _ _ (by decide)]
        simp
      rw [lost] at pat
      exact .inl pat.symm
    · rintro (noPat | above)
      · exact large.piece_maps (fun _ => noPat) w
      · exact absurd rfl above
  | succ level ih =>
    have maps := large.piece_maps (fun zero => absurd zero (Nat.succ_ne_zero level)) w
    by_cases same : ptIndex w (level + 1) = ptIndex virt (level + 1)
    · obtain ⟨piece, pat⟩ := large.piece (ptIndex virt (level + 1))
      rw [same] at maps
      rw [splitLeaf, if_pos same, ← maps.1, ← maps.2, ← pat]
      exact ih piece
    · rw [splitLeaf, if_neg same]
      exact iff_of_true maps (.inr (Nat.succ_ne_zero level))

end PmcBruteforce
