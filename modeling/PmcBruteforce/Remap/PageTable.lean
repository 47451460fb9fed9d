import PmcBruteforce.Library.RadixTree
import PmcBruteforce.Machine.Build

/-! Page-table entries and the hardware's walk. A level counts the tables below: the source's
`PT - i`, so 0 is PT and 4 is PML5. Of the reserved bits the walk checks one, the page-size
bit of the two upper levels. -/
namespace PmcBruteforce

open Library

abbrev PageEntry := BitVec 64

def pagePresent : PageEntry := BitVec.twoPow 64 0
def pageWritable : PageEntry := BitVec.twoPow 64 1
def pageUser : PageEntry := BitVec.twoPow 64 2
def pageSize : PageEntry := BitVec.twoPow 64 7
def pageNoExecute : PageEntry := BitVec.twoPow 64 63

def cr0Wp : BitVec 64 := BitVec.twoPow 64 16
def cr4La57 : BitVec 64 := BitVec.twoPow 64 12

def has (e flag : BitVec 64) : Bool := e &&& flag != 0#64

theorem has_bit (e : BitVec 64) (n : Nat) : has e (BitVec.twoPow 64 n) = e.getLsbD n := by
  rw [has, BitVec.and_twoPow]
  by_cases set : e.getLsbD n = true
  · have inside : n < 64 := BitVec.lt_of_getLsbD set
    have different : BitVec.twoPow 64 n ≠ 0#64 := by
      intro zero
      have same := congrArg (fun x => BitVec.getLsbD x n) zero
      simp [inside] at same
    simp [set, different]
  · simp [Bool.eq_false_iff.mpr set]

@[simp] theorem has_present (e : PageEntry) : has e pagePresent = e.getLsbD 0 := has_bit e 0
@[simp] theorem has_writable (e : PageEntry) : has e pageWritable = e.getLsbD 1 := has_bit e 1
@[simp] theorem has_user (e : PageEntry) : has e pageUser = e.getLsbD 2 := has_bit e 2
@[simp] theorem has_size (e : PageEntry) : has e pageSize = e.getLsbD 7 := has_bit e 7
@[simp] theorem has_no_execute (e : PageEntry) : has e pageNoExecute = e.getLsbD 63 := has_bit e 63

/-- Bits 12 to 51 of an entry, where the physical address is. -/
def addressMask : BitVec 64 := 0x000ffffffffff000#64

theorem getLsbD_addressMask (n : Nat) :
    addressMask.getLsbD n = (decide (12 ≤ n) && decide (n < 52)) := by
  by_cases inside : n < 64
  · have all : ∀ i : Fin 64,
        addressMask.getLsbD i = (decide (12 ≤ i.val) && decide (i.val < 52)) := by decide
    exact all ⟨n, inside⟩
  · rw [BitVec.getLsbD_of_ge _ _ (by omega), decide_eq_false (by omega : ¬ n < 52), Bool.and_false]

def frameNumber (e : PageEntry) : Nat := (e.extractLsb' 12 40).toNat

theorem frameNumber_eq (e : PageEntry) : frameNumber e = e.toNat / 2 ^ 12 % 2 ^ 40 := by
  rw [frameNumber, BitVec.extractLsb'_toNat, Nat.shiftRight_eq_div_pow]

@[instance] theorem entryCount_neZero : @NeZero Nat Zero.ofOfNat0 512 := ⟨by decide⟩

abbrev PageTables := BitVec 64 → Fin 512 → PageEntry

def ptIndex (virt : BitVec 64) (level : Nat) : Fin 512 :=
  Fin.ofNat 512 (virt >>> (12 + 9 * level)).toNat

/-- The table an entry leads the processor to. -/
def hardwareChild : Nat → PageEntry → Option (BitVec 64)
  | 0, _ => none
  | _ + 1, e => if has e pagePresent && !has e pageSize then some (e &&& addressMask) else none

theorem hardwareChild_eq_some {level : Nat} {e : PageEntry} {sub : BitVec 64} :
    hardwareChild (level + 1) e = some sub ↔
      e.getLsbD 0 = true ∧ e.getLsbD 7 = false ∧ e &&& addressMask = sub := by
  simp only [hardwareChild, has_present, has_size, Option.ite_none_right_eq_some, Bool.and_eq_true,
    Bool.not_eq_true', Option.some.injEq, and_assoc]

theorem hardwareChild_eq_none {level : Nat} {e : PageEntry} :
    hardwareChild (level + 1) e = none ↔ (e.getLsbD 0 = true → e.getLsbD 7 = true) := by
  simp only [hardwareChild, has_present, has_size]
  cases e.getLsbD 0 <;> cases e.getLsbD 7 <;> simp

inductive Right where
  | read | write | user | execute
  deriving DecidableEq, Repr

def Right.inEntry : Right → PageEntry → Bool
  | read, _ => true
  | write, e => has e pageWritable
  | user, e => has e pageUser
  | execute, e => !has e pageNoExecute

def Right.allows (r : Right) (x : Nat × PageEntry) : Bool :=
  has x.2 pagePresent && !(decide (3 ≤ x.1) && has x.2 pageSize) && r.inEntry x.2

/-- The physical address of a virtual one when the walk ends at this entry. -/
def physicalAddress (virt : BitVec 64) (x : Nat × PageEntry) : BitVec 64 :=
  let offset : BitVec 64 := BitVec.twoPow 64 (12 + 9 * x.1) - 1
  x.2 &&& addressMask &&& ~~~offset ||| virt &&& offset

/-- The control registers, the page tables, and how many pages were asked for. -/
structure Paging where
  cr0 : BitVec 64
  cr3 : BitVec 64
  cr4 : BitVec 64
  tables : PageTables
  allocations : Nat

namespace Paging

def topLevel (s : Paging) : Nat := if has s.cr4 cr4La57 then 4 else 3

def root (s : Paging) : BitVec 64 := s.cr3 &&& addressMask

def walk (s : Paging) (virt : BitVec 64) : List (Nat × PageEntry) :=
  RadixTree.path hardwareChild s.tables s.topLevel s.root (ptIndex virt)

def hasRight (s : Paging) (virt : BitVec 64) (r : Right) : Bool := (s.walk virt).all r.allows

def translate (s : Paging) (virt : BitVec 64) : Option (BitVec 64) :=
  if s.hasRight virt .read then (s.walk virt).getLast?.map (physicalAddress virt) else none

def nodes (s : Paging) : Set (BitVec 64) := RadixTree.nodes hardwareChild s.tables s.topLevel s.root

def TreeShaped (s : Paging) : Prop := RadixTree.TreeShaped hardwareChild s.tables s.topLevel s.root

end Paging

/-- The large pages an entry can map: 2 MiB and 1 GiB ones. The frames above its own are in
the 52-bit space also when the attribute bit 12 is counted as part of the frame. -/
def ProperEntry (level : Nat) (e : PageEntry) : Prop :=
  e.getLsbD 0 = true → e.getLsbD 7 = true → 0 < level →
    level ≤ 2 ∧ frameNumber e + 512 ^ level ≤ 2 ^ 40

instance (level : Nat) (e : PageEntry) : Decidable (ProperEntry level e) :=
  inferInstanceAs (Decidable (_ → _ → _ → _))

/-- No two ways lead to one table, and every large page is a proper one. -/
structure Paging.WellFormed (s : Paging) : Prop where
  shaped : s.TreeShaped
  proper : RadixTree.AllEntries hardwareChild ProperEntry s.tables s.topLevel s.root

end PmcBruteforce
