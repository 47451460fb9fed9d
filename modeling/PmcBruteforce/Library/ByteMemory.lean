import Mathlib.Data.Nat.Digits.Defs
import Mathlib.Data.Nat.Digits.Lemmas

/-! A memory of bytes with 64-bit addresses that wrap around, numbers stored in it with the
least significant byte first, their bit fields, and a stack of 64-bit words that grows down in
it. Words pushed one after the other read back as a record, the last one first. -/
namespace Library

/-- `count` bits of `n` from bit `start` on. -/
def bitField (n start count : Nat) : Nat := n / 2 ^ start % 2 ^ count

theorem bitField_lt (n start count : Nat) : bitField n start count < 2 ^ count :=
  Nat.mod_lt _ (Nat.two_pow_pos count)

theorem and_mask (n start count : Nat) :
    n &&& 2 ^ start * (2 ^ count - 1) = 2 ^ start * bitField n start count := by
  apply Nat.eq_of_testBit_eq
  intro i
  rw [Nat.testBit_and, Nat.testBit_two_pow_mul, Nat.testBit_two_pow_mul, bitField,
    Nat.testBit_mod_two_pow, Nat.testBit_div_two_pow, Nat.testBit_two_pow_sub_one]
  by_cases inside : start ≤ i
  · rw [Nat.sub_add_cancel inside]
    cases n.testBit i <;> simp [inside]
  · simp [inside]

theorem or_field {low start : Nat} (small : low < 2 ^ start) (high : Nat) :
    low ||| 2 ^ start * high = low + 2 ^ start * high := by
  rw [Nat.or_comm, ← Nat.two_pow_add_eq_or_of_lt small, Nat.add_comm]

def littleEndian (bytes : List UInt8) : Nat := Nat.ofDigits 256 (bytes.map UInt8.toNat)

def littleEndianBytes : Nat → Nat → List UInt8
  | 0, _ => []
  | n + 1, v => UInt8.ofNat v :: littleEndianBytes n (v / 256)

@[simp] theorem littleEndianBytes_length (n v : Nat) : (littleEndianBytes n v).length = n := by
  induction n generalizing v with
  | zero => rfl
  | succ n ih => simp [littleEndianBytes, ih]

theorem littleEndian_append (xs ys : List UInt8) :
    littleEndian (xs ++ ys) = littleEndian xs + 256 ^ xs.length * littleEndian ys := by
  simp only [littleEndian, List.map_append, Nat.ofDigits_append, List.length_map]

theorem littleEndian_cons (b : UInt8) (bytes : List UInt8) :
    littleEndian (b :: bytes) = b.toNat + 256 * littleEndian bytes := by
  simp [littleEndian, Nat.ofDigits_cons]

theorem littleEndian_bytes (n v : Nat) : littleEndian (littleEndianBytes n v) = v % 256 ^ n := by
  induction n generalizing v with
  | zero => simp [littleEndianBytes, littleEndian, Nat.mod_one]
  | succ n ih =>
    have digit : (UInt8.ofNat v).toNat = v % 256 := UInt8.toNat_ofNat'
    rw [littleEndianBytes, littleEndian_cons, ih, digit, Nat.pow_succ, Nat.mul_comm (256 ^ n),
      Nat.mod_mul]

/-- A table of records of one size is read record by record. -/
theorem table_record {α : Type} {bytes : α → List UInt8} {n : Nat}
    (size : ∀ x, (bytes x).length = n) {xs : List α} {i : Nat} (inside : i < xs.length) :
    ((xs.flatMap bytes).drop (n * i)).take n = bytes xs[i] := by
  induction xs generalizing i with
  | nil => cases inside
  | cons x xs ih =>
    cases i with
    | zero => simp [← size x]
    | succ i =>
      have later := ih (i := i) (Nat.lt_of_succ_lt_succ inside)
      have skip : n * (i + 1) = (bytes x).length + n * i := by rw [size, Nat.mul_succ, Nat.add_comm]
      rw [List.flatMap_cons, skip, ← List.drop_drop, List.drop_left]
      exact later

abbrev ByteMemory := UInt64 → UInt8

namespace ByteMemory

def writeBytes (m : ByteMemory) (a : UInt64) (bytes : List UInt8) : ByteMemory :=
  fun x => (bytes[(x - a).toNat]?).getD (m x)

def readBytes (m : ByteMemory) (a : UInt64) (n : Nat) : List UInt8 :=
  (List.range n).map fun i => m (a + UInt64.ofNat i)

@[simp] theorem readBytes_length (m : ByteMemory) (a : UInt64) (n : Nat) :
    (m.readBytes a n).length = n := by
  simp [readBytes]

/-- The `n` bytes from `a` on and the `k` bytes from `b` on have none in common. -/
structure Apart (a : UInt64) (n : Nat) (b : UInt64) (k : Nat) : Prop where
  behind : n ≤ (b - a).toNat
  front : k ≤ (a - b).toNat

theorem Apart.symm {a b : UInt64} {n k : Nat} (apart : Apart a n b k) : Apart b k a n :=
  ⟨apart.front, apart.behind⟩

theorem offset_outside {a b : UInt64} {n k i : Nat} (apart : Apart a n b k) (inside : i < n) :
    k ≤ (a + UInt64.ofNat i - b).toNat := by
  obtain ⟨behind, front⟩ := apart
  have := a.toNat_lt
  have := b.toNat_lt
  simp only [UInt64.toNat_sub, UInt64.toNat_add, UInt64.toNat_ofNat'] at behind front ⊢
  omega

theorem offset_inside (a : UInt64) {i : Nat} (small : i < 2 ^ 64) :
    (a + UInt64.ofNat i - a).toNat = i := by
  have := a.toNat_lt
  simp only [UInt64.toNat_sub, UInt64.toNat_add, UInt64.toNat_ofNat']
  omega

theorem writeBytes_outside {m : ByteMemory} {a x : UInt64} {bytes : List UInt8}
    (outside : bytes.length ≤ (x - a).toNat) : m.writeBytes a bytes x = m x := by
  rw [writeBytes, List.getElem?_eq_none outside, Option.getD_none]

theorem read_write_same (m : ByteMemory) (a : UInt64) {bytes : List UInt8}
    (small : bytes.length < 2 ^ 64) : (m.writeBytes a bytes).readBytes a bytes.length = bytes := by
  apply List.ext_getElem
  · simp
  · intro i _ inside
    have offset := offset_inside a (Nat.lt_trans inside small)
    simp only [readBytes, List.getElem_map, List.getElem_range, writeBytes, offset,
      List.getElem?_eq_getElem inside, Option.getD_some]

theorem read_write_apart (m : ByteMemory) {a b : UInt64} {n : Nat} {bytes : List UInt8}
    (apart : Apart a n b bytes.length) :
    (m.writeBytes b bytes).readBytes a n = m.readBytes a n := by
  apply List.map_congr_left
  intro i member
  exact writeBytes_outside (offset_outside apart (List.mem_range.mp member))

def load64 (m : ByteMemory) (a : UInt64) : UInt64 :=
  UInt64.ofNat (littleEndian (m.readBytes a 8))

def store64 (m : ByteMemory) (a v : UInt64) : ByteMemory :=
  m.writeBytes a (littleEndianBytes 8 v.toNat)

@[simp] theorem load_store_same (m : ByteMemory) (a v : UInt64) :
    (m.store64 a v).load64 a = v := by
  have read := @read_write_same m a (littleEndianBytes 8 v.toNat) (by simp)
  have fits : v.toNat < 256 ^ 8 := Nat.lt_of_lt_of_eq v.toNat_lt (by decide)
  rw [littleEndianBytes_length] at read
  rw [load64, store64, read, littleEndian_bytes, Nat.mod_eq_of_lt fits, UInt64.ofNat_toNat]

theorem load_store_apart (m : ByteMemory) {a b : UInt64} (apart : Apart a 8 b 8) (v : UInt64) :
    (m.store64 b v).load64 a = m.load64 a := by
  have length := littleEndianBytes_length 8 v.toNat
  rw [← length] at apart
  rw [load64, store64, read_write_apart m (length ▸ apart), load64]

/-- The word `k` places below `top`. -/
def slot (top : UInt64) (k : Nat) : UInt64 := top - UInt64.ofNat (8 * k)

@[simp] theorem slot_zero (top : UInt64) : slot top 0 = top := by
  simp [slot]

theorem slot_slot (top : UInt64) (i k : Nat) : slot (slot top i) k = slot top (i + k) := by
  have := top.toNat_lt
  apply UInt64.toNat_inj.mp
  simp only [slot, UInt64.toNat_sub, UInt64.toNat_ofNat']
  omega

theorem slots_apart (top : UInt64) {i k : Nat} (different : i ≠ k) (hi : i < 2 ^ 60)
    (hk : k < 2 ^ 60) : Apart (slot top i) 8 (slot top k) 8 := by
  have := top.toNat_lt
  constructor
  all_goals
    simp only [slot, UInt64.toNat_sub, UInt64.toNat_ofNat']
    omega

/-- Pushes on the stack whose pointer is `top`, the head of the list first. -/
def pushAll (m : ByteMemory) (top : UInt64) : List UInt64 → ByteMemory
  | [] => m
  | w :: ws => pushAll (m.store64 (slot top 1) w) (slot top 1) ws

theorem pushAll_append (m : ByteMemory) (top : UInt64) (xs ys : List UInt64) :
    m.pushAll top (xs ++ ys) = (m.pushAll top xs).pushAll (slot top xs.length) ys := by
  induction xs generalizing m top with
  | nil => simp [pushAll]
  | cons x xs ih => simp only [List.cons_append, pushAll, ih, slot_slot, List.length_cons,
      Nat.add_comm 1]

/-- The `n` words from `a` on. -/
def words (m : ByteMemory) (a : UInt64) : Nat → List UInt64
  | 0 => []
  | n + 1 => m.load64 a :: words m (a + 8) n

theorem slot_above (top : UInt64) (k : Nat) : slot top (k + 1) + 8 = slot top k := by
  have := top.toNat_lt
  apply UInt64.toNat_inj.mp
  simp only [slot, UInt64.toNat_add, UInt64.toNat_sub, UInt64.toNat_ofNat', UInt64.reduceToNat]
  omega

theorem words_congr {m m' : ByteMemory} {top : UInt64} {i n : Nat} (le : n ≤ i)
    (same : ∀ k, i - n < k → k ≤ i → m.load64 (slot top k) = m'.load64 (slot top k)) :
    m.words (slot top i) n = m'.words (slot top i) n := by
  induction n generalizing i with
  | zero => rfl
  | succ n ih =>
    obtain ⟨j, rfl⟩ : ∃ j, i = j + 1 := ⟨i - 1, by omega⟩
    have first := same (j + 1) (by omega) (Nat.le_refl _)
    have rest := ih (i := j) (by omega) (fun k lower upper => same k (by omega) (by omega))
    rw [words, words, first, slot_above, rest]

/-- A push below a place of the stack leaves the words above it as they are. -/
theorem words_store (m : ByteMemory) (top : UInt64) {i n k : Nat} (le : n ≤ i) (below : i < k)
    (small : k < 2 ^ 60) (v : UInt64) :
    (m.store64 (slot top k) v).words (slot top i) n = m.words (slot top i) n := by
  apply words_congr le
  intro j lower upper
  exact load_store_apart m (slots_apart top (by omega) (by omega) small) v

/-- Nor do more of them. -/
theorem words_pushAll_below (m : ByteMemory) (top : UInt64) {i n k : Nat} (le : n ≤ i)
    (below : i ≤ k) (ws : List UInt64) (small : k + ws.length < 2 ^ 60) :
    (m.pushAll (slot top k) ws).words (slot top i) n = m.words (slot top i) n := by
  induction ws generalizing m k with
  | nil => rfl
  | cons w ws ih =>
    rw [List.length_cons] at small
    have rest := ih (m.store64 (slot top (k + 1)) w) (k := k + 1) (by omega) (by omega)
    have first := words_store m top le (Nat.lt_succ_of_le below) (by omega) w
    rw [pushAll, slot_slot, rest, first]

theorem words_pushAll (m : ByteMemory) (top : UInt64) (ws : List UInt64)
    (small : ws.length < 2 ^ 60) :
    (m.pushAll top ws).words (slot top ws.length) ws.length = ws.reverse := by
  induction ws using List.reverseRecOn with
  | nil => rfl
  | append_singleton ws w ih =>
    rw [List.length_append, List.length_singleton] at small ⊢
    have kept := words_store (m.pushAll top ws) top (Nat.le_refl ws.length)
      (Nat.lt_succ_self ws.length) small w
    rw [pushAll_append, pushAll, pushAll, slot_slot, words, load_store_same, slot_above, kept,
      ih (by omega), List.reverse_append, List.reverse_singleton, List.singleton_append]

theorem slot_add (top : UInt64) (k n : Nat) : slot top (k + n) + UInt64.ofNat (8 * n) = slot top k := by
  have := top.toNat_lt
  apply UInt64.toNat_inj.mp
  simp only [slot, UInt64.toNat_add, UInt64.toNat_sub, UInt64.toNat_ofNat']
  omega

theorem words_append (m : ByteMemory) (a : UInt64) (n k : Nat) :
    m.words a (n + k) = m.words a n ++ m.words (a + UInt64.ofNat (8 * n)) k := by
  induction n generalizing a with
  | zero => simp [words]
  | succ n ih =>
    have next : a + 8 + UInt64.ofNat (8 * n) = a + UInt64.ofNat (8 * (n + 1)) := by
      have := a.toNat_lt
      apply UInt64.toNat_inj.mp
      simp only [UInt64.toNat_add, UInt64.toNat_ofNat', UInt64.reduceToNat]
      omega
    rw [Nat.add_right_comm, words, ih, next, words, List.cons_append]

/-! Regions -/

/-- `m'` differs from `m` only in the `size` bytes from `base` on. -/
def SameOutside (base : UInt64) (size : Nat) (m m' : ByteMemory) : Prop :=
  ∀ x, size ≤ (x - base).toNat → m' x = m x

/-- `m'` agrees with `m` on the `n` bytes from `a` on. -/
def SameOn (a : UInt64) (n : Nat) (m m' : ByteMemory) : Prop :=
  ∀ i < n, m' (a + UInt64.ofNat i) = m (a + UInt64.ofNat i)

theorem SameOutside.refl (base : UInt64) (size : Nat) (m : ByteMemory) :
    SameOutside base size m m := fun _ _ => rfl

theorem SameOutside.trans {base : UInt64} {size : Nat} {m m' m'' : ByteMemory}
    (first : SameOutside base size m m') (second : SameOutside base size m' m'') :
    SameOutside base size m m'' := fun x outside => (second x outside).trans (first x outside)

theorem SameOn.trans {a : UInt64} {n : Nat} {m m' m'' : ByteMemory} (first : SameOn a n m m')
    (second : SameOn a n m' m'') : SameOn a n m m'' :=
  fun i inside => (second i inside).trans (first i inside)

theorem SameOutside.sameOn {base : UInt64} {size : Nat} {m m' : ByteMemory}
    (same : SameOutside base size m m') {a : UInt64} {n : Nat} (apart : Apart a n base size) :
    SameOn a n m m' := fun _ inside => same _ (offset_outside apart inside)

theorem SameOn.readBytes {a : UInt64} {n : Nat} {m m' : ByteMemory} (same : SameOn a n m m') :
    m'.readBytes a n = m.readBytes a n :=
  List.map_congr_left fun i member => same i (List.mem_range.mp member)

theorem SameOn.part {a : UInt64} {n : Nat} {m m' : ByteMemory} (same : SameOn a n m m') {k l : Nat}
    (inside : k + l ≤ n) : SameOn (a + UInt64.ofNat k) l m m' := by
  intro i small
  have sum : a + UInt64.ofNat k + UInt64.ofNat i = a + UInt64.ofNat (k + i) := by
    rw [UInt64.add_assoc, ← UInt64.ofNat_add]
  rw [sum]
  exact same (k + i) (by omega)

theorem SameOn.load64 {a : UInt64} {n : Nat} {m m' : ByteMemory} (same : SameOn a n m m') {k : Nat}
    (inside : k + 8 ≤ n) : m'.load64 (a + UInt64.ofNat k) = m.load64 (a + UInt64.ofNat k) := by
  rw [ByteMemory.load64, (same.part inside).readBytes, ByteMemory.load64]

theorem writeBytes_sameOutside (m : ByteMemory) {a base : UInt64} {bytes : List UInt8} {size : Nat}
    (inside : (a - base).toNat + bytes.length ≤ size) :
    SameOutside base size m (m.writeBytes a bytes) := by
  intro x outside
  apply writeBytes_outside
  have := a.toNat_lt
  have := base.toNat_lt
  have := x.toNat_lt
  simp only [UInt64.toNat_sub] at inside outside ⊢
  omega

theorem slot_offset {base top : UInt64} {k : Nat} (room : 8 * k ≤ (top - base).toNat) :
    (slot top k - base).toNat = (top - base).toNat - 8 * k := by
  have := top.toNat_lt
  have := base.toNat_lt
  simp only [slot, UInt64.toNat_sub, UInt64.toNat_ofNat'] at room ⊢
  omega

/-- A part of a region is apart from what the region is apart from. -/
theorem Apart.part {a b : UInt64} {n k : Nat} (apart : Apart a n b k) {i l : Nat}
    (inside : i + l ≤ n) (some : 0 < l) : Apart (a + UInt64.ofNat i) l b k := by
  refine ⟨?_, offset_outside apart (by omega)⟩
  have behind := apart.behind
  have := a.toNat_lt
  have := b.toNat_lt
  simp only [UInt64.toNat_sub, UInt64.toNat_add, UInt64.toNat_ofNat'] at behind ⊢
  omega

theorem Apart.front_part {a b : UInt64} {n k l : Nat} (apart : Apart a n b k) (inside : l ≤ n) :
    Apart a l b k :=
  ⟨Nat.le_trans inside apart.behind, apart.front⟩

theorem readBytes_fill (m : ByteMemory) (a : UInt64) {n i l : Nat} (inside : i + l ≤ n)
    (small : n < 2 ^ 64) (v : UInt8) :
    (m.writeBytes a (List.replicate n v)).readBytes (a + UInt64.ofNat i) l = List.replicate l v := by
  have value : ∀ k < l, (m.writeBytes a (List.replicate n v))
      (a + UInt64.ofNat i + UInt64.ofNat k) = v := by
    intro k below
    have place : a + UInt64.ofNat i + UInt64.ofNat k = a + UInt64.ofNat (i + k) := by
      rw [UInt64.add_assoc, ← UInt64.ofNat_add]
    have offset := offset_inside a (show i + k < 2 ^ 64 by omega)
    have filled : (List.replicate n v)[i + k]? = some v := by
      rw [List.getElem?_replicate, if_pos (by omega)]
    rw [place, writeBytes, offset, filled, Option.getD_some]
  apply List.ext_getElem
  · simp
  · intro k below _
    rw [readBytes_length] at below
    simp only [readBytes, List.getElem_map, List.getElem_range, List.getElem_replicate]
    exact value k below

theorem load64_fill (m : ByteMemory) (a : UInt64) {n i : Nat} (inside : i + 8 ≤ n)
    (small : n < 2 ^ 64) :
    (m.writeBytes a (List.replicate n 0)).load64 (a + UInt64.ofNat i) = 0 := by
  rw [load64, readBytes_fill m a inside small]
  decide

/-- A stack with room for what is pushed changes only its own region. -/
theorem pushAll_sameOutside (m : ByteMemory) {base top : UInt64} {size : Nat} {ws : List UInt64}
    (room : 8 * ws.length ≤ (top - base).toNat) (inside : (top - base).toNat ≤ size) :
    SameOutside base size m (m.pushAll top ws) := by
  induction ws generalizing m top with
  | nil => exact SameOutside.refl base size m
  | cons w ws ih =>
    rw [List.length_cons] at room
    have place := @slot_offset base top 1 (by omega)
    have first : SameOutside base size m (m.store64 (slot top 1) w) := by
      apply writeBytes_sameOutside
      rw [littleEndianBytes_length]
      omega
    exact first.trans (ih (m.store64 (slot top 1) w) (by omega) (by omega))

end ByteMemory

end Library
