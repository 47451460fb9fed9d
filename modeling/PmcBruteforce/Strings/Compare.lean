import Mathlib.Data.Int.Order.Basic
import PmcBruteforce.Library.FirstDifference

/-! `memcmp` and `strcmp` of string.c. A pointer is the rest of the object it points into, so
a read behind the last byte has no result. -/
namespace PmcBruteforce

/-- The while loop of `memcmp` and the expression behind it. -/
def memcmpLoop : (n : Nat) → (s1Ptr s2Ptr : List UInt8) → Option Int
  | n + 1, byte1 :: s1Ptr, byte2 :: s2Ptr =>
    if byte1 = byte2 then memcmpLoop n s1Ptr s2Ptr
    else some ((byte1.toNat : Int) - (byte2.toNat : Int))
  | 0, byte1 :: _, byte2 :: _ => some ((byte1.toNat : Int) - (byte2.toNat : Int))
  | _, _, _ => none

def memcmp (s1 s2 : List UInt8) (n : Nat) : Option Int :=
  if n = 0 then some 0 else memcmpLoop n s1 s2

/-- What `memcmp` is for. The first equation says that it gets by with the first `n` bytes of
each buffer: there is nothing else in the objects it is given there. -/
structure ComparesBytes (s1 s2 : List UInt8) (n : Nat) (result : Int) : Prop where
  inside : memcmp (s1.take n) (s2.take n) n = some result
  returned : memcmp s1 s2 n = some result
  equal : result = 0 ↔ s1.take n = s2.take n
  negative : ∀ x y, Library.FirstDifference (s1.take n) (s2.take n) x y → (result < 0 ↔ x < y)
  positive : ∀ x y, Library.FirstDifference (s1.take n) (s2.take n) x y → (0 < result ↔ y < x)

theorem memcmpLoop_difference {q u v : List UInt8} {x y : UInt8} (different : x ≠ y) {n : Nat}
    (within : q.length < n) : memcmpLoop n (q ++ x :: u) (q ++ y :: v) =
      some ((x.toNat : Int) - (y.toNat : Int)) := by
  induction q generalizing n with
  | nil =>
    cases n with
    | zero => exact absurd within (Nat.not_lt_zero _)
    | succ n => exact if_neg different
  | cons a q ih =>
    cases n with
    | zero => exact absurd within (Nat.not_lt_zero _)
    | succ n => exact (if_pos rfl).trans (ih (Nat.lt_of_succ_lt_succ within))

/-- Behind `n` equal bytes the loop still reads one more of each buffer. -/
theorem memcmpLoop_equal (s : List UInt8) : memcmpLoop s.length s s = none := by
  induction s with
  | nil => rfl
  | cons a s ih => exact (if_pos rfl).trans ih

theorem memcmp_of_difference {s1 s2 : List UInt8} {n : Nat} {x y : UInt8}
    (first : Library.FirstDifference (s1.take n) (s2.take n) x y) :
    memcmp (s1.take n) (s2.take n) n = some ((x.toNat : Int) - (y.toNat : Int)) ∧
      memcmp s1 s2 n = some ((x.toNat : Int) - (y.toNat : Int)) := by
  obtain ⟨q, u, v, left, right, different⟩ := first
  have within : q.length < n := by
    have bound := List.length_take_le n s1
    rw [left, List.length_append, List.length_cons] at bound
    omega
  have nonempty : n ≠ 0 := Nat.ne_of_gt (Nat.zero_lt_of_lt within)
  have extended : ∀ {s t : List UInt8} {z : UInt8}, s.take n = q ++ z :: t →
      s = q ++ z :: (t ++ s.drop n) := by
    intro s t z front
    rw [← List.cons_append, ← List.append_assoc, ← front, List.take_append_drop]
  constructor
  · rw [memcmp, if_neg nonempty, left, right]
    exact memcmpLoop_difference different within
  · rw [memcmp, if_neg nonempty, extended left, extended right]
    exact memcmpLoop_difference different within

theorem byte_difference (x y : UInt8) :
    ((x.toNat : Int) - (y.toNat : Int) < 0 ↔ x < y) ∧
      (0 < (x.toNat : Int) - (y.toNat : Int) ↔ y < x) := by
  rw [UInt8.lt_iff_toNat_lt, UInt8.lt_iff_toNat_lt]
  omega

/-- `memcmp` compares the bytes it is asked to compare exactly when it finds two that differ,
or has none to compare. -/
theorem memcmp_exact_iff {s1 s2 : List UInt8} {n : Nat} (first : n ≤ s1.length)
    (second : n ≤ s2.length) :
    (∃ result, ComparesBytes s1 s2 n result) ↔ n = 0 ∨ s1.take n ≠ s2.take n := by
  have size : (s1.take n).length = n := List.length_take_of_le first
  have size' : (s2.take n).length = n := List.length_take_of_le second
  constructor
  · rintro ⟨result, compares⟩
    by_cases empty : n = 0
    · exact .inl empty
    · refine .inr fun same => ?_
      have inside := compares.inside
      have loop := memcmpLoop_equal (s1.take n)
      rw [size] at loop
      rw [memcmp, if_neg empty, ← same, loop] at inside
      cases inside
  · rintro (rfl | differ)
    · refine ⟨0, rfl, rfl, by simp, ?_, ?_⟩
      all_goals
        intro x y difference
        exact absurd rfl difference.ne
    · rcases Library.first_difference_of_length (size.trans size'.symm) with same | ⟨x, y, found⟩
      · exact absurd same differ
      · obtain ⟨inside, returned⟩ := memcmp_of_difference found
        refine ⟨_, inside, returned, ?_, ?_, ?_⟩
        · have nonzero : (x.toNat : Int) - (y.toNat : Int) ≠ 0 := by
            have different := mt UInt8.toNat_inj.mp found.letters_ne
            omega
          exact iff_of_false nonzero differ
        · intro x' y' found'
          obtain ⟨rfl, rfl⟩ := found.unique found'
          exact (byte_difference x y).1
        · intro x' y' found'
          obtain ⟨rfl, rfl⟩ := found.unique found'
          exact (byte_difference x y).2

theorem differing_bytes_compared : ∃ result, ComparesBytes [1, 2, 9] [1, 0x80, 3] 2 result :=
  (memcmp_exact_iff (by decide) (by decide)).mpr (.inr (by decide))

theorem equal_bytes_told_apart :
    memcmp [1, 2] [1, 3] 1 = some (-1) ∧ ¬ ∃ result, ComparesBytes [1, 2] [1, 3] 1 result := by
  have returned : memcmp [1, 2] [1, 3] 1 = some (-1) := by decide
  refine ⟨returned, ?_⟩
  rintro ⟨result, compares⟩
  obtain rfl := Option.some.inj (returned.symm.trans compares.returned)
  exact absurd (compares.equal.mpr rfl) (by decide)

/-- `strcmp`. The char of the target is signed. -/
def strcmp : (s1 s2 : List Int8) → Option Int
  | char1 :: s1, char2 :: s2 =>
    if char1 ≠ 0 ∧ char1 = char2 then strcmp s1 s2 else some (char1.toInt - char2.toInt)
  | _, _ => none

/-- The chars of a string as the C library orders them. -/
def unsignedBytes (s : List Int8) : List UInt8 := s.map Int8.toUInt8

/-- What `strcmp` is for. The objects end with the NUL, so it is the last char read. -/
structure OrdersStrings (s1 s2 : List Int8) (result : Int) : Prop where
  returned : strcmp (s1 ++ [0]) (s2 ++ [0]) = some result
  equal : result = 0 ↔ s1 = s2
  negative : result < 0 ↔ unsignedBytes s1 < unsignedBytes s2
  positive : 0 < result ↔ unsignedBytes s2 < unsignedBytes s1

theorem strcmp_difference {q u v : List Int8} {x y : Int8} (noNul : 0 ∉ q) (different : x ≠ y) :
    strcmp (q ++ x :: u) (q ++ y :: v) = some (x.toInt - y.toInt) := by
  induction q with
  | nil => exact if_neg fun both => different both.2
  | cons a q ih =>
    have char : a ≠ 0 := fun zero => noNul (zero ▸ List.mem_cons_self)
    exact (if_pos ⟨char, rfl⟩).trans (ih fun member => noNul (List.mem_cons_of_mem _ member))

theorem strcmp_equal {s : List Int8} (noNul : 0 ∉ s) : strcmp (s ++ [0]) (s ++ [0]) = some 0 := by
  induction s with
  | nil => rfl
  | cons a s ih =>
    have char : a ≠ 0 := fun zero => noNul (zero ▸ List.mem_cons_self)
    exact (if_pos ⟨char, rfl⟩).trans (ih fun member => noNul (List.mem_cons_of_mem _ member))

/-- The NUL at the end is not in front of another char. -/
theorem no_nul_in_front {s q u : List Int8} {x : Int8} (noNul : 0 ∉ s)
    (split : s ++ [0] = q ++ x :: u) : 0 ∉ q := by
  rcases List.append_eq_append_iff.mp split with ⟨more, front, tail⟩ | ⟨more, front, -⟩
  · cases more with
    | nil => rwa [front, List.append_nil]
    | cons a more => simp at tail
  · rw [front] at noNul
    exact fun member => noNul (List.mem_append_left _ member)

theorem strcmp_of_difference {s1 s2 : List Int8} {x y : Int8} (noNul : 0 ∉ s1)
    (first : Library.FirstDifference (s1 ++ [0]) (s2 ++ [0]) x y) :
    strcmp (s1 ++ [0]) (s2 ++ [0]) = some (x.toInt - y.toInt) := by
  obtain ⟨q, u, v, left, right, different⟩ := first
  have front := no_nul_in_front noNul left
  rw [left, right]
  exact strcmp_difference front different

theorem toUInt8_injective : Function.Injective Int8.toUInt8 :=
  Function.LeftInverse.injective Int8.toInt8_toUInt8

theorem char_value (x : Int8) :
    (x < 0 ∧ x.toInt < 0 ∧ 128 ≤ x.toUInt8.toNat ∧ (x.toUInt8.toNat : Int) = x.toInt + 256) ∨
      (¬ x < 0 ∧ 0 ≤ x.toInt ∧ x.toUInt8.toNat < 128 ∧ (x.toUInt8.toNat : Int) = x.toInt) := by
  have small := x.toUInt8.toNat_lt
  have value : x.toInt = if 2 * x.toUInt8.toNat < 256 then (x.toUInt8.toNat : Int)
      else (x.toUInt8.toNat : Int) - 256 := BitVec.toInt_eq_toNat_cond x.toBitVec
  have sign : x < 0 ↔ x.toInt < 0 := Int8.lt_iff_toInt_lt
  rw [sign]
  split at value <;> omega

/-- Signed and unsigned chars are ordered alike exactly on one side of 0x80. -/
theorem char_difference {x y : Int8} (different : x ≠ y) :
    (x.toInt - y.toInt < 0 ↔ x.toUInt8 < y.toUInt8) ↔ (x < 0 ↔ y < 0) := by
  have apart : x.toInt ≠ y.toInt := fun same => different (Int8.toInt_inj.mp same)
  rw [UInt8.lt_iff_toNat_lt]
  rcases char_value x with ⟨left, negative, high, byte⟩ | ⟨left, positive, low, byte⟩ <;>
    rcases char_value y with ⟨right, negative', high', byte'⟩ | ⟨right, positive', low', byte'⟩ <;>
    simp only [left, right, iff_true, iff_false, not_true_eq_false] <;> omega

theorem unsigned_lt_iff {s1 s2 : List Int8} {x y : Int8} (noNul : 0 ∉ s1) (noNul' : 0 ∉ s2)
    (first : Library.FirstDifference (s1 ++ [0]) (s2 ++ [0]) x y) :
    unsignedBytes s1 < unsignedBytes s2 ↔ x.toUInt8 < y.toUInt8 := by
  have outside : ∀ {s : List Int8}, 0 ∉ s → 0 ∉ unsignedBytes s := by
    intro s noNul member
    obtain ⟨c, inside, zero⟩ := List.mem_map.mp member
    obtain rfl : c = 0 := toUInt8_injective zero
    exact noNul inside
  have least : ∀ a : UInt8, a ≠ 0 → 0 < a := fun a => UInt8.pos_iff_ne_zero.mpr
  have mapped := first.map toUInt8_injective
  rw [List.map_append, List.map_append] at mapped
  rw [← mapped.lt_iff]
  exact (Library.terminated_lt_iff least (outside noNul) (outside noNul')).symm

/-- `strcmp` orders two strings as the C library does exactly when the first chars in which
they differ, the NUL among them, are both below 0x80 or both not. -/
theorem strcmp_order_iff {s1 s2 : List Int8} (noNul : 0 ∉ s1) (noNul' : 0 ∉ s2) :
    (∃ result, OrdersStrings s1 s2 result) ↔
      ∀ x y, Library.FirstDifference (s1 ++ [0]) (s2 ++ [0]) x y → (x < 0 ↔ y < 0) := by
  constructor
  · rintro ⟨result, orders⟩ x y first
    have returned := strcmp_of_difference noNul first
    obtain rfl := Option.some.inj (returned.symm.trans orders.returned)
    rw [← char_difference first.letters_ne, orders.negative]
    exact unsigned_lt_iff noNul noNul' first
  · intro sides
    rcases Library.first_difference_of_terminated noNul noNul' with rfl | ⟨x, y, first⟩
    · refine ⟨0, strcmp_equal noNul, iff_of_true rfl rfl, ?_, ?_⟩
      all_goals exact iff_of_false (Int.lt_irrefl 0) (List.lt_irrefl _)
    · have sameSide := sides x y first
      have different := first.letters_ne
      have apart : x.toInt - y.toInt ≠ 0 := fun zero =>
        different (Int8.toInt_inj.mp (Int.sub_eq_zero.mp zero))
      have strings : s1 ≠ s2 := by
        rintro rfl
        exact first.ne rfl
      refine ⟨x.toInt - y.toInt, strcmp_of_difference noNul first,
        iff_of_false apart strings, ?_, ?_⟩
      · rw [unsigned_lt_iff noNul noNul' first]
        exact (char_difference different).mpr sameSide
      · rw [unsigned_lt_iff noNul' noNul first.symm,
          ← (char_difference different.symm).mpr sameSide.symm]
        omega

theorem ascii_strings_ordered : ∃ result, OrdersStrings [0x61, 0x62] [0x61] result := by
  refine (strcmp_order_iff (by decide) (by decide)).mpr ?_
  intro x y first
  have here : Library.FirstDifference ([0x61, 0x62] ++ [0]) ([0x61] ++ [0]) (0x62 : Int8) 0 :=
    ⟨[0x61], [0], [], rfl, rfl, by decide⟩
  obtain ⟨rfl, rfl⟩ := first.unique here
  decide

theorem high_char_sorted_first :
    strcmp ([-1] ++ [0]) ([] ++ [0]) = some (-1) ∧ ¬ ∃ result, OrdersStrings [-1] [] result := by
  have returned : strcmp ([-1] ++ [0]) ([] ++ [0]) = some (-1) := by decide
  refine ⟨returned, ?_⟩
  rintro ⟨result, orders⟩
  obtain rfl := Option.some.inj (returned.symm.trans orders.returned)
  exact absurd (orders.negative.mp (by decide)) (by decide)

end PmcBruteforce
