import Mathlib.Data.Nat.Digits.Defs
import Mathlib.Data.Nat.Digits.Lemmas

/-! Byte strings read as numbers in base 256, most significant byte first. Strings of one
length are ordered by the first position where they differ. -/
namespace Library

def bigEndian (bytes : List UInt8) : Nat :=
  Nat.ofDigits 256 (bytes.map UInt8.toNat).reverse

theorem bigEndian_append (xs ys : List UInt8) :
    bigEndian (xs ++ ys) = bigEndian xs * 256 ^ ys.length + bigEndian ys := by
  simp only [bigEndian, List.map_append, List.reverse_append, Nat.ofDigits_append,
    List.length_reverse, List.length_map]
  rw [Nat.add_comm, Nat.mul_comm]

@[simp] theorem bigEndian_singleton (b : UInt8) : bigEndian [b] = b.toNat := by
  simp [bigEndian]

theorem bigEndian_lt (xs : List UInt8) : bigEndian xs < 256 ^ xs.length := by
  have digits : ∀ d ∈ (xs.map UInt8.toNat).reverse, d < 256 := by
    intro d hd
    obtain ⟨b, -, rfl⟩ := List.mem_map.mp (List.mem_reverse.mp hd)
    exact b.toNat_lt
  have := Nat.ofDigits_lt_base_pow_length (by decide) digits
  simpa [bigEndian] using this

theorem bigEndian_lt_of_first_difference (common : List UInt8) {a b : UInt8} (h : a < b)
    {xs ys : List UInt8} (len : xs.length = ys.length) :
    bigEndian (common ++ a :: xs) < bigEndian (common ++ b :: ys) := by
  have less : a.toNat + 1 ≤ b.toNat := UInt8.lt_iff_toNat_lt.mp h
  have bound := bigEndian_lt xs
  have scaled := Nat.mul_le_mul_right (256 ^ ys.length) less
  rw [bigEndian_append, bigEndian_append, List.length_cons, List.length_cons,
    ← List.singleton_append, ← List.singleton_append (l := ys), bigEndian_append,
    bigEndian_append, bigEndian_singleton, bigEndian_singleton, len]
  rw [len] at bound
  rw [Nat.add_mul, Nat.one_mul] at scaled
  omega

end Library
