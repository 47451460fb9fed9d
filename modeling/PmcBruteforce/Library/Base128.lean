import Mathlib.Data.List.Basic
import Mathlib.Tactic.Ring
import PmcBruteforce.Library.Codec

/-! Base-128 numbers, least significant group first: seven payload bits a byte, and the
high bit of every byte but the last is set. -/
namespace Library.Base128

def encode (n : Nat) : List UInt8 :=
  if n < 128 then [UInt8.ofNat n] else UInt8.ofNat (n % 128 + 128) :: encode (n / 128)
termination_by n

def decode : List UInt8 → Option (Nat × List UInt8)
  | [] => none
  | b :: rest =>
    if b.toNat < 128 then some (b.toNat, rest)
    else (decode rest).map (fun next => (b.toNat - 128 + 128 * next.1, next.2))

theorem encode_small {n : Nat} (h : n < 128) : encode n = [UInt8.ofNat n] := by
  rw [encode, if_pos h]

theorem encode_large {n : Nat} (h : ¬ n < 128) :
    encode n = UInt8.ofNat (n % 128 + 128) :: encode (n / 128) := by
  rw [encode, if_neg h]

theorem encode_ne_nil (n : Nat) : encode n ≠ [] := by
  rw [encode]
  split <;> simp

theorem decode_encode (n : Nat) (rest : List UInt8) :
    decode (encode n ++ rest) = some (n, rest) := by
  induction n using encode.induct with
  | case1 n small =>
    have value : (UInt8.ofNat n).toNat = n := by
      rw [UInt8.toNat_ofNat']
      omega
    simp [encode_small small, decode, value, small]
  | case2 n large ih =>
    have value : (UInt8.ofNat (n % 128 + 128)).toNat = n % 128 + 128 := by
      rw [UInt8.toNat_ofNat']
      omega
    have continued : ¬ n % 128 + 128 < 128 := by omega
    simp only [encode_large large, List.cons_append, decode, value, if_neg continued, ih,
      Option.map_some, Nat.add_sub_cancel]
    rw [Nat.mod_add_div]

theorem encode_group (low n : Nat) (h : low < 128) :
    (encode (low + 128 * n)).length ≤ (encode n).length + 1 := by
  have pos : 0 < (encode n).length := List.length_pos_iff.mpr (encode_ne_nil n)
  by_cases small : low + 128 * n < 128
  · simp [encode_small small]
  · have quotient : (low + 128 * n) / 128 = n := by omega
    simp [encode_large small, quotient]

theorem decode_shortest (input : List UInt8) (n : Nat) (rest : List UInt8)
    (h : decode input = some (n, rest)) :
    (encode n).length + rest.length ≤ input.length := by
  induction input generalizing n with
  | nil => cases h
  | cons b tail ih =>
    unfold decode at h
    split at h
    · rename_i small
      cases Option.some.inj h
      simp only [encode_small small, List.length_cons, List.length_nil]
      omega
    · rename_i large
      simp only [Option.map_eq_some_iff, Prod.mk.injEq, Prod.exists] at h
      obtain ⟨m, rest', hm, rfl, rfl⟩ := h
      have low : b.toNat - 128 < 128 := by
        have := b.toNat_lt
        omega
      have group := encode_group (b.toNat - 128) m low
      have others := ih m hm
      simp only [List.length_cons]
      omega

theorem encode_length_le (k n : Nat) (h : n < 128 ^ (k + 1)) :
    (encode n).length ≤ k + 1 := by
  induction k generalizing n with
  | zero => simp [encode_small (by simpa using h)]
  | succ k ih =>
    by_cases small : n < 128
    · simp [encode_small small]
    · have quotient : n / 128 < 128 ^ (k + 1) := by
        apply Nat.div_lt_of_lt_mul
        rw [← Nat.pow_succ']
        exact h
      have := ih _ quotient
      simp only [encode_large small, List.length_cons]
      omega

/-- The code of 64-bit words: a number that does not fit is refused, not truncated. -/
def word : Codec UInt8 UInt64 where
  valid _ := True
  encode w := encode w.toNat
  decode input := do
    let (n, rest) ← decode input
    if n < 2 ^ 64 then some (UInt64.ofNat n, rest) else none
  decode_encode w _ rest := by
    have bound : w.toNat < 18446744073709551616 := w.toNat_lt
    simp [decode_encode, bound]
  shortest input w rest h := by
    simp only [Option.bind_eq_bind, Option.bind_eq_some_iff, Prod.exists] at h
    obtain ⟨n, rest', decoded, h⟩ := h
    split at h
    · rename_i bound
      obtain ⟨rfl, rfl⟩ := Prod.mk.inj (Option.some.inj h)
      rw [UInt64.toNat_ofNat', Nat.mod_eq_of_lt bound]
      exact decode_shortest _ _ _ decoded
    · cases h

@[simp] theorem word_encode (w : UInt64) : word.encode w = encode w.toNat := rfl

end Library.Base128
