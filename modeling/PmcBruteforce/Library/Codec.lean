import Mathlib.Data.List.Basic

/-! Self-delimiting codes over an arbitrary alphabet. A code is a pair of functions with
two laws: an encoding followed by anything decodes to the value and what follows it, and
no input that decodes to a value is shorter than the value's own encoding. -/
namespace Library

/-- The second law makes a code comparable with a writer that drops symbols: what is
shorter than the encoding can not decode to the value. -/
structure Codec (B A : Type) where
  valid : A → Prop
  encode : A → List B
  decode : List B → Option (A × List B)
  decode_encode : ∀ a, valid a → ∀ rest, decode (encode a ++ rest) = some (a, rest)
  shortest : ∀ input a rest, decode input = some (a, rest) →
    (encode a).length + rest.length ≤ input.length

namespace Codec

variable {B A : Type} (c : Codec B A)

theorem encode_append_injective {a b : A} (ha : c.valid a) (hb : c.valid b) {r s : List B}
    (same : c.encode a ++ r = c.encode b ++ s) : a = b ∧ r = s := by
  have h : some (a, r) = some (b, s) := by
    rw [← c.decode_encode a ha r, ← c.decode_encode b hb s, same]
  exact Prod.mk.inj (Option.some.inj h)

def decodeN : Nat → List B → Option (List A × List B)
  | 0, input => some ([], input)
  | n + 1, input => do
    let (a, input) ← c.decode input
    let (as, input) ← decodeN n input
    some (a :: as, input)

theorem decodeN_encode (as : List A) (h : ∀ a ∈ as, c.valid a) (rest : List B) :
    c.decodeN as.length (as.flatMap c.encode ++ rest) = some (as, rest) := by
  induction as with
  | nil => rfl
  | cons a as ih =>
    have head := c.decode_encode a (h a (List.mem_cons_self ..)) (as.flatMap c.encode ++ rest)
    have tail := ih (fun x hx => h x (List.mem_cons_of_mem _ hx))
    simp [decodeN, List.append_assoc, head, tail]

theorem decodeN_shortest (n : Nat) (input : List B) (as : List A) (rest : List B)
    (h : c.decodeN n input = some (as, rest)) :
    as.length = n ∧ (as.flatMap c.encode).length + rest.length ≤ input.length := by
  induction n generalizing input as with
  | zero =>
    obtain ⟨rfl, rfl⟩ := Prod.mk.inj (Option.some.inj h)
    simp
  | succ n ih =>
    simp only [decodeN, Option.bind_eq_bind, Option.bind_eq_some_iff, Prod.exists] at h
    obtain ⟨a, mid, ha, as', rest', has, hout⟩ := h
    obtain ⟨rfl, rfl⟩ := Prod.mk.inj (Option.some.inj hout)
    have first := c.shortest _ _ _ ha
    obtain ⟨len, others⟩ := ih _ _ has
    refine ⟨by simp [len], ?_⟩
    simp only [List.flatMap_cons, List.length_append]
    omega

def replicate (n : Nat) : Codec B (List A) where
  valid as := as.length = n ∧ ∀ a ∈ as, c.valid a
  encode as := as.flatMap c.encode
  decode := c.decodeN n
  decode_encode as h rest := h.1 ▸ c.decodeN_encode as h.2 rest
  shortest input as rest h := (c.decodeN_shortest n input as rest h).2

def optional (present : Bool) : Codec B (Option A) where
  valid o := o.isSome = present ∧ ∀ a ∈ o, c.valid a
  encode o := o.toList.flatMap c.encode
  decode input :=
    if present then (c.decode input).map (fun next => (some next.1, next.2))
    else some (none, input)
  decode_encode o h rest := by
    cases o with
    | none =>
      have absent : present = false := h.1.symm
      simp [absent]
    | some a =>
      have there : present = true := h.1.symm
      simp [there, c.decode_encode a (h.2 a rfl)]
  shortest input o rest h := by
    split at h
    · simp only [Option.map_eq_some_iff, Prod.mk.injEq, Prod.exists] at h
      obtain ⟨a, rest', decoded, rfl, rfl⟩ := h
      simpa using c.shortest _ _ _ decoded
    · obtain ⟨rfl, rfl⟩ := Prod.mk.inj (Option.some.inj h)
      simp

/-- Values until the input ends. A value that consumes nothing is an error, so the
recursion is on the length of the input. -/
def decodeAll (input : List B) : Option (List A) :=
  if input = [] then some []
  else match c.decode input with
    | none => none
    | some (a, rest) =>
      if rest.length < input.length then (decodeAll rest).map (a :: ·) else none
termination_by input.length

theorem decodeAll_encode (positive : ∀ a, c.valid a → c.encode a ≠ [])
    (as : List A) (h : ∀ a ∈ as, c.valid a) :
    c.decodeAll (as.flatMap c.encode) = some as := by
  induction as with
  | nil => simp [decodeAll]
  | cons a as ih =>
    have ha := h a (List.mem_cons_self ..)
    have pos : 0 < (c.encode a).length := List.length_pos_iff.mpr (positive a ha)
    have tail := ih (fun x hx => h x (List.mem_cons_of_mem _ hx))
    rw [List.flatMap_cons, decodeAll, if_neg (by simp [positive a ha])]
    simp only [c.decode_encode a ha, List.length_append]
    rw [if_pos (by omega), tail]
    rfl

theorem decodeAll_shortest (input : List B) (as : List A) (h : c.decodeAll input = some as) :
    (as.flatMap c.encode).length ≤ input.length := by
  induction input using decodeAll.induct c generalizing as with
  | case1 =>
    rw [decodeAll, if_pos rfl] at h
    cases Option.some.inj h
    simp
  | case2 input nonempty failed =>
    rw [decodeAll, if_neg nonempty, failed] at h
    cases h
  | case3 input nonempty a rest decoded shorter ih =>
    rw [decodeAll, if_neg nonempty, decoded] at h
    simp only [if_pos shorter, Option.map_eq_some_iff] at h
    obtain ⟨as', tail, rfl⟩ := h
    have first := c.shortest _ _ _ decoded
    have others := ih as' tail
    simp only [List.flatMap_cons, List.length_append]
    omega
  | case4 input nonempty a rest decoded notShorter =>
    rw [decodeAll, if_neg nonempty, decoded] at h
    simp only [if_neg notShorter] at h
    cases h

theorem flatMap_encode_injective (positive : ∀ a, c.valid a → c.encode a ≠ [])
    {as bs : List A} (ha : ∀ a ∈ as, c.valid a) (hb : ∀ b ∈ bs, c.valid b)
    (same : as.flatMap c.encode = bs.flatMap c.encode) : as = bs := by
  have h : some as = some bs := by
    rw [← c.decodeAll_encode positive as ha, ← c.decodeAll_encode positive bs hb, same]
  exact Option.some.inj h

end Codec

end Library
