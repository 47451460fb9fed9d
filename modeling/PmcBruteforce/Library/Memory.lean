import Mathlib.Data.List.Basic

/-! Buffers of a fixed size. A store outside of one has no result, so a program that has a
result never left its buffer. Stores at consecutive places make up one overwrite. The text of
a buffer is what stands in front of its first terminator. -/
namespace Library

variable {α : Type}

def store (m : List α) (i : Nat) (a : α) : Option (List α) :=
  if i < m.length then some (m.set i a) else none

/-- `m` with `as` written over it from place `i` on. -/
def overwrite (m : List α) (i : Nat) (as : List α) : List α :=
  m.take i ++ as ++ m.drop (i + as.length)

@[simp] theorem overwrite_nil (m : List α) (i : Nat) : overwrite m i [] = m := by
  simp [overwrite]

theorem overwrite_length {m : List α} {i : Nat} {as : List α} (inside : i + as.length ≤ m.length) :
    (overwrite m i as).length = m.length := by
  simp only [overwrite, List.length_append, List.length_take, List.length_drop]
  omega

theorem overwrite_behind (as rest bs : List α) :
    overwrite (as ++ rest) as.length bs = as ++ bs ++ rest.drop bs.length := by
  rw [overwrite, List.take_left, ← List.drop_drop, List.drop_left]

theorem store_inside {m : List α} {i : Nat} (inside : i < m.length) (a : α) :
    store m i a = some (overwrite m i [a]) := by
  rw [store, if_pos inside, List.set_eq_take_append_cons_drop, if_pos inside, overwrite,
    List.append_assoc]
  rfl

theorem store_outside {m : List α} {i : Nat} (outside : m.length ≤ i) (a : α) :
    store m i a = none := if_neg (Nat.not_lt.mpr outside)

theorem overwrite_overwrite {m : List α} {i : Nat} {as bs : List α}
    (inside : i + as.length + bs.length ≤ m.length) :
    overwrite (overwrite m i as) (i + as.length) bs = overwrite m i (as ++ bs) := by
  have front : (m.take i ++ as).length = i + as.length := by
    rw [List.length_append, List.length_take]
    omega
  have kept : (m.take i ++ as ++ m.drop (i + as.length)).take (i + as.length) = m.take i ++ as := by
    rw [← front, List.take_left]
  have rest : (m.take i ++ as ++ m.drop (i + as.length)).drop (i + as.length + bs.length) =
      m.drop (i + (as ++ bs).length) := by
    rw [← List.drop_drop, ← front, List.drop_left, front, List.drop_drop, List.length_append,
      Nat.add_assoc]
  rw [overwrite, overwrite, kept, rest, overwrite, List.append_assoc (m.take i)]

/-- A store in front of an overwrite makes it longer. -/
theorem overwrite_cons {m : List α} {i : Nat} {a : α} {as : List α}
    (inside : i + (a :: as).length ≤ m.length) :
    overwrite (overwrite m i [a]) (i + 1) as = overwrite m i (a :: as) := by
  have adjacent : i + [a].length + as.length ≤ m.length := by
    rw [List.length_cons] at inside
    rw [List.length_singleton]
    omega
  exact overwrite_overwrite adjacent

/-- `m` with as much of `as` written from place `i` on as fits in front of `limit`. -/
def fill (limit : Nat) (m : List α) (i : Nat) (as : List α) : List α :=
  overwrite m i (as.take (limit - i))

/-- The place behind what `fill` writes. -/
def reach (limit i : Nat) (as : List α) : Nat := min (i + as.length) limit

section

variable {limit i : Nat} {m : List α}

theorem reach_le (limit i : Nat) (as : List α) : reach limit i as ≤ limit := Nat.min_le_right _ _

theorem reach_eq (below : i ≤ limit) (as : List α) :
    reach limit i as = i + (as.take (limit - i)).length := by
  rw [reach, List.length_take]
  omega

theorem reach_reach (as bs : List α) :
    reach limit (reach limit i as) bs = reach limit i (as ++ bs) := by
  simp only [reach, List.length_append]
  omega

theorem fill_length (below : i ≤ limit) (inside : limit ≤ m.length) (as : List α) :
    (fill limit m i as).length = m.length := by
  have bound := reach_le limit i as
  rw [reach_eq below as] at bound
  exact overwrite_length (Nat.le_trans bound inside)

theorem overwrite_fill {bs : List α} (below : i ≤ limit) (inside : limit + bs.length ≤ m.length)
    (as : List α) : overwrite (fill limit m i as) (reach limit i as) bs =
      overwrite m i (as.take (limit - i) ++ bs) := by
  have bound := reach_le limit i as
  rw [reach_eq below as] at bound ⊢
  apply overwrite_overwrite
  omega

theorem fill_fill (below : i ≤ limit) (inside : limit ≤ m.length) (as bs : List α) :
    fill limit (fill limit m i as) (reach limit i as) bs = fill limit m i (as ++ bs) := by
  have bound := reach_le limit i as
  have left : limit - (i + (as.take (limit - i)).length) = limit - i - as.length := by
    rw [List.length_take]
    omega
  have rest := List.length_take_le (limit - (i + (as.take (limit - i)).length)) bs
  rw [reach_eq below as] at bound ⊢
  rw [left] at rest
  rw [fill, fill, left, fill, List.take_append]
  apply overwrite_overwrite
  omega

end

variable [DecidableEq α]

def text (z : α) (m : List α) : List α := m.takeWhile fun a => a ≠ z

theorem text_append {z : α} {as : List α} (outside : z ∉ as) (rest : List α) :
    text z (as ++ z :: rest) = as := by
  induction as with
  | nil => simp [text]
  | cons a as ih =>
    have other : a ≠ z := fun same => outside (same ▸ List.mem_cons_self)
    have front := ih fun member => outside (List.mem_cons_of_mem _ member)
    rw [text] at front ⊢
    rw [List.cons_append, List.takeWhile_cons_of_pos (by simpa using other), front]

theorem split_at_terminator {z : α} {m : List α} (terminated : z ∈ m) :
    ∃ as rest, m = as ++ z :: rest ∧ z ∉ as ∧ text z m = as := by
  obtain ⟨as, rest, rfl, outside⟩ := List.eq_append_cons_of_mem terminated
  exact ⟨as, rest, rfl, outside, text_append outside rest⟩

end Library
