import Mathlib.Data.List.Basic

/-! The first place where two strings differ. Strings of one length, and strings with a letter
at the end that they have nowhere else, are equal or have such a place, and the two letters
there decide which of them comes first in the order of lists. -/
namespace Library

variable {α : Type}

def FirstDifference (xs ys : List α) (x y : α) : Prop :=
  ∃ q u v, xs = q ++ x :: u ∧ ys = q ++ y :: v ∧ x ≠ y

theorem FirstDifference.cons (a : α) {xs ys : List α} {x y : α} (h : FirstDifference xs ys x y) :
    FirstDifference (a :: xs) (a :: ys) x y := by
  obtain ⟨q, u, v, rfl, rfl, different⟩ := h
  exact ⟨a :: q, u, v, rfl, rfl, different⟩

theorem FirstDifference.unique {xs ys : List α} {x y x' y' : α} (h : FirstDifference xs ys x y)
    (h' : FirstDifference xs ys x' y') : x = x' ∧ y = y' := by
  obtain ⟨q, u, v, rfl, rfl, different⟩ := h
  obtain ⟨q', u', v', left, right, different'⟩ := h'
  induction q generalizing q' with
  | nil =>
    cases q' with
    | nil => exact ⟨(List.cons.inj left).1, (List.cons.inj right).1⟩
    | cons a q' => exact absurd ((List.cons.inj left).1.trans (List.cons.inj right).1.symm) different
  | cons a q ih =>
    cases q' with
    | nil => exact absurd ((List.cons.inj left).1.symm.trans (List.cons.inj right).1) different'
    | cons b q' => exact ih q' (List.cons.inj left).2 (List.cons.inj right).2

theorem FirstDifference.symm {xs ys : List α} {x y : α} (h : FirstDifference xs ys x y) :
    FirstDifference ys xs y x := by
  obtain ⟨q, u, v, left, right, different⟩ := h
  exact ⟨q, v, u, right, left, different.symm⟩

theorem FirstDifference.letters_ne {xs ys : List α} {x y : α} (h : FirstDifference xs ys x y) :
    x ≠ y := by
  obtain ⟨-, -, -, -, -, different⟩ := h
  exact different

theorem FirstDifference.ne {xs ys : List α} {x y : α} (h : FirstDifference xs ys x y) :
    xs ≠ ys := by
  obtain ⟨q, u, v, rfl, rfl, different⟩ := h
  exact fun same => different (List.cons.inj (List.append_cancel_left same)).1

theorem FirstDifference.map {β : Type} {f : α → β} (injective : Function.Injective f)
    {xs ys : List α} {x y : α} (h : FirstDifference xs ys x y) :
    FirstDifference (xs.map f) (ys.map f) (f x) (f y) := by
  obtain ⟨q, u, v, rfl, rfl, different⟩ := h
  exact ⟨q.map f, u.map f, v.map f, List.map_append, List.map_append, injective.ne different⟩

theorem first_difference_of_length {xs ys : List α} (size : xs.length = ys.length) :
    xs = ys ∨ ∃ x y, FirstDifference xs ys x y := by
  induction xs generalizing ys with
  | nil => exact .inl (List.length_eq_zero_iff.mp size.symm).symm
  | cons a xs ih =>
    cases ys with
    | nil => cases size
    | cons b ys =>
      by_cases same : a = b
      · subst same
        rcases ih (Nat.succ.inj size) with rfl | ⟨x, y, first⟩
        · exact .inl rfl
        · exact .inr ⟨x, y, first.cons a⟩
      · exact .inr ⟨a, b, [], xs, ys, rfl, rfl, same⟩

/-- The last letter of both strings counts as a place. -/
theorem first_difference_of_terminated {z : α} {xs ys : List α} (left : z ∉ xs) (right : z ∉ ys) :
    xs = ys ∨ ∃ x y, FirstDifference (xs ++ [z]) (ys ++ [z]) x y := by
  induction xs generalizing ys with
  | nil =>
    cases ys with
    | nil => exact .inl rfl
    | cons b ys =>
      have different : z ≠ b := fun same => right (same ▸ List.mem_cons_self)
      exact .inr ⟨z, b, [], [], ys ++ [z], rfl, rfl, different⟩
  | cons a xs ih =>
    have outside : z ∉ xs := fun member => left (List.mem_cons_of_mem _ member)
    cases ys with
    | nil =>
      have different : a ≠ z := fun same => left (same ▸ List.mem_cons_self)
      exact .inr ⟨a, z, [], xs ++ [z], [], rfl, rfl, different⟩
    | cons b ys =>
      by_cases same : a = b
      · subst same
        rcases ih outside (fun member => right (List.mem_cons_of_mem _ member)) with
          rfl | ⟨x, y, first⟩
        · exact .inl rfl
        · exact .inr ⟨x, y, first.cons a⟩
      · exact .inr ⟨a, b, [], xs ++ [z], ys ++ [z], rfl, rfl, same⟩

section Order

variable [LE α] [LT α] [Std.IsLinearOrder α] [Std.LawfulOrderLT α]

theorem FirstDifference.lt_iff {xs ys : List α} {x y : α} (h : FirstDifference xs ys x y) :
    xs < ys ↔ x < y := by
  obtain ⟨q, u, v, rfl, rfl, different⟩ := h
  constructor
  · intro less
    rcases Std.lt_trichotomy x y with below | same | above
    · exact below
    · exact absurd same different
    · have reverse : q ++ y :: v < q ++ x :: u :=
        List.append_left_lt (List.cons_lt_cons_iff.mpr (.inl above))
      exact absurd (List.lt_trans less reverse) (List.lt_irrefl _)
  · intro below
    exact List.append_left_lt (List.cons_lt_cons_iff.mpr (.inl below))

/-- A terminator below all other letters orders the strings as they are ordered without it. -/
theorem terminated_lt_iff {z : α} (least : ∀ a, a ≠ z → z < a) {xs ys : List α}
    (left : z ∉ xs) (right : z ∉ ys) : xs ++ [z] < ys ++ [z] ↔ xs < ys := by
  induction xs generalizing ys with
  | nil =>
    cases ys with
    | nil => exact iff_of_false (List.lt_irrefl _) (List.lt_irrefl _)
    | cons b ys =>
      have below := least b fun same => right (same ▸ List.mem_cons_self)
      exact iff_of_true (List.cons_lt_cons_iff.mpr (.inl below)) (List.nil_lt_cons b ys)
  | cons a xs ih =>
    have outside : z ∉ xs := fun member => left (List.mem_cons_of_mem _ member)
    cases ys with
    | nil =>
      have below := least a fun same => left (same ▸ List.mem_cons_self)
      refine iff_of_false (fun less => ?_) (List.not_lt_nil _)
      have longer : [] ++ [z] < a :: xs ++ [z] := List.cons_lt_cons_iff.mpr (.inl below)
      exact List.lt_irrefl _ (List.lt_trans less longer)
    | cons b ys =>
      have inside := ih outside fun member => right (List.mem_cons_of_mem _ member)
      rw [List.cons_append, List.cons_append, List.cons_lt_cons_iff, List.cons_lt_cons_iff, inside]

end Order

end Library
