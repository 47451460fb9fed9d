import Mathlib.Data.List.Basic

/-! The least string of a prefix-closed set that is larger than a given one at the first place
where the two differ. A search finds it at the last position at which a larger letter can be
put, with the smallest such letter. -/
namespace Library

variable {α : Type}

theorem splits_inside {q q' u u' : List α} {x y : α} (split : q ++ x :: u = q' ++ y :: u')
    (earlier : q'.length < q.length) : ∃ rest, q = q' ++ y :: rest := by
  rcases List.append_eq_append_iff.mp split with ⟨more, rfl, -⟩ | ⟨rest, rfl, tail⟩
  · rw [List.length_append] at earlier
    omega
  · cases rest with
    | nil =>
      rw [List.append_nil] at earlier
      exact absurd earlier (Nat.lt_irrefl _)
    | cons z rest =>
      obtain ⟨rfl, -⟩ := List.cons.inj tail
      exact ⟨rest, rfl⟩

variable [LT α]

/-- At the first place where the strings differ `s` is the larger one, and there is such a place. -/
def Exceeds (c s : List α) : Prop :=
  ∃ q x z u v, c = q ++ x :: u ∧ s = q ++ z :: v ∧ x < z

/-- What the search ranges over: no longer than `c`, in the set, and larger. -/
structure Successor (A : List α → Prop) (c s : List α) : Prop where
  nonempty : 1 ≤ s.length
  length : s.length ≤ c.length
  member : A s
  exceeds : Exceeds c s

/-- A string comes before its extensions in the order of lists. -/
structure LeastSuccessor (A : List α → Prop) (c s : List α) : Prop where
  successor : Successor A c s
  least : ∀ t, Successor A c t → s ≤ t

/-- Behind `q` the set has no letter above `x`. -/
def NoneAbove (A : List α → Prop) (q : List α) (x : α) : Prop := ∀ w, x < w → ¬ A (q ++ [w])

def PrefixClosed (A : List α → Prop) : Prop := ∀ s t, A (s ++ t) → A s

theorem Successor.letter {A : List α → Prop} (closed : PrefixClosed A) {c s : List α}
    (h : Successor A c s) :
    ∃ q x z u v, c = q ++ x :: u ∧ s = q ++ z :: v ∧ x < z ∧ A (q ++ [z]) := by
  obtain ⟨q, x, z, u, v, split, rfl, less⟩ := h.exceeds
  refine ⟨q, x, z, u, v, split, rfl, less, closed (q ++ [z]) v ?_⟩
  rw [List.append_assoc]
  exact h.member

theorem no_successor_iff {A : List α → Prop} (closed : PrefixClosed A) (c : List α) :
    (∀ q x u, c = q ++ x :: u → NoneAbove A q x) ↔ ∀ s, ¬ Successor A c s := by
  constructor
  · intro blocked s successor
    obtain ⟨q, x, z, u, v, split, -, less, member⟩ := successor.letter closed
    exact blocked q x u split z less member
  · rintro none q x u rfl w less member
    refine none (q ++ [w]) ⟨?_, ?_, member, q, x, w, u, [], rfl, rfl, less⟩
    · simp
    · simp

theorem least_successor [LE α] [Std.IsLinearOrder α] [Std.LawfulOrderLT α] {A : List α → Prop}
    (closed : PrefixClosed A) {q u : List α} {x z : α} (less : x < z) (member : A (q ++ [z]))
    (skipped : ∀ w, x < w → w < z → ¬ A (q ++ [w]))
    (passed : ∀ q' y u', q ++ x :: u = q' ++ y :: u' → q.length < q'.length → NoneAbove A q' y) :
    LeastSuccessor A (q ++ x :: u) (q ++ [z]) := by
  constructor
  · refine ⟨?_, ?_, member, q, x, z, u, [], rfl, rfl, less⟩
    · simp
    · simp
  · intro t successor
    obtain ⟨q', y, w, u', v, split, rfl, larger, kept⟩ := successor.letter closed
    rcases Nat.lt_trichotomy q'.length q.length with earlier | same | later
    · -- the other string is larger in front of the letter
      obtain ⟨rest, rfl⟩ := splits_inside split earlier
      apply List.le_of_lt
      rw [List.append_assoc]
      exact List.append_left_lt (List.cons_lt_cons_iff.mpr (.inl larger))
    · obtain ⟨rfl, tail⟩ := List.append_inj split same.symm
      obtain ⟨rfl, -⟩ := List.cons.inj tail
      rcases Std.lt_trichotomy z w with above | rfl | below
      · apply List.le_of_lt
        exact List.append_left_lt (List.cons_lt_cons_iff.mpr (.inl above))
      · apply List.IsPrefix.le
        exact ⟨v, by rw [List.append_assoc]; rfl⟩
      · exact absurd kept (skipped w larger below)
    · exact absurd kept (passed q' y u' split later w larger)

end Library
