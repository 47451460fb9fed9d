import Mathlib.Data.Set.BooleanAlgebra
import Mathlib.Order.CompletePartialOrder

/-! Radix trees in a memory of nodes. A node maps indices to entries, and an entry of a level
may lead to a node one level down. The nodes below a root, the property that no two ways
lead to one node, and the entries a key meets, with the frame rules for an update that
touches one index of a node and what lies under it. -/
namespace Library.RadixTree

variable {K I E : Type} (child : Nat → E → Option K)

/-- The nodes of the tree of a height below a root. -/
def nodes (m : K → I → E) : Nat → K → Set K
  | 0, k => {k}
  | d + 1, k => {x | x = k ∨ ∃ i a, child (d + 1) (m k i) = some a ∧ x ∈ nodes m d a}

/-- Different ways from the root lead to different nodes. -/
def TreeShaped (m : K → I → E) : Nat → K → Prop
  | 0, _ => True
  | d + 1, k =>
    (∀ i a, child (d + 1) (m k i) = some a → TreeShaped m d a ∧ k ∉ nodes child m d a) ∧
    ∀ i j a c, i ≠ j → child (d + 1) (m k i) = some a → child (d + 1) (m k j) = some c →
      Disjoint (nodes child m d a) (nodes child m d c)

/-- The entries a key meets from the root down, each with its level. -/
def path (m : K → I → E) : Nat → K → (Nat → I) → List (Nat × E)
  | 0, k, w => [(0, m k (w 0))]
  | d + 1, k, w =>
    (d + 1, m k (w (d + 1))) ::
      match child (d + 1) (m k (w (d + 1))) with
      | none => []
      | some a => path m d a w

/-- Every entry of the tree, at the level it is at, has a property. -/
def AllEntries (P : Nat → E → Prop) (m : K → I → E) : Nat → K → Prop
  | 0, k => ∀ i, P 0 (m k i)
  | d + 1, k =>
    ∀ i, P (d + 1) (m k i) ∧ ∀ a, child (d + 1) (m k i) = some a → AllEntries P m d a

variable {child}

theorem root_mem_nodes (m : K → I → E) (d : Nat) (k : K) : k ∈ nodes child m d k := by
  cases d with
  | zero => exact rfl
  | succ d => exact .inl rfl

theorem child_nodes {m : K → I → E} {d : Nat} {k a : K} {i : I}
    (h : child (d + 1) (m k i) = some a) : nodes child m d a ⊆ nodes child m (d + 1) k :=
  fun _ member => .inr ⟨i, a, h, member⟩

theorem nodes_congr {m m' : K → I → E} {d : Nat} {k : K}
    (same : ∀ x ∈ nodes child m d k, m' x = m x) : nodes child m' d k = nodes child m d k := by
  induction d generalizing k with
  | zero => rfl
  | succ d ih =>
    have root := same k (root_mem_nodes m _ k)
    have below : ∀ i a, child (d + 1) (m k i) = some a →
        nodes child m' d a = nodes child m d a :=
      fun i a h => ih fun x member => same x (child_nodes h member)
    ext x
    simp only [nodes, root, Set.mem_ofPred_eq]
    constructor
    · rintro (rfl | ⟨i, a, h, member⟩)
      · exact .inl rfl
      · exact .inr ⟨i, a, h, below i a h ▸ member⟩
    · rintro (rfl | ⟨i, a, h, member⟩)
      · exact .inl rfl
      · exact .inr ⟨i, a, h, (below i a h).symm ▸ member⟩

theorem path_congr {m m' : K → I → E} {d : Nat} {k : K}
    (same : ∀ x ∈ nodes child m d k, m' x = m x) (w : Nat → I) :
    path child m' d k w = path child m d k w := by
  induction d generalizing k with
  | zero => simp only [path, same k (root_mem_nodes m _ k)]
  | succ d ih =>
    simp only [path, same k (root_mem_nodes m _ k)]
    split
    · rfl
    · rename_i a h
      rw [ih fun x member => same x (child_nodes h member)]

theorem path_level_le (m : K → I → E) (d : Nat) (k : K) (w : Nat → I) :
    ∀ x ∈ path child m d k w, x.1 ≤ d := by
  induction d generalizing k with
  | zero =>
    intro x member
    rw [List.mem_singleton.mp member]
  | succ d ih =>
    intro x member
    rcases List.mem_cons.mp member with rfl | below
    · exact le_rfl
    · split at below
      · exact absurd below List.not_mem_nil
      · exact (ih _ x below).trans (Nat.le_succ d)

/-- A key meets what any key with the same indices down the tree meets. -/
theorem path_of_indices {m : K → I → E} {v w : Nat → I} {d : Nat} (same : ∀ l ≤ d, w l = v l)
    (k : K) : path child m d k w = path child m d k v := by
  induction d generalizing k with
  | zero => rw [path, path, same 0 le_rfl]
  | succ d ih =>
    have below := ih fun l le => same l (Nat.le_succ_of_le le)
    simp only [path, same (d + 1) le_rfl, below]

/-- The nodes depend only on where the entries lead. -/
theorem nodes_of_children {m m' : K → I → E}
    (children : ∀ d x i, child d (m' x i) = child d (m x i)) (d : Nat) (k : K) :
    nodes child m' d k = nodes child m d k := by
  induction d generalizing k with
  | zero => rfl
  | succ d ih => simp only [nodes, children, ih]

/-- An entry that is kept everywhere stays on the ways it is on. -/
theorem mem_path_of_children {m m' : K → I → E} {e : E}
    (children : ∀ d x i, child d (m' x i) = child d (m x i)) (kept : ∀ x i, m x i = e → m' x i = e)
    {l d : Nat} {k : K} {w : Nat → I} (member : (l, e) ∈ path child m d k w) :
    (l, e) ∈ path child m' d k w := by
  induction d generalizing k with
  | zero =>
    obtain ⟨rfl, here⟩ := Prod.mk.inj (List.mem_singleton.mp member)
    rw [path, kept k (w 0) here.symm]
    exact List.mem_singleton.mpr rfl
  | succ d ih =>
    simp only [path, List.mem_cons, children] at member ⊢
    rcases member with here | below
    · obtain ⟨level, entry⟩ := Prod.mk.inj here
      exact .inl (by rw [level, kept k (w (d + 1)) entry.symm])
    · refine .inr ?_
      split at below
      · exact absurd below List.not_mem_nil
      · exact ih below

/-- A way ends with the entry that leads nowhere, and is the same for every key that agrees
down to there. -/
theorem path_to_end {m : K → I → E} {l : Nat} {e : E} (ends : child l e = none) {d : Nat} {k : K}
    {v : Nat → I} (member : (l, e) ∈ path child m d k v) :
    ∃ links, (∀ w : Nat → I, (∀ j, l ≤ j → j ≤ d → w j = v j) →
        path child m d k w = links ++ [(l, e)]) ∧
      ∀ x ∈ links, (child x.1 x.2).isSome = true := by
  induction d generalizing k with
  | zero =>
    obtain ⟨rfl, rfl⟩ := Prod.mk.inj (List.mem_singleton.mp member)
    refine ⟨[], fun w agree => ?_, by simp⟩
    rw [path, agree 0 le_rfl le_rfl]
    rfl
  | succ d ih =>
    have level := path_level_le m (d + 1) k v (l, e) member
    simp only [path, List.mem_cons] at member
    rcases member with here | below
    · obtain ⟨rfl, rfl⟩ := Prod.mk.inj here
      refine ⟨[], fun w agree => ?_, by simp⟩
      rw [path, agree (d + 1) le_rfl le_rfl, ends]
      rfl
    · split at below
      · exact absurd below List.not_mem_nil
      · rename_i a step
        obtain ⟨links, way, tables⟩ := ih below
        refine ⟨(d + 1, m k (v (d + 1))) :: links, fun w agree => ?_, ?_⟩
        · simp only [path, agree (d + 1) level le_rfl, step]
          rw [way w fun j ge le => agree j ge (Nat.le_succ_of_le le)]
          rfl
        · intro x member
          rcases List.mem_cons.mp member with rfl | later
          · rw [step]
            rfl
          · exact tables x later

theorem treeShaped_congr {m m' : K → I → E} {d : Nat} {k : K}
    (same : ∀ x ∈ nodes child m d k, m' x = m x) (h : TreeShaped child m d k) :
    TreeShaped child m' d k := by
  induction d generalizing k with
  | zero => trivial
  | succ d ih =>
    have root := same k (root_mem_nodes m _ k)
    have inside : ∀ i a, child (d + 1) (m k i) = some a →
        ∀ x ∈ nodes child m d a, m' x = m x :=
      fun i a step x member => same x (child_nodes step member)
    refine ⟨fun i a step => ?_, fun i j a c different step step' => ?_⟩
    · rw [root] at step
      rw [nodes_congr (inside i a step)]
      exact ⟨ih (inside i a step) (h.1 i a step).1, (h.1 i a step).2⟩
    · rw [root] at step step'
      rw [nodes_congr (inside i a step), nodes_congr (inside j c step')]
      exact h.2 i j a c different step step'

theorem AllEntries.path {P : Nat → E → Prop} {m : K → I → E} {d : Nat} {k : K}
    (h : AllEntries child P m d k) (w : Nat → I) : ∀ x ∈ path child m d k w, P x.1 x.2 := by
  induction d generalizing k with
  | zero =>
    intro x member
    rw [List.mem_singleton.mp member]
    exact h _
  | succ d ih =>
    intro x member
    rcases List.mem_cons.mp member with rfl | below
    · exact (h _).1
    · split at below
      · exact absurd below List.not_mem_nil
      · rename_i a step
        exact ih ((h _).2 a step) x below

theorem AllEntries.congr {P : Nat → E → Prop} {m m' : K → I → E} {d : Nat} {k : K}
    (same : ∀ x ∈ nodes child m d k, m' x = m x) (h : AllEntries child P m d k) :
    AllEntries child P m' d k := by
  induction d generalizing k with
  | zero =>
    intro i
    rw [same k (root_mem_nodes m _ k)]
    exact h i
  | succ d ih =>
    intro i
    rw [same k (root_mem_nodes m _ k)]
    exact ⟨(h i).1, fun a step =>
      ih (fun x member => same x (child_nodes step member)) ((h i).2 a step)⟩

theorem nodes_single {m : K → I → E} {d : Nat} {k a : K} {i : I}
    (only : ∀ j c, child (d + 1) (m k j) = some c → j = i ∧ c = a) :
    nodes child m (d + 1) k ⊆ {x | x = k ∨ x ∈ nodes child m d a} := by
  rintro x (rfl | ⟨j, c, step, member⟩)
  · exact .inl rfl
  · obtain ⟨-, rfl⟩ := only j c step
    exact .inr member

theorem treeShaped_single {m : K → I → E} {d : Nat} {k a : K} {i : I}
    (only : ∀ j c, child (d + 1) (m k j) = some c → j = i ∧ c = a)
    (shaped : TreeShaped child m d a) (outside : k ∉ nodes child m d a) :
    TreeShaped child m (d + 1) k := by
  refine ⟨fun j c step => ?_, fun j l c c' different step step' => ?_⟩
  · obtain ⟨-, rfl⟩ := only j c step
    exact ⟨shaped, outside⟩
  · exact absurd ((only j c step).1.trans (only l c' step').1.symm) different

/-- `m'` differs from `m` at the node `k` in the index `i` only, and not at all in the
nodes under the other indices. -/
structure UpdatedAt (child : Nat → E → Option K) (m m' : K → I → E) (d : Nat) (k : K) (i : I) :
    Prop where
  here : ∀ j, j ≠ i → m' k j = m k j
  beside : ∀ j a, j ≠ i → child (d + 1) (m k j) = some a → ∀ x ∈ nodes child m d a, m' x = m x

theorem UpdatedAt.path_eq {m m' : K → I → E} {d : Nat} {k : K} {i : I}
    (h : UpdatedAt child m m' d k i) (w : Nat → I) (different : w (d + 1) ≠ i) :
    path child m' (d + 1) k w = path child m (d + 1) k w := by
  simp only [path, h.here _ different]
  split
  · rfl
  · rename_i a step
    rw [path_congr (h.beside _ a different step)]

theorem UpdatedAt.nodes_subset {m m' : K → I → E} {d : Nat} {k : K} {i : I}
    (h : UpdatedAt child m m' d k i) {S : Set K}
    (under : ∀ a, child (d + 1) (m' k i) = some a → nodes child m' d a ⊆ S) :
    nodes child m' (d + 1) k ⊆ nodes child m (d + 1) k ∪ S := by
  rintro x (rfl | ⟨j, a, step, member⟩)
  · exact .inl (root_mem_nodes m _ _)
  · by_cases same : j = i
    · subst same
      exact .inr (under a step member)
    · rw [h.here j same] at step
      rw [nodes_congr (h.beside j a same step)] at member
      exact .inl (child_nodes step member)

theorem UpdatedAt.treeShaped {m m' : K → I → E} {d : Nat} {k : K} {i : I}
    (h : UpdatedAt child m m' d k i) (shaped : TreeShaped child m (d + 1) k)
    (under : ∀ a, child (d + 1) (m' k i) = some a →
      TreeShaped child m' d a ∧ k ∉ nodes child m' d a ∧
        ∀ j c, j ≠ i → child (d + 1) (m k j) = some c →
          Disjoint (nodes child m' d a) (nodes child m d c)) :
    TreeShaped child m' (d + 1) k := by
  have beside : ∀ j a, j ≠ i → child (d + 1) (m' k j) = some a →
      child (d + 1) (m k j) = some a ∧ nodes child m' d a = nodes child m d a := by
    intro j a different step
    rw [h.here j different] at step
    exact ⟨step, nodes_congr (h.beside j a different step)⟩
  refine ⟨fun j a step => ?_, fun j l a c different step step' => ?_⟩
  · by_cases same : j = i
    · subst same
      exact ⟨(under a step).1, (under a step).2.1⟩
    · obtain ⟨old, equal⟩ := beside j a same step
      rw [equal]
      exact ⟨treeShaped_congr (h.beside j a same old) (shaped.1 j a old).1, (shaped.1 j a old).2⟩
  · by_cases first : j = i
    · subst first
      obtain ⟨old, equal⟩ := beside l c (Ne.symm different) step'
      rw [equal]
      exact (under a step).2.2 l c (Ne.symm different) old
    · obtain ⟨old, equal⟩ := beside j a first step
      rw [equal]
      by_cases second : l = i
      · subst second
        exact ((under c step').2.2 j a first old).symm
      · obtain ⟨old', equal'⟩ := beside l c second step'
        rw [equal']
        exact shaped.2 j l a c different old old'

theorem UpdatedAt.allEntries {P : Nat → E → Prop} {m m' : K → I → E} {d : Nat} {k : K} {i : I}
    (h : UpdatedAt child m m' d k i) (old : AllEntries child P m (d + 1) k)
    (entry : P (d + 1) (m' k i))
    (under : ∀ a, child (d + 1) (m' k i) = some a → AllEntries child P m' d a) :
    AllEntries child P m' (d + 1) k := by
  intro j
  by_cases same : j = i
  · subst same
    exact ⟨entry, under⟩
  · rw [h.here j same]
    exact ⟨(old j).1, fun a step => .congr (h.beside j a same step) ((old j).2 a step)⟩

end Library.RadixTree
