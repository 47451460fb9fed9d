import PmcBruteforce.Remap.Levels
import Mathlib.Data.Set.Insert

/-! The tables a successful call leaves behind: still a tree, with nothing touched that is
not on the way to the page, and the induction over the levels with these facts. -/
namespace PmcBruteforce

open Library

def handedOut (a : PageAllocator) (n m : Nat) : Set (BitVec 64) :=
  {x | ∃ k, n ≤ k ∧ k < m ∧ a.status k = efiSuccess ∧ a.page k = x}

/-- The allocator keeps its promise from a count of calls on: pages that are in no use. -/
structure FreshPages (a : PageAllocator) (n : Nat) (used : Set (BitVec 64)) : Prop where
  address : ∀ k ≥ n, a.status k = efiSuccess → PageAddress (a.page k)
  unused : ∀ k ≥ n, a.status k = efiSuccess → a.page k ∉ used
  distinct : ∀ k ≥ n, ∀ l > k, a.status k = efiSuccess → a.status l = efiSuccess →
    a.page k ≠ a.page l

theorem FreshPages.later {a : PageAllocator} {n m : Nat} {used used' : Set (BitVec 64)}
    (h : FreshPages a n used) (le : n ≤ m) (within : used' ⊆ used ∪ handedOut a n m) :
    FreshPages a m used' where
  address k ge := h.address k (le.trans ge)
  unused k ge ok member := by
    rcases within member with old | ⟨l, _, lt, okay, same⟩
    · exact h.unused k (le.trans ge) ok old
    · exact h.distinct l ‹_› k (lt_of_lt_of_le lt ge) okay ok same
  distinct k ge := h.distinct k (le.trans ge)

theorem FreshPages.not_handed {a : PageAllocator} {n m k : Nat} {used : Set (BitVec 64)}
    (h : FreshPages a n used) (ge : n ≤ m) {x : BitVec 64} (member : x ∈ used) :
    x ∉ handedOut a m k := by
  rintro ⟨l, from_, _, ok, rfl⟩
  exact h.unused l (ge.trans from_) ok member

theorem handedOut_mono {a : PageAllocator} {n n' m m' : Nat} (low : n' ≤ n) (high : m ≤ m') :
    handedOut a n m ⊆ handedOut a n' m' := by
  rintro x ⟨k, ge, lt, rest⟩
  exact ⟨k, low.trans ge, lt_of_lt_of_le lt high, rest⟩

/-- What a call leaves behind below a table: the tables that were not there and were not
handed out are as before, and the tree is one again. -/
structure Frame (a : PageAllocator) (level : Nat) (table : BitVec 64) (s s' : Paging) : Prop where
  registers : s'.cr0 = s.cr0 ∧ s'.cr3 = s.cr3 ∧ s'.cr4 = s.cr4
  allocations : s.allocations ≤ s'.allocations
  outside : ∀ x, x ∉ RadixTree.nodes hardwareChild s.tables level table →
    x ∉ handedOut a s.allocations s'.allocations → s'.tables x = s.tables x
  nodes : RadixTree.nodes hardwareChild s'.tables level table ⊆
    RadixTree.nodes hardwareChild s.tables level table ∪ handedOut a s.allocations s'.allocations
  shaped : RadixTree.TreeShaped hardwareChild s'.tables level table

/-- One level entered: the state `s₁` differs from `s` in the entry of the level and in the
tables below the one that entry now leads to. -/
structure Entered (a : PageAllocator) (level : Nat) (table : BitVec 64) (i : Fin 512)
    (s : Paging) (sub : BitVec 64) (s₁ : Paging) : Prop where
  registers : s₁.cr0 = s.cr0 ∧ s₁.cr3 = s.cr3 ∧ s₁.cr4 = s.cr4
  allocations : s.allocations ≤ s₁.allocations
  child : hardwareChild (level + 1) (s₁.tables table i) = some sub
  here : ∀ j, j ≠ i → s₁.tables table j = s.tables table j
  outside : ∀ x, x ≠ table → x ∉ RadixTree.nodes hardwareChild s₁.tables level sub →
    s₁.tables x = s.tables x
  nodes : RadixTree.nodes hardwareChild s₁.tables level sub ⊆
    RadixTree.nodes hardwareChild s.tables (level + 1) table ∪
      handedOut a s.allocations s₁.allocations
  root : table ∉ RadixTree.nodes hardwareChild s₁.tables level sub
  beside : ∀ j c, j ≠ i → hardwareChild (level + 1) (s.tables table j) = some c →
    Disjoint (RadixTree.nodes hardwareChild s₁.tables level sub)
      (RadixTree.nodes hardwareChild s.tables level c)
  shaped : RadixTree.TreeShaped hardwareChild s₁.tables level sub

theorem patched_entry (s : Paging) (prot : BitVec 32) (table : BitVec 64) (i : Fin 512) :
    (s.patched prot table i).tables table i = patchedEntry prot (s.tables table i) := by
  simp only [Paging.patched, Paging.setEntry, Paging.setTable, Function.update_self]

theorem patched_under (prot : BitVec 32) {level : Nat} {table sub : BitVec 64} {i : Fin 512}
    {s : Paging} (shaped : RadixTree.TreeShaped hardwareChild s.tables (level + 1) table)
    (child : hardwareChild (level + 1) (s.tables table i) = some sub) :
    ∀ x ∈ RadixTree.nodes hardwareChild s.tables level sub,
      (s.patched prot table i).tables x = s.tables x := by
  intro x member
  have different : x ≠ table := fun equal => (shaped.1 i sub child).2 (equal ▸ member)
  exact Function.update_of_ne different _ _

theorem entered_patched (a : PageAllocator) (prot : BitVec 32) {level : Nat}
    {table sub : BitVec 64} {i : Fin 512} {s : Paging}
    (shaped : RadixTree.TreeShaped hardwareChild s.tables (level + 1) table)
    (child : hardwareChild (level + 1) (s.tables table i) = some sub) :
    Entered a level table i s sub (s.patched prot table i) := by
  have same := patched_under prot shaped child
  have nodes := RadixTree.nodes_congr same
  refine ⟨⟨rfl, rfl, rfl⟩, le_rfl, ?_, fun j different => ?_, fun x different _ => ?_,
    ?_, ?_, fun j c different step => ?_, ?_⟩
  · rw [patched_entry, hardwareChild_patchedEntry (hardwareChild_eq_some.mp child).1, child]
  · simp only [Paging.patched, Paging.setEntry, Paging.setTable, Function.update_self,
      Function.update_of_ne different]
  · exact Function.update_of_ne different _ _
  · rw [nodes]
    exact (RadixTree.child_nodes child).trans Set.subset_union_left
  · rw [nodes]
    exact (shaped.1 i sub child).2
  · rw [nodes]
    exact shaped.2 i j sub c (Ne.symm different) child step
  · exact RadixTree.treeShaped_congr same (shaped.1 i sub child).1

theorem nodes_of_no_child {m : PageTables} {level : Nat} {table : BitVec 64}
    (none_ : ∀ j, hardwareChild level (m table j) = none) :
    RadixTree.nodes hardwareChild m level table = {table} ∧
      RadixTree.TreeShaped hardwareChild m level table := by
  cases level with
  | zero => exact ⟨rfl, trivial⟩
  | succ level =>
    constructor
    · ext x
      simp [RadixTree.nodes, none_]
    · constructor
      · intro j c step
        simp [none_] at step
      · intro j l c e _ step
        simp [none_] at step

theorem FreshPages.apart {a : PageAllocator} {n : Nat} {used : Set (BitVec 64)}
    (fresh : FreshPages a n used) (allocated : a.status n = efiSuccess) :
    ∀ x ∈ used, x ≠ a.page n :=
  fun _ member equal => fresh.unused _ le_rfl allocated (equal ▸ member)

theorem FreshPages.table_ne {a : PageAllocator} {s : Paging} {level : Nat} {table : BitVec 64}
    (fresh : FreshPages a s.allocations (RadixTree.nodes hardwareChild s.tables level table))
    (allocated : a.status s.allocations = efiSuccess) : table ≠ a.page s.allocations :=
  fresh.apart allocated table (RadixTree.root_mem_nodes _ _ _)

theorem linked_table {s : Paging} {level : Nat} {page table : BitVec 64} (i : Fin 512)
    (different : table ≠ page) :
    (s.linked level page table i).tables page = freshTable level (s.tables table i) := by
  simp only [Paging.linked, Paging.setEntry, Paging.setTable,
    Function.update_of_ne (Ne.symm different), Function.update_self]

theorem linked_here {s : Paging} {level : Nat} {page table : BitVec 64} (i : Fin 512)
    (different : table ≠ page) :
    (s.linked level page table i).tables table =
      Function.update (s.tables table) i (freshEntry page) := by
  simp only [Paging.linked, Paging.setEntry, Paging.setTable, Function.update_self,
    Function.update_of_ne different]

theorem linked_child (s : Paging) (level : Nat) {page table : BitVec 64} (i : Fin 512)
    (different : table ≠ page) (j : Fin 512) :
    hardwareChild level ((s.linked level page table i).tables page j) = none := by
  rw [linked_table i different]
  exact hardwareChild_freshTable j

theorem entered_linked {a : PageAllocator} {level : Nat} {table : BitVec 64} (i : Fin 512)
    {s : Paging}
    (fresh : FreshPages a s.allocations
      (RadixTree.nodes hardwareChild s.tables (level + 1) table))
    (allocated : a.status s.allocations = efiSuccess) :
    Entered a level table i s (a.page s.allocations)
      (s.linked level (a.page s.allocations) table i) := by
  have address := fresh.address _ le_rfl allocated
  have different := fresh.table_ne allocated
  obtain ⟨nodes, shaped⟩ := nodes_of_no_child (linked_child s level i different)
  refine ⟨⟨rfl, rfl, rfl⟩, Nat.le_succ _, ?_, fun j other => ?_, fun x other beyond => ?_, ?_, ?_,
    fun j c other step => ?_, shaped⟩
  · rw [linked_here i different, Function.update_self, hardwareChild_freshEntry address]
  · rw [linked_here i different, Function.update_of_ne other]
  · rw [nodes] at beyond
    simp only [Paging.linked, Paging.setEntry, Paging.setTable, Function.update_of_ne other,
      Function.update_of_ne (show x ≠ a.page s.allocations from beyond)]
  · rw [nodes, Set.singleton_subset_iff]
    exact .inr ⟨s.allocations, le_rfl, Nat.lt_succ_self _, allocated, rfl⟩
  · rw [nodes]
    exact different
  · rw [nodes]
    refine Set.disjoint_left.mpr fun x equal member => ?_
    rw [Set.mem_singleton_iff.mp equal] at member
    exact fresh.unused _ le_rfl allocated (RadixTree.child_nodes step member)

/-- One level done: the entry of the level leads where it was entered, and nothing else
that was there is different, except below it. -/
structure LevelDone (level : Nat) (table : BitVec 64) (i : Fin 512) (sub : BitVec 64)
    (s s₁ s' : Paging) : Prop where
  updated : RadixTree.UpdatedAt hardwareChild s.tables s'.tables level table i
  entry : s'.tables table i = s₁.tables table i
  child : hardwareChild (level + 1) (s'.tables table i) = some sub

theorem Entered.done {a : PageAllocator} {level : Nat} {table sub : BitVec 64} {i : Fin 512}
    {s s₁ s' : Paging} (h : Entered a level table i s sub s₁)
    (shaped : RadixTree.TreeShaped hardwareChild s.tables (level + 1) table)
    (fresh : FreshPages a s.allocations
      (RadixTree.nodes hardwareChild s.tables (level + 1) table))
    (rest : Frame a level sub s₁ s') : LevelDone level table i sub s s₁ s' := by
  have kept : s'.tables table = s₁.tables table :=
    rest.outside table h.root (fresh.not_handed h.allocations (RadixTree.root_mem_nodes _ _ _))
  refine ⟨⟨fun j different => ?_, fun j c different step x member => ?_⟩, by rw [kept],
    by rw [kept]; exact h.child⟩
  · rw [kept, h.here j different]
  · have beyond : x ∉ RadixTree.nodes hardwareChild s₁.tables level sub :=
      fun inside => Set.disjoint_left.mp (h.beside j c different step) inside member
    have inTree := RadixTree.child_nodes step member
    rw [rest.outside x beyond (fresh.not_handed h.allocations inTree)]
    exact h.outside x (fun equal => (shaped.1 j c step).2 (equal ▸ member)) beyond

theorem Entered.frame {a : PageAllocator} {level : Nat} {table sub : BitVec 64} {i : Fin 512}
    {s s₁ s' : Paging} (h : Entered a level table i s sub s₁)
    (shaped : RadixTree.TreeShaped hardwareChild s.tables (level + 1) table)
    (fresh : FreshPages a s.allocations
      (RadixTree.nodes hardwareChild s.tables (level + 1) table))
    (rest : Frame a level sub s₁ s') : Frame a (level + 1) table s s' := by
  obtain ⟨updated, entry, child⟩ := h.done shaped fresh rest
  have early : handedOut a s.allocations s₁.allocations ⊆
      handedOut a s.allocations s'.allocations := handedOut_mono le_rfl rest.allocations
  have late : handedOut a s₁.allocations s'.allocations ⊆
      handedOut a s.allocations s'.allocations := handedOut_mono h.allocations le_rfl
  have under : ∀ c, hardwareChild (level + 1) (s'.tables table i) = some c → c = sub := by
    intro c step
    rw [child] at step
    exact (Option.some.inj step).symm
  refine ⟨?_, h.allocations.trans rest.allocations, fun x beyond unhanded => ?_, ?_, ?_⟩
  · rw [rest.registers.1, rest.registers.2.1, rest.registers.2.2]
    exact h.registers
  · have notBelow : x ∉ RadixTree.nodes hardwareChild s₁.tables level sub := by
      intro inside
      rcases h.nodes inside with old | new
      · exact beyond old
      · exact unhanded (early new)
    rw [rest.outside x notBelow fun handed => unhanded (late handed)]
    exact h.outside x (fun equal => beyond (equal ▸ RadixTree.root_mem_nodes _ _ _)) notBelow
  · have inside : RadixTree.nodes hardwareChild s'.tables level sub ⊆
        RadixTree.nodes hardwareChild s.tables (level + 1) table ∪
          handedOut a s.allocations s'.allocations := by
      intro x member
      rcases rest.nodes member with old | new
      · exact (h.nodes old).imp_right fun handed => early handed
      · exact .inr (late new)
    refine (updated.nodes_subset fun c step => under c step ▸ inside).trans ?_
    exact Set.union_subset Set.subset_union_left subset_rfl
  · refine updated.treeShaped shaped fun c step => ?_
    rw [under c step]
    refine ⟨rest.shaped, fun member => ?_, fun j d different step' => ?_⟩
    · rcases rest.nodes member with old | new
      · exact h.root old
      · exact fresh.not_handed h.allocations (RadixTree.root_mem_nodes _ _ _) new
    · refine Set.disjoint_left.mpr fun x member other => ?_
      rcases rest.nodes member with old | new
      · exact Set.disjoint_left.mp (h.beside j d different step') old other
      · exact fresh.not_handed h.allocations (RadixTree.child_nodes step' other) new

section

variable {a : PageAllocator} {virt phys : BitVec 64} {prot : BitVec 32}
  {ends : Nat → BitVec 64 → Paging → Paging → Prop}

theorem Descends.frame
    (ended : ∀ level table s s', ends level table s s' →
      RadixTree.TreeShaped hardwareChild s.tables level table → Frame a level table s s')
    {level : Nat} {table : BitVec 64} {s s' : Paging}
    (h : Descends a virt prot ends level table s s')
    (shaped : RadixTree.TreeShaped hardwareChild s.tables level table)
    (fresh : FreshPages a s.allocations (RadixTree.nodes hardwareChild s.tables level table)) :
    Frame a level table s s' := by
  induction h with
  | ended h => exact ended _ _ _ _ h shaped
  | table child rest ih =>
    have entered := entered_patched a prot shaped child
    exact entered.frame shaped fresh
      (ih entered.shaped (fresh.later entered.allocations entered.nodes))
  | @fresh level _ _ _ noTable allocated rest ih =>
    have entered := entered_linked (ptIndex virt (level + 1)) fresh allocated
    exact entered.frame shaped fresh
      (ih entered.shaped (fresh.later entered.allocations entered.nodes))

/-- The induction over the levels of a call, with what is known of each level when the call
has returned. -/
theorem Descends.induct {motive : Nat → BitVec 64 → Paging → Paging → Prop}
    (framed : ∀ level table s s', ends level table s s' →
      RadixTree.TreeShaped hardwareChild s.tables level table → Frame a level table s s')
    (ended : ∀ level table s s', ends level table s s' → motive level table s s')
    (table : ∀ level table sub (s s' : Paging),
      hardwareChild (level + 1) (s.tables table (ptIndex virt (level + 1))) = some sub →
      (∀ x ∈ RadixTree.nodes hardwareChild s.tables level sub,
        (s.patched prot table (ptIndex virt (level + 1))).tables x = s.tables x) →
      LevelDone level table (ptIndex virt (level + 1)) sub s
        (s.patched prot table (ptIndex virt (level + 1))) s' →
      motive level sub (s.patched prot table (ptIndex virt (level + 1))) s' →
      motive (level + 1) table s s')
    (fresh : ∀ level table page (s s' : Paging),
      hardwareChild (level + 1) (s.tables table (ptIndex virt (level + 1))) = none →
      PageAddress page → table ≠ page →
      LevelDone level table (ptIndex virt (level + 1)) page s
        (s.linked level page table (ptIndex virt (level + 1))) s' →
      motive level page (s.linked level page table (ptIndex virt (level + 1))) s' →
      motive (level + 1) table s s')
    {level : Nat} {root : BitVec 64} {s s' : Paging}
    (h : Descends a virt prot ends level root s s')
    (shaped : RadixTree.TreeShaped hardwareChild s.tables level root)
    (unused : FreshPages a s.allocations (RadixTree.nodes hardwareChild s.tables level root)) :
    motive level root s s' := by
  induction h with
  | ended h => exact ended _ _ _ _ h
  | table child rest ih =>
    have entered := entered_patched a prot shaped child
    have later := unused.later entered.allocations entered.nodes
    exact table _ _ _ _ _ child (patched_under prot shaped child)
      (entered.done shaped unused (rest.frame framed entered.shaped later))
      (ih entered.shaped later)
  | @fresh level _ _ _ noTable allocated rest ih =>
    have entered := entered_linked (ptIndex virt (level + 1)) unused allocated
    have later := unused.later entered.allocations entered.nodes
    exact fresh _ _ _ _ _ noTable (unused.address _ le_rfl allocated) (unused.table_ne allocated)
      (entered.done shaped unused (rest.frame framed entered.shaped later))
      (ih entered.shaped later)

theorem LeafWritten.frame {level : Nat} {table : BitVec 64} {s s' : Paging}
    (h : LeafWritten virt phys prot level table s s') : Frame a level table s s' := by
  cases h
  refine ⟨⟨rfl, rfl, rfl⟩, le_rfl, fun x beyond _ => ?_, Set.subset_union_left, trivial⟩
  exact Function.update_of_ne (show x ≠ _ from beyond) _ _

theorem Remaps.frame {level : Nat} {table : BitVec 64} {s s' : Paging}
    (h : Remaps a virt phys prot level table s s')
    (shaped : RadixTree.TreeShaped hardwareChild s.tables level table)
    (fresh : FreshPages a s.allocations (RadixTree.nodes hardwareChild s.tables level table)) :
    Frame a level table s s' :=
  h.descends.frame (fun _ _ _ _ leaf _ => leaf.frame) shaped fresh

theorem Remaps.induct {motive : Nat → BitVec 64 → Paging → Paging → Prop}
    (leaf : ∀ table s,
      motive 0 table s (s.setEntry table (ptIndex virt 0) (phys ||| pteProt prot)))
    (table : ∀ level table sub (s s' : Paging),
      hardwareChild (level + 1) (s.tables table (ptIndex virt (level + 1))) = some sub →
      (∀ x ∈ RadixTree.nodes hardwareChild s.tables level sub,
        (s.patched prot table (ptIndex virt (level + 1))).tables x = s.tables x) →
      LevelDone level table (ptIndex virt (level + 1)) sub s
        (s.patched prot table (ptIndex virt (level + 1))) s' →
      motive level sub (s.patched prot table (ptIndex virt (level + 1))) s' →
      motive (level + 1) table s s')
    (fresh : ∀ level table page (s s' : Paging),
      hardwareChild (level + 1) (s.tables table (ptIndex virt (level + 1))) = none →
      PageAddress page → table ≠ page →
      LevelDone level table (ptIndex virt (level + 1)) page s
        (s.linked level page table (ptIndex virt (level + 1))) s' →
      motive level page (s.linked level page table (ptIndex virt (level + 1))) s' →
      motive (level + 1) table s s')
    {level : Nat} {root : BitVec 64} {s s' : Paging} (h : Remaps a virt phys prot level root s s')
    (shaped : RadixTree.TreeShaped hardwareChild s.tables level root)
    (unused : FreshPages a s.allocations (RadixTree.nodes hardwareChild s.tables level root)) :
    motive level root s s' := by
  refine Descends.induct (fun _ _ _ _ leaf _ => leaf.frame) ?_ table fresh h.descends shaped unused
  intro level table s s' written
  cases written
  exact leaf _ _

end

theorem LevelDone.path_shared {level : Nat} {table sub : BitVec 64} {i : Fin 512}
    {s s₁ s' : Paging} (h : LevelDone level table i sub s s₁ s') {w : Nat → Fin 512}
    (shared : w (level + 1) = i) :
    RadixTree.path hardwareChild s'.tables (level + 1) table w =
      (level + 1, s₁.tables table i) :: RadixTree.path hardwareChild s'.tables level sub w := by
  simp only [RadixTree.path, shared, h.child]
  rw [h.entry]

theorem path_of_table {m : PageTables} {level : Nat} {table sub : BitVec 64} {w : Nat → Fin 512}
    (child : hardwareChild (level + 1) (m table (w (level + 1))) = some sub) :
    RadixTree.path hardwareChild m (level + 1) table w =
      (level + 1, m table (w (level + 1))) :: RadixTree.path hardwareChild m level sub w := by
  simp only [RadixTree.path, child]

theorem path_of_no_table {m : PageTables} {level : Nat} {table : BitVec 64} {w : Nat → Fin 512}
    (noTable : hardwareChild level (m table (w level)) = none) :
    RadixTree.path hardwareChild m level table w = [(level, m table (w level))] := by
  cases level with
  | zero => rfl
  | succ level => simp only [RadixTree.path, noTable]

theorem properEntry_of_child {level : Nat} {e : PageEntry} {sub : BitVec 64}
    (child : hardwareChild (level + 1) e = some sub) : ProperEntry (level + 1) e := by
  intro _ size
  rw [(hardwareChild_eq_some.mp child).2.1] at size
  exact absurd size Bool.false_ne_true

theorem allEntries_of_no_child {P : Nat → PageEntry → Prop} {m : PageTables} {level : Nat}
    {table : BitVec 64} (none_ : ∀ j, hardwareChild level (m table j) = none)
    (entries : ∀ j, P level (m table j)) :
    RadixTree.AllEntries hardwareChild P m level table := by
  cases level with
  | zero => exact entries
  | succ level => exact fun j => ⟨entries j, fun c step => by simp [none_] at step⟩

theorem LevelDone.proper {level : Nat} {table sub : BitVec 64} {i : Fin 512} {s s₁ s' : Paging}
    (h : LevelDone level table i sub s s₁ s')
    (old : RadixTree.AllEntries hardwareChild ProperEntry s.tables (level + 1) table)
    (under : RadixTree.AllEntries hardwareChild ProperEntry s'.tables level sub) :
    RadixTree.AllEntries hardwareChild ProperEntry s'.tables (level + 1) table := by
  refine h.updated.allEntries old (properEntry_of_child h.child) fun c step => ?_
  rw [h.child] at step
  rwa [← Option.some.inj step]

theorem Remaps.proper {a : PageAllocator} {virt phys : BitVec 64} {prot : BitVec 32} {level : Nat}
    {table : BitVec 64} {s s' : Paging} (h : Remaps a virt phys prot level table s s')
    (shaped : RadixTree.TreeShaped hardwareChild s.tables level table)
    (unused : FreshPages a s.allocations (RadixTree.nodes hardwareChild s.tables level table)) :
    RadixTree.AllEntries hardwareChild ProperEntry s.tables level table →
      RadixTree.AllEntries hardwareChild ProperEntry s'.tables level table := by
  refine Remaps.induct (motive := fun level table s s' =>
    RadixTree.AllEntries hardwareChild ProperEntry s.tables level table →
      RadixTree.AllEntries hardwareChild ProperEntry s'.tables level table)
    ?leaf ?table ?fresh h shaped unused
  case leaf => exact fun _ _ _ _ _ _ positive => absurd positive (Nat.lt_irrefl 0)
  case table =>
    intro level table sub s s' child same done ih proper
    exact done.proper proper (ih (.congr same ((proper _).2 sub child)))
  case fresh =>
    intro level table page s s' noTable _ different done ih proper
    refine done.proper proper (ih (allEntries_of_no_child (linked_child _ _ _ different) fun j => ?_))
    rw [linked_table _ different]
    exact properEntry_freshTable (proper _).1 noTable j

/-- What a call that succeeded has done, over all its levels. -/
structure RemapDone (a : PageAllocator) (virt phys : BitVec 64) (prot : BitVec 32)
    (s s' : Paging) : Prop where
  registers : s'.cr0 = s.cr0 ∧ s'.cr3 = s.cr3 ∧ s'.cr4 = s.cr4
  levels : ∃ s₁ s₂ : Paging, s₁.tables = s.tables ∧ s₁.allocations = s.allocations ∧
    Remaps a virt phys prot s.topLevel s.root s₁ s₂ ∧
    s'.tables = s₂.tables ∧ s'.allocations = s₂.allocations

theorem remapPage_done {a : PageAllocator} {virt phys : BitVec 64} {prot : BitVec 32}
    {s s' : Paging} (fresh : FreshPages a s.allocations s.nodes)
    (returned : remapPage a virt phys prot s = some (efiSuccess, s')) :
    RemapDone a virt phys prot s s' := by
  simp only [remapPage] at returned
  split at returned
  · exact absurd returned (by simp)
  · rename_i status s₂ levels
    split at returned
    · rename_i failed
      simp only [Option.some.injEq, Prod.mk.injEq] at returned
      exact absurd returned.1 failed
    · rename_i ok
      simp only [Option.some.injEq, Prod.mk.injEq, true_and] at returned
      rw [not_not.mp ok, pointer_eq (by decide) (accessible_of_returned levels)] at levels
      let s₁ : Paging := { s with cr0 := s.cr0 &&& ~~~cr0Wp }
      have remaps : Remaps a virt phys prot s.topLevel s.root s₁ s₂ := by
        rcases levels_of_returned (s := s₁) (fun k => fresh.address k) levels with
          ⟨-, remaps⟩ | ⟨failed, -⟩
        · exact remaps
        · exact absurd rfl failed
      have registers := remaps.descends.registers fun _ _ _ _ leaf => leaf.registers
      subst returned
      exact ⟨⟨rfl, registers.2⟩, s₁, s₂, rfl, rfl, remaps, rfl, rfl⟩

namespace RemapDone

variable {a : PageAllocator} {virt phys : BitVec 64} {prot : BitVec 32} {s s' : Paging}

theorem topLevel_eq (h : RemapDone a virt phys prot s s') : s'.topLevel = s.topLevel := by
  rw [Paging.topLevel, Paging.topLevel, h.registers.2.2]

theorem root_eq (h : RemapDone a virt phys prot s s') : s'.root = s.root := by
  rw [Paging.root, Paging.root, h.registers.2.1]

theorem walk_eq (h : RemapDone a virt phys prot s s') (w : BitVec 64) :
    s'.walk w = RadixTree.path hardwareChild s'.tables s.topLevel s.root (ptIndex w) := by
  rw [Paging.walk, h.topLevel_eq, h.root_eq]

theorem frame (h : RemapDone a virt phys prot s s') (shaped : s.TreeShaped)
    (fresh : FreshPages a s.allocations s.nodes) :
    s.allocations ≤ s'.allocations ∧ s'.TreeShaped ∧
      s'.nodes ⊆ s.nodes ∪ handedOut a s.allocations s'.allocations := by
  obtain ⟨s₁, s₂, tables, allocations, remaps, tables', allocations'⟩ := h.levels
  rw [Paging.TreeShaped, ← tables] at shaped
  rw [Paging.nodes, ← tables, ← allocations] at fresh
  have frame := remaps.frame shaped fresh
  rw [Paging.TreeShaped, Paging.nodes, Paging.nodes, h.topLevel_eq, h.root_eq, tables', allocations',
    ← tables, ← allocations]
  exact ⟨frame.allocations, frame.shaped, frame.nodes⟩

theorem fresh (h : RemapDone a virt phys prot s s') (shaped : s.TreeShaped)
    (fresh : FreshPages a s.allocations s.nodes) : FreshPages a s'.allocations s'.nodes := by
  obtain ⟨le, -, nodes⟩ := h.frame shaped fresh
  exact fresh.later le nodes

theorem wellFormed (h : RemapDone a virt phys prot s s') (wellFormed : s.WellFormed)
    (fresh : FreshPages a s.allocations s.nodes) : s'.WellFormed := by
  refine ⟨(h.frame wellFormed.shaped fresh).2.1, ?_⟩
  obtain ⟨s₁, s₂, tables, allocations, remaps, tables', -⟩ := h.levels
  have shaped := wellFormed.shaped
  have proper := wellFormed.proper
  rw [Paging.TreeShaped, ← tables] at shaped
  rw [Paging.nodes, ← tables, ← allocations] at fresh
  rw [← tables] at proper
  rw [h.topLevel_eq, h.root_eq, tables']
  exact remaps.proper shaped fresh proper

end RemapDone

end PmcBruteforce
