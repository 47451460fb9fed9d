import PmcBruteforce.Remap.Others
import PmcBruteforce.Remap.Pieces

/-! What a successful call does to the rest of a large page it splits. Nothing is asked of the
tables here but that the allocator hands out none of them. -/
namespace PmcBruteforce

open Library

variable {a : PageAllocator} {virt phys w : BitVec 64} {prot : BitVec 32}

theorem LargePage.no_child {level : Nat} {e : PageEntry} (large : LargePage level e) (k : Nat) :
    hardwareChild k e = none := by
  cases k with
  | zero => rfl
  | succ k => exact hardwareChild_eq_none.mpr fun _ => large.size

theorem LargePage.readable {level : Nat} {e : PageEntry} (large : LargePage level e) :
    Right.read.allows (level, e) = true := by
  have height := large.height
  rw [Right.allows, has_present, large.present, decide_eq_false (by omega : ¬ 3 ≤ level)]
  rfl

theorem splitLeaf_readable (virt w : BitVec 64) {level : Nat} {e : PageEntry}
    (large : LargePage (level + 1) e) :
    Right.read.allows (splitLeaf virt w level e) = true := by
  induction level generalizing e with
  | zero =>
    rw [splitLeaf, Right.allows, has_present, pieceOf_low _ _ _ (by decide), large.present]
    rfl
  | succ level ih =>
    have piece := fun j => (large.piece j).1
    by_cases same : ptIndex w (level + 1) = ptIndex virt (level + 1)
    · rw [splitLeaf, if_pos same]
      exact ih (piece _)
    · rw [splitLeaf, if_neg same]
      exact (piece _).readable

/-- A walk that ends with an entry, behind tables that let it through. -/
def EndsWith (path : List (Nat × PageEntry)) (x : Nat × PageEntry) : Prop :=
  ∃ links, path = links ++ [x] ∧ ∀ y ∈ links, Right.read.allows y = true

theorem EndsWith.cons {path : List (Nat × PageEntry)} {x y : Nat × PageEntry}
    (h : EndsWith path x) (readable : Right.read.allows y = true) : EndsWith (y :: path) x := by
  obtain ⟨links, rfl, below⟩ := h
  exact ⟨y :: links, rfl, List.forall_mem_cons.mpr ⟨readable, below⟩⟩

/-- The walk below the table a large page was split into. -/
theorem Remaps.split_path {level : Nat} {page : BitVec 64} {t s' : Paging}
    (h : Remaps a virt phys prot level page t s') {e : PageEntry} (large : LargePage (level + 1) e)
    (pieces : t.tables page = pieceOf level e)
    (unused : FreshPages a t.allocations (RadixTree.nodes hardwareChild t.tables level page))
    (shaped : RadixTree.TreeShaped hardwareChild t.tables level page)
    (different : ∃ k ≤ level, ptIndex w k ≠ ptIndex virt k) :
    EndsWith (RadixTree.path hardwareChild s'.tables level page (ptIndex w))
      (splitLeaf virt w level e) := by
  refine Remaps.induct (motive := fun level page t s' => ∀ e, LargePage (level + 1) e →
    t.tables page = pieceOf level e → (∃ k ≤ level, ptIndex w k ≠ ptIndex virt k) →
    EndsWith (RadixTree.path hardwareChild s'.tables level page (ptIndex w))
      (splitLeaf virt w level e)) ?leaf ?table ?fresh h shaped unused e large pieces different
  case leaf =>
    rintro page t e - pieces ⟨k, le, different⟩
    obtain rfl := Nat.le_zero.mp le
    refine ⟨[], ?_, by simp⟩
    simp only [RadixTree.path, Paging.setEntry, Paging.setTable, Function.update_self,
      Function.update_of_ne different, pieces]
    rfl
  case table =>
    intro level page sub t s' child _ _ _ e large pieces _
    rw [pieces, (large.piece _).1.no_child] at child
    cases child
  case fresh =>
    intro level page next t s' noTable address apart done ih e large pieces different
    by_cases shared : ptIndex w (level + 1) = ptIndex virt (level + 1)
    · have piece := (large.piece (ptIndex virt (level + 1))).1
      have under : (t.linked level next page (ptIndex virt (level + 1))).tables next =
          pieceOf level (pieceOf (level + 1) e (ptIndex virt (level + 1))) := by
        rw [linked_table _ apart, pieces]
        exact freshTable_of_large piece.present (piece.no_child _)
      have below := ih _ piece under (different_below shared different)
      rw [done.path_shared shared, linked_here _ apart, Function.update_self, splitLeaf,
        if_pos shared]
      exact below.cons (freshEntry_allows .read _ address)
    · have piece := (large.piece (ptIndex w (level + 1))).1
      have noTable' : hardwareChild (level + 1) (t.tables page (ptIndex w (level + 1))) = none := by
        rw [pieces]
        exact piece.no_child _
      have old := path_of_no_table noTable'
      rw [done.updated.path_eq _ shared, old, splitLeaf, if_neg shared, pieces]
      exact ⟨[], rfl, by simp⟩

/-- What a call does on the way to a large page: the tables stay tables, and the rest of the
page is reached through its pieces. `used` holds what the allocator does not hand out. -/
structure SplitBelow (used : Set (BitVec 64)) (virt : BitVec 64) (e : PageEntry) (l level : Nat)
    (table : BitVec 64) (s s' : Paging) : Prop where
  tables : ∀ x ∈ used, ∀ j c, hardwareChild 1 (s.tables x j) = some c →
    hardwareChild 1 (s'.tables x j) = some c
  walk : ∀ w, (∀ k, l + 1 ≤ k → k ≤ level → ptIndex w k = ptIndex virt k) →
    (∃ k ≤ l, ptIndex w k ≠ ptIndex virt k) →
    EndsWith (RadixTree.path hardwareChild s'.tables level table (ptIndex w))
      (splitLeaf virt w l e)

theorem patched_children {level : Nat} {table sub : BitVec 64} {i : Fin 512} {s : Paging}
    (child : hardwareChild (level + 1) (s.tables table i) = some sub) (d : Nat) (x : BitVec 64)
    (j : Fin 512) :
    hardwareChild d ((s.patched prot table i).tables x j) = hardwareChild d (s.tables x j) := by
  by_cases here : x = table ∧ j = i
  · obtain ⟨rfl, rfl⟩ := here
    rw [patched_entry, hardwareChild_patchedEntry (hardwareChild_eq_some.mp child).1]
  · have kept : (s.patched prot table i).tables x j = s.tables x j := by
      by_cases same : x = table
      · subst same
        have other : j ≠ i := fun equal => here ⟨rfl, equal⟩
        simp only [Paging.patched, Paging.setEntry, Paging.setTable, Function.update_self,
          Function.update_of_ne other]
      · exact congrFun (Function.update_of_ne same _ _) j
    rw [kept]

theorem patched_large {level l : Nat} {table sub : BitVec 64} {i : Fin 512} {s : Paging}
    {e : PageEntry} (child : hardwareChild (level + 1) (s.tables table i) = some sub)
    (large : LargePage l e) (x : BitVec 64) (j : Fin 512) (here : s.tables x j = e) :
    (s.patched prot table i).tables x j = e := by
  by_cases same : x = table
  · subst same
    have other : j ≠ i := by
      rintro rfl
      rw [here, large.no_child] at child
      cases child
    simp only [Paging.patched, Paging.setEntry, Paging.setTable, Function.update_self,
      Function.update_of_ne other, here]
  · rw [← here]
    exact congrFun (Function.update_of_ne same _ _) j

theorem table_readable {level : Nat} {e : PageEntry} {sub : BitVec 64}
    (child : hardwareChild (level + 1) e = some sub) :
    Right.read.allows (level + 1, e) = true := by
  rw [allows_of_table (by rw [isTable, child]; rfl)]
  rfl

theorem SplitBelow.patched {used : Set (BitVec 64)} {e : PageEntry} {l level : Nat}
    {table sub : BitVec 64} {s s' : Paging}
    (child : hardwareChild (level + 1) (s.tables table (ptIndex virt (level + 1))) = some sub)
    (inUse : table ∈ used) (below : l + 1 ≤ level)
    (rest : SplitBelow used virt e l level sub
      (s.patched prot table (ptIndex virt (level + 1))) s') :
    SplitBelow used virt e l (level + 1) table s s' := by
  have tables : ∀ x ∈ used, ∀ j c, hardwareChild 1 (s.tables x j) = some c →
      hardwareChild 1 (s'.tables x j) = some c := by
    intro x member j c step
    apply rest.tables x member j c
    rw [patched_children child, step]
  refine ⟨tables, fun w shared different => ?_⟩
  have here := shared (level + 1) (by omega) le_rfl
  have child' : hardwareChild (level + 1) (s'.tables table (ptIndex w (level + 1))) = some sub := by
    rw [here]
    exact tables table inUse _ _ child
  have way := rest.walk w (fun k ge le => shared k ge (Nat.le_succ_of_le le)) different
  rw [path_of_table child']
  exact way.cons (table_readable child')

section

variable {used : Set (BitVec 64)} {level : Nat} {table : BitVec 64} {s s' : Paging}

/-- A page that was just linked is a tree of its own, with more pages to come. -/
theorem linked_alone (level : Nat) (fresh : FreshPages a s.allocations used)
    (inUse : table ∈ used) (allocated : a.status s.allocations = efiSuccess) (i : Fin 512) :
    RadixTree.nodes hardwareChild (s.linked level (a.page s.allocations) table i).tables level
        (a.page s.allocations) = {a.page s.allocations} ∧
      RadixTree.TreeShaped hardwareChild (s.linked level (a.page s.allocations) table i).tables
        level (a.page s.allocations) ∧
      FreshPages a (s.allocations + 1) {a.page s.allocations} := by
  obtain ⟨nodes, shaped⟩ := nodes_of_no_child
    (linked_child s level i (fresh.apart allocated table inUse))
  refine ⟨nodes, shaped, fresh.later (Nat.le_succ _) ?_⟩
  rw [Set.singleton_subset_iff]
  exact .inr ⟨s.allocations, le_rfl, Nat.lt_succ_self _, allocated, rfl⟩

/-- The rest of the call works on new pages. -/
theorem Remaps.keeps_used {i : Fin 512} (fresh : FreshPages a s.allocations used)
    (inUse : table ∈ used) (allocated : a.status s.allocations = efiSuccess)
    (rest : Remaps a virt phys prot level (a.page s.allocations)
      (s.linked level (a.page s.allocations) table i) s') :
    ∀ x ∈ used, s'.tables x = (s.linked level (a.page s.allocations) table i).tables x := by
  obtain ⟨nodes, shaped, unused⟩ := linked_alone level fresh inUse allocated i
  rw [← nodes] at unused
  intro x member
  apply (rest.frame shaped unused).outside
  · rw [nodes]
    exact fresh.apart allocated x member
  · exact fresh.not_handed (Nat.le_succ _) member

theorem linked_tables {i j : Fin 512} {c x page : BitVec 64} (apart : x ≠ page)
    (noTable : hardwareChild 1 (s.tables table i) = none)
    (step : hardwareChild 1 (s.tables x j) = some c) :
    hardwareChild 1 ((s.linked level page table i).tables x j) = some c := by
  by_cases same : x = table
  · subst same
    have other : j ≠ i := by
      rintro rfl
      cases noTable.symm.trans step
    rwa [linked_here _ apart, Function.update_of_ne other]
  · have untouched : (s.linked level page table i).tables x = s.tables x := by
      simp only [Paging.linked, Paging.setEntry, Paging.setTable, Function.update_of_ne same,
        Function.update_of_ne apart]
    rwa [untouched]

theorem SplitBelow.linked {e : PageEntry} (large : LargePage (level + 1) e)
    (here : s.tables table (ptIndex virt (level + 1)) = e) (inUse : table ∈ used)
    (fresh : FreshPages a s.allocations used) (allocated : a.status s.allocations = efiSuccess)
    (rest : Remaps a virt phys prot level (a.page s.allocations)
      (s.linked level (a.page s.allocations) table (ptIndex virt (level + 1))) s') :
    SplitBelow used virt e level (level + 1) table s s' := by
  have apart := fresh.apart allocated
  have kept := rest.keeps_used fresh inUse allocated
  constructor
  · intro x member j c step
    rw [kept x member]
    exact linked_tables (apart x member) (by rw [here, large.no_child]) step
  · intro w shared different
    have pieces : (s.linked level (a.page s.allocations) table
        (ptIndex virt (level + 1))).tables (a.page s.allocations) = pieceOf level e := by
      rw [linked_table _ (apart table inUse), here]
      exact freshTable_of_large large.present (large.no_child _)
    have child : hardwareChild (level + 1) (s'.tables table (ptIndex w (level + 1))) =
        some (a.page s.allocations) := by
      rw [shared (level + 1) le_rfl le_rfl, kept table inUse, linked_here _ (apart table inUse),
        Function.update_self, hardwareChild_freshEntry (fresh.address _ le_rfl allocated)]
    obtain ⟨nodes, shaped, unused⟩ := linked_alone level fresh inUse allocated
      (ptIndex virt (level + 1))
    rw [← nodes] at unused
    rw [path_of_table child]
    exact (rest.split_path large pieces unused shaped different).cons (table_readable child)

end

theorem Remaps.splitBelow {level : Nat} {table : BitVec 64} {s s' : Paging}
    (h : Remaps a virt phys prot level table s s') {used : Set (BitVec 64)}
    (fresh : FreshPages a s.allocations used)
    (within : RadixTree.nodes hardwareChild s.tables level table ⊆ used) {l : Nat} {e : PageEntry}
    (met : (l + 1, e) ∈ RadixTree.path hardwareChild s.tables level table (ptIndex virt))
    (large : LargePage (l + 1) e) : SplitBelow used virt e l level table s s' := by
  induction h with
  | leaf =>
    have level := RadixTree.path_level_le _ _ _ _ _ met
    omega
  | @table level table sub s s' child rest ih =>
    have inUse := within (RadixTree.root_mem_nodes _ _ _)
    rw [path_of_table child] at met
    rcases List.mem_cons.mp met with here | below
    · obtain ⟨-, here⟩ := Prod.mk.inj here
      rw [← here, large.no_child] at child
      cases child
    · have height := RadixTree.path_level_le _ _ _ _ _ below
      have children : ∀ d x j, hardwareChild d
          ((s.patched prot table (ptIndex virt (level + 1))).tables x j) =
            hardwareChild d (s.tables x j) := patched_children child
      have nodes := RadixTree.nodes_of_children children level sub
      have under := RadixTree.mem_path_of_children children (patched_large child large) below
      refine .patched child inUse height (ih fresh ?_ under)
      rw [nodes]
      exact (RadixTree.child_nodes child).trans within
  | @fresh level table s s' noTable allocated rest ih =>
    have inUse := within (RadixTree.root_mem_nodes _ _ _)
    rw [path_of_no_table noTable] at met
    obtain ⟨same, here⟩ := Prod.mk.inj (List.mem_singleton.mp met)
    obtain rfl := Nat.succ.inj same
    exact .linked large here.symm inUse fresh allocated rest

/-- The number of the 4 KiB, 2 MiB or 1 GiB page an address is in. -/
def pageNumber (size : Nat) (virt : BitVec 64) : BitVec 64 := virt >>> (12 + 9 * size)

theorem ptIndex_of_pageNumber {size k : Nat} (same : pageNumber size w = pageNumber size virt)
    (le : size ≤ k) : ptIndex w k = ptIndex virt k := by
  have shift : ∀ x : BitVec 64, x >>> (12 + 9 * k) = pageNumber size x >>> (9 * (k - size)) := by
    intro x
    rw [pageNumber, ← BitVec.shiftRight_add]
    congr 1
    omega
  rw [ptIndex, ptIndex, shift, shift, same]

theorem pageNumber_of_ptIndex {size : Nat}
    (same : pageNumber (size + 1) w = pageNumber (size + 1) virt)
    (index : ptIndex w size = ptIndex virt size) : pageNumber size w = pageNumber size virt := by
  have low : (pageNumber size w).toNat % 512 = (pageNumber size virt).toNat % 512 :=
    congrArg Fin.val index
  have next : ∀ x : BitVec 64,
      (pageNumber (size + 1) x).toNat = (pageNumber size x).toNat / 512 := by
    intro x
    have shift : pageNumber (size + 1) x = pageNumber size x >>> 9 := by
      rw [pageNumber, pageNumber, ← BitVec.shiftRight_add]
      rfl
    rw [shift, BitVec.toNat_ushiftRight, Nat.shiftRight_eq_div_pow]
  have high := congrArg BitVec.toNat same
  rw [next, next] at high
  apply BitVec.eq_of_toNat_eq
  omega

theorem pageNumber_eq_iff {size level : Nat} (le : size ≤ level)
    (same : pageNumber level w = pageNumber level virt) :
    pageNumber size w = pageNumber size virt ↔
      ∀ k, size ≤ k → k < level → ptIndex w k = ptIndex virt k := by
  constructor
  · intro equal k ge _
    exact ptIndex_of_pageNumber equal ge
  · intro all
    induction level, le using Nat.le_induction with
    | base => exact same
    | succ level le ih =>
      apply ih
      · exact pageNumber_of_ptIndex same (all level le (Nat.lt_succ_self level))
      · exact fun k ge lt => all k ge (Nat.lt_succ_of_lt lt)

/-- An address is translated as before, by a leaf with the attributes it had. -/
structure MappingKept (s s' : Paging) (w : BitVec 64) : Prop where
  address : s'.translate w = s.translate w
  attributes : (s'.walk w).getLast?.map attributes = (s.walk w).getLast?.map attributes

theorem EndsWith.translate {s : Paging} {x : Nat × PageEntry} (h : EndsWith (s.walk w) x)
    (readable : Right.read.allows x = true) :
    s.translate w = some (physicalAddress w x) ∧ (s.walk w).getLast? = some x := by
  obtain ⟨links, walk, below⟩ := h
  have mapped : s.hasRight w .read = true := by
    rw [Paging.hasRight, walk, List.all_append, Bool.and_eq_true, List.all_eq_true]
    exact ⟨below, by simp [readable]⟩
  have last : (s.walk w).getLast? = some x := by rw [walk, List.getLast?_concat]
  rw [Paging.translate, if_pos mapped, last]
  exact ⟨rfl, rfl⟩

/-- The mapping of a large page outlives its split, except that 4 KiB pieces of a page with
the PAT bit set are moved up by one page and lose the attribute. -/
theorem split_keeps_mapping_iff {s s' : Paging} {level : Nat} {e : PageEntry}
    (fresh : FreshPages a s.allocations s.nodes) (met : (level, e) ∈ s.walk virt)
    (large : LargePage level e) (inside : pageNumber level w = pageNumber level virt)
    (outside : pageNumber 0 w ≠ pageNumber 0 virt)
    (returned : remapPage a virt phys prot s = some (efiSuccess, s')) :
    MappingKept s s' w ↔ e.getLsbD 12 = false ∨ pageNumber 1 w ≠ pageNumber 1 virt := by
  obtain ⟨l, rfl⟩ : ∃ l, level = l + 1 := by
    rcases large.height with rfl | rfl
    · exact ⟨0, rfl⟩
    · exact ⟨1, rfl⟩
  have done := remapPage_done fresh returned
  have shared : ∀ k, l + 1 ≤ k → ptIndex w k = ptIndex virt k := fun k ge =>
    ptIndex_of_pageNumber inside ge
  have different : ∃ k ≤ l, ptIndex w k ≠ ptIndex virt k := by
    have indices := mt (pageNumber_eq_iff (Nat.zero_le _) inside).mpr outside
    simp only [not_forall] at indices
    obtain ⟨k, -, lt, apart⟩ := indices
    exact ⟨k, Nat.le_of_lt_succ lt, apart⟩
  have before : EndsWith (s.walk w) (l + 1, e) := by
    obtain ⟨links, way, tables⟩ := RadixTree.path_to_end (large.no_child _) met
    refine ⟨links, way _ fun k ge _ => shared k ge, fun x member => ?_⟩
    rw [allows_of_table (tables x member)]
    rfl
  have after : EndsWith (s'.walk w) (splitLeaf virt w l e) := by
    obtain ⟨s₁, s₂, tables, allocations, remaps, tables', -⟩ := done.levels
    rw [Paging.walk, ← tables] at met
    rw [Paging.nodes, ← tables, ← allocations] at fresh
    have below := remaps.splitBelow fresh subset_rfl met large
    rw [done.walk_eq, tables']
    exact below.walk w (fun k ge _ => shared k ge) different
  obtain ⟨address, leaf⟩ := before.translate large.readable
  obtain ⟨address', leaf'⟩ := after.translate (splitLeaf_readable virt w large)
  have kept := large.split_kept_iff virt w
  have region : (splitLeaf virt w l e).1 ≠ 0 ↔ pageNumber 1 w ≠ pageNumber 1 virt := by
    rw [ne_eq, ne_eq, splitLeaf_level_eq_zero, pageNumber_eq_iff (Nat.le_add_left 1 l) inside]
    simp only [Nat.lt_succ_iff]
  rw [region] at kept
  rw [← kept]
  constructor
  · rintro ⟨same, attributes⟩
    rw [address, address'] at same
    rw [leaf, leaf'] at attributes
    exact ⟨Option.some.inj same, Option.some.inj attributes⟩
  · rintro ⟨same, attributes⟩
    constructor
    · rw [address, address', same]
    · rw [leaf, leaf', Option.map_some, Option.map_some, attributes]

theorem large_page_of_bits {level : Nat} {e : PageEntry}
    (flags : e.getLsbD 0 = true ∧ e.getLsbD 7 = true) (height : level = 1 ∨ level = 2)
    (reserved : ∀ n : Fin 64, 13 ≤ n.val → n.val < 12 + 9 * level → e.getLsbD n = false) :
    LargePage level e where
  present := flags.1
  size := flags.2
  height := height
  reserved n above under := reserved ⟨n, by omega⟩ above under

theorem two_mib_page_split :
    ∃ s', remapPage eightPages 0x40005000#64 0x40005000#64 3#32 (twoRegions 0x3003#64) =
        some (efiSuccess, s') ∧
      (MappingKept (twoRegions 0x3003#64) s' 0x40006000#64 ↔
        (0x400000e3#64).getLsbD 12 = false ∨
          pageNumber 1 0x40006000#64 ≠ pageNumber 1 0x40005000#64) := by
  have ok : (remapPage eightPages 0x40005000#64 0x40005000#64 3#32 (twoRegions 0x3003#64)).map
      (·.1) = some efiSuccess := by decide +kernel
  obtain ⟨⟨_, s'⟩, returned, rfl⟩ := Option.map_eq_some_iff.mp ok
  have large : LargePage 1 0x400000e3#64 := large_page_of_bits (by decide) (.inl rfl) (by decide)
  exact ⟨s', returned, split_keeps_mapping_iff (twoRegions.fresh (by decide)) (by decide +kernel)
    large (by decide) (by decide) returned⟩

/-- The second region with PAT in its first large page. -/
def patRegion : Paging := (twoRegions 0x3003#64).setEntry 0x3000#64 0 0x400010e3#64

theorem patRegion_fresh : FreshPages eightPages patRegion.allocations patRegion.nodes := by
  have children : ∀ d x j, hardwareChild d (patRegion.tables x j) =
      hardwareChild d ((twoRegions 0x3003#64).tables x j) := by
    intro d x j
    by_cases here : x = 0x3000#64 ∧ j = 0
    · obtain ⟨rfl, rfl⟩ := here
      cases d with
      | zero => rfl
      | succ d => exact (by decide : hardwareChild 1 0x400010e3#64 = hardwareChild 1 0x400000e3#64)
    · have kept : patRegion.tables x j = (twoRegions 0x3003#64).tables x j := by
        simp only [patRegion, Paging.setEntry, Paging.setTable, Function.update_apply]
        grind
      rw [kept]
  have nodes : patRegion.nodes = (twoRegions 0x3003#64).nodes :=
    RadixTree.nodes_of_children children _ _
  rw [nodes]
  exact twoRegions.fresh (by decide)

/-- The page behind the remapped one: its PAT is gone, and its address is one page up. -/
theorem pat_becomes_address :
    FreshPages eightPages patRegion.allocations patRegion.nodes ∧
    (1, 0x400010e3#64) ∈ patRegion.walk 0x40005000#64 ∧ LargePage 1 0x400010e3#64 ∧
    pageNumber 1 0x40006000#64 = pageNumber 1 0x40005000#64 ∧
    pageNumber 0 0x40006000#64 ≠ pageNumber 0 0x40005000#64 ∧
    patRegion.translate 0x40006000#64 = some 0x40006000#64 ∧
    ∃ s', remapPage eightPages 0x40005000#64 0x40005000#64 3#32 patRegion = some (efiSuccess, s') ∧
      s'.translate 0x40006000#64 = some 0x40007000#64 ∧
      ¬ MappingKept patRegion s' 0x40006000#64 := by
  have run : (remapPage eightPages 0x40005000#64 0x40005000#64 3#32 patRegion).map
      (fun r => (r.1, r.2.translate 0x40006000#64)) = some (efiSuccess, some 0x40007000#64) := by
    decide +kernel
  have before : patRegion.translate 0x40006000#64 = some 0x40006000#64 := by decide +kernel
  obtain ⟨⟨status, s'⟩, returned, same⟩ := Option.map_eq_some_iff.mp run
  obtain ⟨rfl, moved⟩ := Prod.mk.inj same
  have large : LargePage 1 0x400010e3#64 := large_page_of_bits (by decide) (.inl rfl) (by decide)
  refine ⟨patRegion_fresh, by decide +kernel, large, by decide, by decide, before, s', returned,
    moved, fun kept => ?_⟩
  have address := kept.address
  rw [moved, before] at address
  exact absurd address (by decide)

end PmcBruteforce
