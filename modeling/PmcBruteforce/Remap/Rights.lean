import PmcBruteforce.Remap.Tree

/-! What a successful call maps: the address, and the rights of the walk as a whole. -/
namespace PmcBruteforce

open Library

def isTable (x : Nat × PageEntry) : Bool := (hardwareChild x.1 x.2).isSome

def patch (prot : BitVec 32) (x : Nat × PageEntry) : Nat × PageEntry := (x.1, patchedEntry prot x.2)

/-- The walk of the page itself: the tables it went through with their entries patched, what
was linked in, and the entry that was asked for. -/
def OwnWalk (phys : BitVec 64) (prot : BitVec 32) (old new : List (Nat × PageEntry)) : Prop :=
  ∃ links : List (Nat × PageEntry),
    new = (old.filter isTable).map (patch prot) ++ links ++ [(0, phys ||| pteProt prot)] ∧
    ∀ x ∈ links, ∀ r : Right, r.allows x = true

theorem Remaps.own_path {a : PageAllocator} {virt phys : BitVec 64} {prot : BitVec 32}
    {level : Nat} {table : BitVec 64} {s s' : Paging}
    (h : Remaps a virt phys prot level table s s')
    (shaped : RadixTree.TreeShaped hardwareChild s.tables level table)
    (unused : FreshPages a s.allocations (RadixTree.nodes hardwareChild s.tables level table)) :
    OwnWalk phys prot (RadixTree.path hardwareChild s.tables level table (ptIndex virt))
      (RadixTree.path hardwareChild s'.tables level table (ptIndex virt)) := by
  refine Remaps.induct (motive := fun level table s s' =>
    OwnWalk phys prot (RadixTree.path hardwareChild s.tables level table (ptIndex virt))
      (RadixTree.path hardwareChild s'.tables level table (ptIndex virt)))
    ?leaf ?table ?fresh h shaped unused
  case leaf =>
    intro table s
    refine ⟨[], ?_, fun x member => absurd member List.not_mem_nil⟩
    simp [RadixTree.path, isTable, hardwareChild, Paging.setEntry, Paging.setTable]
  case table =>
    rintro level table sub s s' child same done ⟨links, path, granted⟩
    refine ⟨links, ?_, granted⟩
    rw [RadixTree.path_congr same] at path
    rw [done.path_shared rfl, path_of_table child, path, patched_entry]
    have first : isTable (level + 1, s.tables table (ptIndex virt (level + 1))) = true := by
      rw [isTable, child]; rfl
    rw [List.filter_cons_of_pos first]
    rfl
  case fresh =>
    rintro level table page s s' noTable address different done ⟨links, path, granted⟩
    refine ⟨(level + 1, freshEntry page) :: links, ?_, ?_⟩
    · rw [path_of_no_table (linked_child _ _ _ different _)] at path
      rw [done.path_shared rfl, path_of_no_table noTable, path, linked_here _ different,
        Function.update_self]
      have old : isTable (level + 1, s.tables table (ptIndex virt (level + 1))) = false := by
        rw [isTable, noTable]; rfl
      have new : isTable (level, (s.linked level page table
          (ptIndex virt (level + 1))).tables page (ptIndex virt level)) = false := by
        rw [isTable, linked_child _ _ _ different]; rfl
      simp [old, new]
    · intro x member r
      rcases List.mem_cons.mp member with rfl | later
      · exact freshEntry_allows r _ address
      · exact granted x later r

theorem RemapDone.own_walk {a : PageAllocator} {virt phys : BitVec 64} {prot : BitVec 32}
    {s s' : Paging} (h : RemapDone a virt phys prot s s') (shaped : s.TreeShaped)
    (fresh : FreshPages a s.allocations s.nodes) :
    OwnWalk phys prot (s.walk virt) (s'.walk virt) := by
  obtain ⟨s₁, s₂, tables, allocations, remaps, tables', -⟩ := h.levels
  rw [Paging.TreeShaped, ← tables] at shaped
  rw [Paging.nodes, ← tables, ← allocations] at fresh
  rw [h.walk_eq, Paging.walk, tables', ← tables]
  exact remaps.own_path shaped fresh

def Right.afterPatch (r : Right) (prot : BitVec 32) (e : PageEntry) : Bool :=
  match r with
  | .read => true
  | .write => e.getLsbD 1 || asks prot protWrite
  | .user => e.getLsbD 2 || asks prot protUser
  | .execute => !(e.getLsbD 63 && decide (Suffices prot e))

theorem allows_patch {x : Nat × PageEntry} (table : isTable x = true) (r : Right)
    (prot : BitVec 32) : r.allows (patch prot x) = r.afterPatch prot x.2 := by
  obtain ⟨level, e⟩ := x
  cases level with
  | zero => exact absurd table (by simp [isTable, hardwareChild])
  | succ level =>
    obtain ⟨sub, child⟩ := Option.isSome_iff_exists.mp table
    obtain ⟨present, size, -⟩ := hardwareChild_eq_some.mp child
    have present' : (patchedEntry prot e).getLsbD 0 = true := by
      rw [patchedEntry_other present (by omega), present]
    have size' : (patchedEntry prot e).getLsbD 7 = false := by
      rw [patchedEntry_other present (by omega), size]
    have granted : r.inEntry (patchedEntry prot e) = r.afterPatch prot e := by
      cases r with
      | read => rfl
      | write => exact (has_writable _).trans (patchedEntry_write present)
      | user => exact (has_user _).trans (patchedEntry_user present)
      | execute =>
        rw [Right.inEntry, has_no_execute, patchedEntry_no_execute present, Right.afterPatch]
    simp only [patch, Right.allows, has_present, has_size, present', size', granted, Bool.and_false,
      Bool.not_false, Bool.true_and, Bool.and_true]

def Right.asked (r : Right) (prot : BitVec 32) : Bool :=
  match r with
  | .read => true
  | .write => asks prot protWrite
  | .user => asks prot protUser
  | .execute => asks prot protExec

theorem allows_leaf {phys : BitVec 64} (aligned : PageAddress phys) (r : Right)
    (prot : BitVec 32) : r.allows (0, phys ||| pteProt prot) = r.asked prot := by
  have bits : ∀ n, n < 12 ∨ 52 ≤ n →
      (phys ||| pteProt prot).getLsbD n = (pteProt prot).getLsbD n := by
    intro n outside
    rw [BitVec.getLsbD_or, aligned.bit_clear outside, Bool.false_or]
  have granted : r.inEntry (phys ||| pteProt prot) = r.asked prot := by
    cases r with
    | read => rfl
    | write => rw [Right.inEntry, has_writable, bits 1 (by omega), getLsbD_pteProt]; simp [Right.asked]
    | user => rw [Right.inEntry, has_user, bits 2 (by omega), getLsbD_pteProt]; simp [Right.asked]
    | execute =>
      rw [Right.inEntry, has_no_execute, bits 63 (by omega), getLsbD_pteProt]; simp [Right.asked]
  rw [Right.allows, has_present, bits 0 (by omega), getLsbD_pteProt, granted]
  simp

theorem RemapDone.own_rights {a : PageAllocator} {virt phys : BitVec 64} {prot : BitVec 32}
    {s s' : Paging} (h : RemapDone a virt phys prot s s') (shaped : s.TreeShaped)
    (fresh : FreshPages a s.allocations s.nodes) (aligned : PageAddress phys) (r : Right) :
    s'.hasRight virt r = true ↔
      r.asked prot = true ∧ ∀ x ∈ s.walk virt, isTable x = true → r.afterPatch prot x.2 = true := by
  obtain ⟨links, walk, granted⟩ := h.own_walk shaped fresh
  rw [Paging.hasRight, walk, List.all_append, List.all_append, List.all_map]
  simp only [Bool.and_eq_true, List.all_eq_true, List.mem_filter, Function.comp_apply,
    List.mem_singleton, forall_eq, allows_leaf aligned]
  constructor
  · rintro ⟨⟨tables, -⟩, asked⟩
    refine ⟨asked, fun x member table => ?_⟩
    rw [← allows_patch table]
    exact tables x ⟨member, table⟩
  · rintro ⟨asked, tables⟩
    refine ⟨⟨fun x member => ?_, fun x member => granted x member r⟩, asked⟩
    rw [allows_patch member.2]
    exact tables x member.1 member.2

theorem physicalAddress_leaf {phys : BitVec 64} (aligned : PageAddress phys) (virt : BitVec 64)
    (prot : BitVec 32) :
    physicalAddress virt (0, phys ||| pteProt prot) = phys ||| virt &&& 0xfff#64 := by
  have offset : BitVec.twoPow 64 (12 + 9 * 0) - 1 = 0xfff#64 := by decide
  have below : ∀ n : Fin 64, (0xfff#64 : BitVec 64).getLsbD n = decide (n.val < 12) := by decide
  have address : (phys ||| pteProt prot) &&& addressMask &&& ~~~0xfff#64 = phys := by
    apply BitVec.eq_of_getLsbD_eq
    intro n inside
    rw [BitVec.getLsbD_and, BitVec.getLsbD_and, BitVec.getLsbD_not, BitVec.getLsbD_or,
      getLsbD_addressMask, below ⟨n, inside⟩, getLsbD_pteProt, aligned.getLsbD]
    grind
  simp only [physicalAddress, offset, address]

structure MapsAsAsked (s : Paging) (virt phys : BitVec 64) (prot : BitVec 32) : Prop where
  address : s.translate virt = some (phys ||| virt &&& 0xfff#64)
  writable : s.hasRight virt .write = true ↔ asks prot protWrite = true
  userAccessible : s.hasRight virt .user = true ↔ asks prot protUser = true
  executable : s.hasRight virt .execute = true ↔ asks prot protExec = true

/-- Execution is asked for, and a table on the way forbids it while it grants what else is
asked for: the mask comparison does not see its NX. -/
def KeepsNoExecute (s : Paging) (virt : BitVec 64) (prot : BitVec 32) : Prop :=
  asks prot protExec = true ∧ ∃ x ∈ s.walk virt, isTable x = true ∧
    has x.2 pageNoExecute = true ∧
    (asks prot protWrite = true → has x.2 pageWritable = true) ∧
    (asks prot protUser = true → has x.2 pageUser = true)

theorem RemapDone.address {a : PageAllocator} {virt phys : BitVec 64} {prot : BitVec 32}
    {s s' : Paging} (h : RemapDone a virt phys prot s s') (shaped : s.TreeShaped)
    (fresh : FreshPages a s.allocations s.nodes) (aligned : PageAddress phys) :
    s'.translate virt = some (phys ||| virt &&& 0xfff#64) := by
  have mapped : s'.hasRight virt .read = true :=
    (h.own_rights shaped fresh aligned .read).mpr ⟨rfl, fun _ _ _ => rfl⟩
  obtain ⟨links, walk, -⟩ := h.own_walk shaped fresh
  rw [Paging.translate, if_pos mapped, walk, List.getLast?_concat, Option.map_some,
    physicalAddress_leaf aligned]

theorem RemapDone.executable {a : PageAllocator} {virt phys : BitVec 64} {prot : BitVec 32}
    {s s' : Paging} (h : RemapDone a virt phys prot s s') (shaped : s.TreeShaped)
    (fresh : FreshPages a s.allocations s.nodes) (aligned : PageAddress phys) :
    s'.hasRight virt .execute = true ↔ asks prot protExec = true ∧ ¬ KeepsNoExecute s virt prot := by
  rw [h.own_rights shaped fresh aligned, Right.asked]
  refine and_congr_right fun asked => ?_
  have hidden : ∀ e : PageEntry, Right.afterPatch .execute prot e = true ↔
      ¬ (has e pageNoExecute = true ∧ (asks prot protWrite = true → has e pageWritable = true) ∧
        (asks prot protUser = true → has e pageUser = true)) := by
    intro e
    have enough : Suffices prot e ↔ (asks prot protWrite = true → e.getLsbD 1 = true) ∧
        (asks prot protUser = true → e.getLsbD 2 = true) := by
      rw [Suffices, asked]
      exact ⟨fun h => ⟨h.1, h.2.1⟩, fun h => ⟨h.1, h.2, fun never => absurd never (by decide)⟩⟩
    rw [Right.afterPatch, Bool.not_eq_true', ← Bool.not_eq_true, Bool.and_eq_true, decide_eq_true_eq,
      enough, has_no_execute, has_writable, has_user]
  simp only [KeepsNoExecute, asked, true_and, not_exists, not_and, hidden]

/-- A four-level paging. The first GiB, where the tables are, is one large page. The
second has a table of its own, which `link` leads to, with two large pages in it. -/
def twoRegions (link : PageEntry) : Paging where
  cr0 := 0x80010033#64
  cr3 := 0x1000#64
  cr4 := 0x668#64
  tables := fun table i =>
    if table = 0x1000#64 then if i = 0 then 0x2007#64 else 0#64
    else if table = 0x2000#64 then if i = 0 then 0xe3#64 else if i = 1 then link else 0#64
    else if table = 0x3000#64 then
      if i = 0 then 0x400000e3#64 else if i = 1 then 0x402000e7#64 else 0#64
    else 0#64
  allocations := 0

def eightPages : PageAllocator where
  status := fun n => if n < 8 then efiSuccess else 0x8000000000000009
  page := fun n => BitVec.ofNat 64 (0x100000 + 0x1000 * n)

namespace twoRegions

variable {link : PageEntry}

theorem registers (link : PageEntry) :
    (twoRegions link).topLevel = 3 ∧ (twoRegions link).root = 0x1000#64 :=
  ⟨(by decide : (if has 0x668#64 cr4La57 then 4 else 3) = 3),
    (by decide : 0x1000#64 &&& addressMask = 0x1000#64)⟩

theorem last_child (link : PageEntry) (j : Fin 512) :
    hardwareChild 1 ((twoRegions link).tables 0x3000#64 j) = none := by
  have entries : (twoRegions link).tables 0x3000#64 j =
      if j = 0 then 0x400000e3#64 else if j = 1 then 0x402000e7#64 else 0#64 := rfl
  rw [entries]
  split
  · decide
  · split <;> decide

theorem inner_child (child : hardwareChild 2 link = some 0x3000#64) (j : Fin 512) (c : BitVec 64)
    (step : hardwareChild 2 ((twoRegions link).tables 0x2000#64 j) = some c) :
    j = 1 ∧ c = 0x3000#64 := by
  have entries : (twoRegions link).tables 0x2000#64 j =
      if j = 0 then 0xe3#64 else if j = 1 then link else 0#64 := rfl
  rw [entries] at step
  split at step
  · have large : hardwareChild 2 0xe3#64 = none := by decide
    exact absurd step (by simp [large])
  · split at step
    · rw [child] at step
      exact ⟨‹_›, (Option.some.inj step).symm⟩
    · exact absurd step (by simp [hardwareChild])

theorem root_child (link : PageEntry) (j : Fin 512) (c : BitVec 64)
    (step : hardwareChild 3 ((twoRegions link).tables 0x1000#64 j) = some c) :
    j = 0 ∧ c = 0x2000#64 := by
  have entries : (twoRegions link).tables 0x1000#64 j =
      if j = 0 then 0x2007#64 else 0#64 := rfl
  rw [entries] at step
  split at step
  · have child : hardwareChild 3 0x2007#64 = some 0x2000#64 := by decide
    rw [child] at step
    exact ⟨‹_›, (Option.some.inj step).symm⟩
  · exact absurd step (by simp [hardwareChild])

theorem nodes_inner (child : hardwareChild 2 link = some 0x3000#64) :
    RadixTree.nodes hardwareChild (twoRegions link).tables 2 0x2000#64 ⊆
      {x | x = 0x2000#64 ∨ x = 0x3000#64} := by
  have last := (nodes_of_no_child (last_child link)).1
  intro x member
  rcases RadixTree.nodes_single (inner_child child) member with root | below
  · exact .inl root
  · rw [last] at below
    exact .inr below

theorem nodes_subset (child : hardwareChild 2 link = some 0x3000#64) :
    (twoRegions link).nodes ⊆ {x | x = 0x1000#64 ∨ x = 0x2000#64 ∨ x = 0x3000#64} := by
  rw [Paging.nodes, (registers link).1, (registers link).2]
  intro x member
  exact (RadixTree.nodes_single (root_child link) member).imp_right fun below =>
    nodes_inner child below

theorem treeShaped (child : hardwareChild 2 link = some 0x3000#64) :
    (twoRegions link).TreeShaped := by
  obtain ⟨last, shaped⟩ := nodes_of_no_child (last_child link)
  rw [Paging.TreeShaped, (registers link).1, (registers link).2]
  refine RadixTree.treeShaped_single (root_child link)
    (RadixTree.treeShaped_single (inner_child child) shaped ?_) fun member => ?_
  · rw [last]
    decide
  · rcases nodes_inner child member with same | same <;> exact absurd same (by decide)

/-- A property of its entries is one of the tree. -/
theorem allEntries (child : hardwareChild 2 link = some 0x3000#64) {P : Nat → PageEntry → Prop}
    (empty : ∀ level, P level 0#64) (root : P 3 0x2007#64) (first : P 2 0xe3#64) (second : P 2 link)
    (pages : P 1 0x400000e3#64 ∧ P 1 0x402000e7#64) :
    RadixTree.AllEntries hardwareChild P (twoRegions link).tables (twoRegions link).topLevel
      (twoRegions link).root := by
  have last : ∀ j, P 1 ((twoRegions link).tables 0x3000#64 j) := by
    intro j
    have entries : (twoRegions link).tables 0x3000#64 j =
        if j = 0 then 0x400000e3#64 else if j = 1 then 0x402000e7#64 else 0#64 := rfl
    rw [entries]
    split
    · exact pages.1
    · split
      · exact pages.2
      · exact empty 1
  have inner : ∀ j, P 2 ((twoRegions link).tables 0x2000#64 j) := by
    intro j
    have entries : (twoRegions link).tables 0x2000#64 j =
        if j = 0 then 0xe3#64 else if j = 1 then link else 0#64 := rfl
    rw [entries]
    split
    · exact first
    · split
      · exact second
      · exact empty 2
  have outer : ∀ j, P 3 ((twoRegions link).tables 0x1000#64 j) := by
    intro j
    have entries : (twoRegions link).tables 0x1000#64 j = if j = 0 then 0x2007#64 else 0#64 := rfl
    rw [entries]
    split
    · exact root
    · exact empty 3
  rw [(registers link).1, (registers link).2]
  refine fun j => ⟨outer j, fun c step => ?_⟩
  obtain ⟨-, rfl⟩ := root_child link j c step
  refine fun j => ⟨inner j, fun c step => ?_⟩
  obtain ⟨-, rfl⟩ := inner_child child j c step
  exact allEntries_of_no_child (last_child link) last

theorem wellFormed (child : hardwareChild 2 link = some 0x3000#64) :
    (twoRegions link).WellFormed := by
  refine ⟨treeShaped child, allEntries child ?_ ?_ ?_ (properEntry_of_child child) ?_⟩
  · exact fun level present => by simp at present
  · decide
  · decide
  · decide

theorem fresh (child : hardwareChild 2 link = some 0x3000#64) :
    FreshPages eightPages (twoRegions link).allocations (twoRegions link).nodes := by
  have small : ∀ k, eightPages.status k = efiSuccess → k < 8 := by
    intro k ok
    by_contra large
    have failed : eightPages.status k = 0x8000000000000009 := if_neg large
    rw [failed] at ok
    exact absurd ok (by decide)
  refine ⟨fun k _ ok => ?_, fun k _ ok member => ?_, fun k _ l later ok ok' => ?_⟩
  · have all : ∀ n < 8, PageAddress (eightPages.page n) := by decide +kernel
    exact all k (small k ok)
  · have all : ∀ n < 8, ¬ (eightPages.page n = 0x1000#64 ∨ eightPages.page n = 0x2000#64 ∨
        eightPages.page n = 0x3000#64) := by decide +kernel
    exact all k (small k ok) (nodes_subset child member)
  · have all : ∀ m < 8, ∀ n < m, eightPages.page n ≠ eightPages.page m := by decide +kernel
    exact all l (small l ok') k later

end twoRegions

/-- Remapping grants what it is asked for exactly when no table on the way keeps an NX that
the mask comparison does not look at. -/
theorem remapped_as_asked_iff {a : PageAllocator} {virt phys : BitVec 64} {prot : BitVec 32}
    {s s' : Paging} (shaped : s.TreeShaped) (fresh : FreshPages a s.allocations s.nodes)
    (aligned : PageAddress phys)
    (returned : remapPage a virt phys prot s = some (efiSuccess, s')) :
    MapsAsAsked s' virt phys prot ↔ ¬ KeepsNoExecute s virt prot := by
  have done := remapPage_done fresh returned
  have executable := done.executable shaped fresh aligned
  constructor
  · intro maps keeps
    exact (executable.mp (maps.executable.mpr keeps.1)).2 keeps
  · intro clear
    refine ⟨done.address shaped fresh aligned, ?_, ?_, ?_⟩
    · rw [done.own_rights shaped fresh aligned]
      exact ⟨fun h => h.1, fun asked => ⟨asked, fun x _ _ => by
        rw [Right.afterPatch, asked, Bool.or_true]⟩⟩
    · rw [done.own_rights shaped fresh aligned]
      exact ⟨fun h => h.1, fun asked => ⟨asked, fun x _ _ => by
        rw [Right.afterPatch, asked, Bool.or_true]⟩⟩
    · rw [executable]
      exact and_iff_left clear

theorem writable_page_remapped :
    ∃ s', remapPage eightPages 0x40005000#64 0x40005000#64 3#32 (twoRegions 0x3003#64) =
        some (efiSuccess, s') ∧
      MapsAsAsked s' 0x40005000#64 0x40005000#64 3#32 := by
  have ok : (remapPage eightPages 0x40005000#64 0x40005000#64 3#32 (twoRegions 0x3003#64)).map
      (·.1) = some efiSuccess := by decide +kernel
  obtain ⟨⟨_, s'⟩, returned, rfl⟩ := Option.map_eq_some_iff.mp ok
  exact ⟨s', returned, (remapped_as_asked_iff (twoRegions.treeShaped (by decide))
    (twoRegions.fresh (by decide)) (by decide) returned).mpr fun keeps => absurd keeps.1 (by decide)⟩

/-- The second call of `efi_main`, with NX in the entry above the region: the page cannot
be executed. -/
theorem no_execute_kept :
    (twoRegions 0x8000000000003007#64).TreeShaped ∧
    FreshPages eightPages (twoRegions 0x8000000000003007#64).allocations
      (twoRegions 0x8000000000003007#64).nodes ∧
    PageAddress 0x40005000#64 ∧
    ∃ s', remapPage eightPages 0x40006000#64 0x40005000#64 13#32
        (twoRegions 0x8000000000003007#64) = some (efiSuccess, s') ∧
      ¬ MapsAsAsked s' 0x40006000#64 0x40005000#64 13#32 := by
  have run : (remapPage eightPages 0x40006000#64 0x40005000#64 13#32
      (twoRegions 0x8000000000003007#64)).map
      (fun r => (r.1, r.2.hasRight 0x40006000#64 .execute)) = some (efiSuccess, false) := by
    decide +kernel
  obtain ⟨⟨status, s'⟩, returned, same⟩ := Option.map_eq_some_iff.mp run
  obtain ⟨rfl, denied⟩ := Prod.mk.inj same
  refine ⟨twoRegions.treeShaped (by decide), twoRegions.fresh (by decide), by decide, s', returned,
    fun maps => ?_⟩
  have granted := maps.executable.mpr (by decide)
  rw [denied] at granted
  exact Bool.false_ne_true granted

end PmcBruteforce
