import PmcBruteforce.Remap.Others

/-! What the two calls of `efi_main` make of an address space that belongs to the firmware: the
user gets one page, which it can read and execute, and the kernel writes that page through
the other address of it. -/
namespace PmcBruteforce

open Library

/-- Two addresses lie in one 4 KiB page of the address space. -/
def Paging.SamePage (s : Paging) (w virt : BitVec 64) : Prop :=
  ∀ l ≤ s.topLevel, ptIndex w l = ptIndex virt l

/-- An entry as the firmware leaves it: no page is the user's, and above the address of a table
no bit is set, NX among them. -/
def FirmwareEntry (level : Nat) (e : PageEntry) : Prop :=
  match hardwareChild level e with
  | none => Right.user.allows (level, e) = false
  | some _ => ∀ n, 52 ≤ n → e.getLsbD n = false

theorem firmwareEntry_of_none {level : Nat} {e : PageEntry} (none_ : hardwareChild level e = none) :
    FirmwareEntry level e ↔ Right.user.allows (level, e) = false := by
  simp only [FirmwareEntry, none_]

theorem firmwareEntry_of_some {level : Nat} {e : PageEntry} {sub : BitVec 64}
    (child : hardwareChild level e = some sub) :
    FirmwareEntry level e ↔ ∀ n, 52 ≤ n → e.getLsbD n = false := by
  simp only [FirmwareEntry, child]

structure Paging.OfFirmware (s : Paging) : Prop where
  root : s.cr3.toNat < 2 ^ 52
  entries : RadixTree.AllEntries hardwareChild FirmwareEntry s.tables s.topLevel s.root

theorem LevelDone.allEntries {P : Nat → PageEntry → Prop} {level : Nat} {table sub : BitVec 64}
    {i : Fin 512} {s s₁ s' : Paging} (done : LevelDone level table i sub s s₁ s')
    (old : RadixTree.AllEntries hardwareChild P s.tables (level + 1) table)
    (entry : P (level + 1) (s₁.tables table i))
    (under : RadixTree.AllEntries hardwareChild P s'.tables level sub) :
    RadixTree.AllEntries hardwareChild P s'.tables (level + 1) table := by
  apply done.updated.allEntries old
  · rw [done.entry]
    exact entry
  · intro c step
    rw [done.child] at step
    rwa [← Option.some.inj step]

/-- The pieces of a page of the supervisor are the supervisor's. -/
theorem firmware_pieces {s : Paging} {level : Nat} {page table : BitVec 64} {i : Fin 512}
    (noTable : hardwareChild (level + 1) (s.tables table i) = none) (apart : table ≠ page)
    (proper : ProperEntry (level + 1) (s.tables table i))
    (firmware : FirmwareEntry (level + 1) (s.tables table i)) (j : Fin 512) :
    FirmwareEntry level ((s.linked level page table i).tables page j) := by
  rw [linked_table _ apart, firmwareEntry_of_none (hardwareChild_freshTable j),
    freshTable_allows proper noTable .user j]
  exact (firmwareEntry_of_none noTable).mp firmware

theorem proper_pieces {s : Paging} {level : Nat} {page table : BitVec 64} {i : Fin 512}
    (noTable : hardwareChild (level + 1) (s.tables table i) = none) (apart : table ≠ page)
    (proper : ProperEntry (level + 1) (s.tables table i)) (j : Fin 512) :
    ProperEntry level ((s.linked level page table i).tables page j) := by
  rw [linked_table _ apart]
  exact properEntry_freshTable proper noTable j

/-- A call that does not ask for user access leaves the pages to the supervisor. -/
theorem Remaps.of_firmware {a : PageAllocator} {virt phys : BitVec 64} {prot : BitVec 32}
    (aligned : PageAddress phys) (supervisor : asks prot protUser = false)
    {level : Nat} {table : BitVec 64} {s s' : Paging}
    (h : Remaps a virt phys prot level table s s')
    (shaped : RadixTree.TreeShaped hardwareChild s.tables level table)
    (unused : FreshPages a s.allocations (RadixTree.nodes hardwareChild s.tables level table))
    (proper : RadixTree.AllEntries hardwareChild ProperEntry s.tables level table)
    (firmware : RadixTree.AllEntries hardwareChild FirmwareEntry s.tables level table) :
    RadixTree.AllEntries hardwareChild FirmwareEntry s'.tables level table := by
  refine Remaps.induct (motive := fun level table s s' =>
    RadixTree.AllEntries hardwareChild ProperEntry s.tables level table →
    RadixTree.AllEntries hardwareChild FirmwareEntry s.tables level table →
    RadixTree.AllEntries hardwareChild FirmwareEntry s'.tables level table)
    ?leaf ?table ?fresh h shaped unused proper firmware
  case leaf =>
    intro table s _ firmware j
    by_cases here : j = ptIndex virt 0
    · rw [here, Paging.setEntry, Paging.setTable]
      simp only [Function.update_self]
      exact (firmwareEntry_of_none rfl).mpr ((allows_leaf aligned .user prot).trans supervisor)
    · simp only [Paging.setEntry, Paging.setTable, Function.update_self, Function.update_of_ne here]
      exact firmware j
  case table =>
    intro level table sub s s' child same done ih proper firmware
    have present := (hardwareChild_eq_some.mp child).1
    have clear := (firmwareEntry_of_some child).mp (firmware _).1
    apply done.allEntries firmware
    · rw [patched_entry, firmwareEntry_of_some ((hardwareChild_patchedEntry present).trans child)]
      intro n high
      by_cases noExecute : n = 63
      · rw [noExecute, patchedEntry_no_execute present, clear 63 (by omega), Bool.false_and]
      · rw [patchedEntry_other present (by omega), clear n high]
    · exact ih (.congr same ((proper _).2 sub child)) (.congr same ((firmware _).2 sub child))
  case fresh =>
    intro level table page s s' noTable address apart done ih proper firmware
    have noChild := linked_child s level (ptIndex virt (level + 1)) apart
    apply done.allEntries firmware
    · rw [linked_here _ apart, Function.update_self,
        firmwareEntry_of_some (hardwareChild_freshEntry address)]
      intro n high
      rw [getLsbD_freshEntry, address.bit_clear (.inr high), Bool.false_or]
      exact decide_eq_false (by omega)
    · exact ih (allEntries_of_no_child noChild (proper_pieces noTable apart (proper _).1))
        (allEntries_of_no_child noChild (firmware_pieces noTable apart (proper _).1 (firmware _).1))

/-- A walk that splits nothing keeps its entries, but for the patches of the tables it shares. -/
theorem Remaps.other_path {a : PageAllocator} {virt phys : BitVec 64} {prot : BitVec 32}
    {level : Nat} {table : BitVec 64} {s s' : Paging}
    (h : Remaps a virt phys prot level table s s')
    (shaped : RadixTree.TreeShaped hardwareChild s.tables level table)
    (unused : FreshPages a s.allocations (RadixTree.nodes hardwareChild s.tables level table))
    {w : BitVec 64} (different : ∃ l ≤ level, ptIndex w l ≠ ptIndex virt l)
    (small : ∀ x ∈ RadixTree.path hardwareChild s.tables level table (ptIndex w),
      isTable x = false → x.1 = 0) :
    RadixTree.path hardwareChild s'.tables level table (ptIndex w) =
      (RadixTree.path hardwareChild s.tables level table (ptIndex w)).map
        (patchShared prot level virt w) := by
  refine Remaps.induct (motive := fun level table s s' =>
    (∃ l ≤ level, ptIndex w l ≠ ptIndex virt l) →
    (∀ x ∈ RadixTree.path hardwareChild s.tables level table (ptIndex w),
      isTable x = false → x.1 = 0) →
    RadixTree.path hardwareChild s'.tables level table (ptIndex w) =
      (RadixTree.path hardwareChild s.tables level table (ptIndex w)).map
        (patchShared prot level virt w)) ?leaf ?table ?fresh h shaped unused different small
  case leaf =>
    rintro table s ⟨l, le, different⟩ -
    obtain rfl := Nat.le_zero.mp le
    rw [map_patchShared_of_ne different (RadixTree.path_level_le _ _ _ _)]
    simp only [RadixTree.path, Paging.setEntry, Paging.setTable, Function.update_self,
      Function.update_of_ne different]
  case table =>
    intro level table sub s s' child same done ih different small
    by_cases shared : ptIndex w (level + 1) = ptIndex virt (level + 1)
    · have child' := child
      rw [← shared] at child'
      have walk := path_of_table child'
      have first : patchShared prot (level + 1) virt w
          (level + 1, s.tables table (ptIndex w (level + 1))) =
          (level + 1, patchedEntry prot (s.tables table (ptIndex w (level + 1)))) := by
        apply if_pos
        refine ⟨by rw [isTable, child']; rfl, fun l le ge => ?_⟩
        rw [Nat.le_antisymm le ge]
        exact shared
      have below := ih (different_below shared different) (by
        rw [RadixTree.path_congr same]
        intro x member
        exact small x (by rw [walk]; exact List.mem_cons_of_mem _ member))
      rw [RadixTree.path_congr same] at below
      rw [done.path_shared shared, walk, below, patched_entry, List.map_cons, first, shared,
        funext (patchShared_succ shared)]
    · rw [map_patchShared_of_ne shared (RadixTree.path_level_le _ _ _ _),
        done.updated.path_eq _ shared]
  case fresh =>
    intro level table page s s' noTable _ _ done _ _ small
    by_cases shared : ptIndex w (level + 1) = ptIndex virt (level + 1)
    · rw [← shared] at noTable
      have only := path_of_no_table noTable
      have zero := small (level + 1, s.tables table (ptIndex w (level + 1)))
        (by rw [only]; exact List.mem_singleton.mpr rfl) (by rw [isTable, noTable]; rfl)
      exact absurd zero (Nat.succ_ne_zero level)
    · rw [map_patchShared_of_ne shared (RadixTree.path_level_le _ _ _ _),
        done.updated.path_eq _ shared]

section

variable {a : PageAllocator} {virt phys page w : BitVec 64} {prot : BitVec 32} {s s' : Paging}

theorem RemapDone.of_firmware (h : RemapDone a virt phys prot s s') (wellFormed : s.WellFormed)
    (fresh : FreshPages a s.allocations s.nodes) (aligned : PageAddress phys)
    (supervisor : asks prot protUser = false) (firmware : s.OfFirmware) : s'.OfFirmware := by
  obtain ⟨s₁, s₂, tables, allocations, remaps, tables', -⟩ := h.levels
  have shaped := wellFormed.shaped
  have proper := wellFormed.proper
  rw [Paging.TreeShaped, ← tables] at shaped
  rw [Paging.nodes, ← tables, ← allocations] at fresh
  rw [← tables] at proper
  have entries := firmware.entries
  rw [← tables] at entries
  constructor
  · rw [h.registers.2.1]
    exact firmware.root
  · rw [h.topLevel_eq, h.root_eq, tables']
    exact remaps.of_firmware aligned supervisor shaped fresh proper entries

theorem RemapDone.other_walk (h : RemapDone a virt phys prot s s') (shaped : s.TreeShaped)
    (fresh : FreshPages a s.allocations s.nodes)
    (different : ∃ l ≤ s.topLevel, ptIndex w l ≠ ptIndex virt l)
    (small : ∀ x ∈ s.walk w, isTable x = false → x.1 = 0) :
    s'.walk w = (s.walk w).map (patchShared prot s.topLevel virt w) := by
  obtain ⟨s₁, s₂, tables, allocations, remaps, tables', -⟩ := h.levels
  rw [Paging.TreeShaped, ← tables] at shaped
  rw [Paging.nodes, ← tables, ← allocations] at fresh
  rw [Paging.walk, ← tables] at small
  have path := remaps.other_path shaped fresh different small
  rw [← tables', tables] at path
  rw [h.walk_eq, path, Paging.walk]

theorem walk_ends {x : Nat × PageEntry} (member : x ∈ s.walk w) (last : isTable x = false) :
    ∃ links, s.walk w = links ++ [x] := by
  have none_ : hardwareChild x.1 x.2 = none := by
    rw [isTable] at last
    simpa using last
  obtain ⟨links, walk, -⟩ := RadixTree.path_to_end none_ member
  exact ⟨links, walk _ fun _ _ _ => rfl⟩

theorem walk_has_end (s : Paging) (w : BitVec 64) : ∃ x ∈ s.walk w, isTable x = false := by
  rw [Paging.walk]
  generalize s.root = table
  induction s.topLevel generalizing table with
  | zero => exact ⟨_, List.mem_singleton.mpr rfl, rfl⟩
  | succ level ih =>
    cases child : hardwareChild (level + 1) (s.tables table (ptIndex w (level + 1))) with
    | none =>
      refine ⟨(level + 1, s.tables table (ptIndex w (level + 1))), ?_, ?_⟩
      · rw [RadixTree.path]
        exact List.mem_cons_self
      · rw [isTable, child]
        rfl
    | some sub =>
      obtain ⟨x, member, last⟩ := ih sub
      refine ⟨x, ?_, last⟩
      rw [path_of_table child]
      exact List.mem_cons_of_mem _ member

theorem Paging.SamePage.walk_eq (same : s.SamePage w virt) : s.walk w = s.walk virt :=
  RadixTree.path_of_indices same s.root

theorem Paging.SamePage.hasRight_eq (same : s.SamePage w virt) (r : Right) :
    s.hasRight w r = s.hasRight virt r := by
  rw [Paging.hasRight, same.walk_eq, Paging.hasRight]

/-- The own page of a call, address by address. -/
theorem RemapDone.page_address (h : RemapDone a virt phys prot s s') (shaped : s.TreeShaped)
    (fresh : FreshPages a s.allocations s.nodes) (aligned : PageAddress phys)
    (same : s.SamePage w virt) : s'.translate w = some (phys ||| w &&& 0xfff#64) := by
  have same' : s'.SamePage w virt := by
    rw [Paging.SamePage, h.topLevel_eq]
    exact same
  have mapped : s'.hasRight w .read = true := by
    rw [same'.hasRight_eq]
    exact (h.own_rights shaped fresh aligned .read).mpr ⟨rfl, fun _ _ _ => rfl⟩
  obtain ⟨links, walk, -⟩ := h.own_walk shaped fresh
  rw [Paging.translate, if_pos mapped, same'.walk_eq, walk, List.getLast?_concat,
    Option.map_some, physicalAddress_leaf aligned]

theorem accessible_nextTable {e : PageEntry} (clear : ∀ n, 52 ≤ n → e.getLsbD n = false) :
    accessible (nextTable e) = true := by
  apply decide_eq_true
  apply Nat.lt_pow_two_of_testBit
  intro n high
  have bit := getLsbD_nextTable e n
  rw [clear n high, Bool.false_and] at bit
  exact bit

theorem accessible_page {page : BitVec 64} (address : PageAddress page) :
    accessible page = true := by
  apply decide_eq_true
  rw [← address, BitVec.toNat_and]
  exact lt_of_le_of_lt Nat.and_le_right (by decide)

/-- Among tables of the firmware no pointer leads out of the physical space: a call returns. -/
theorem remapLevels_returns {a : PageAllocator} (virt phys : BitVec 64) (prot : BitVec 32)
    {level : Nat} {table : BitVec 64} {s : Paging}
    (shaped : RadixTree.TreeShaped hardwareChild s.tables level table)
    (unused : FreshPages a s.allocations (RadixTree.nodes hardwareChild s.tables level table))
    (proper : RadixTree.AllEntries hardwareChild ProperEntry s.tables level table)
    (firmware : RadixTree.AllEntries hardwareChild FirmwareEntry s.tables level table)
    (access : accessible table = true) :
    ∃ result, remapLevels a virt phys (pteProt prot) level table s = some result := by
  induction level generalizing table s with
  | zero => exact ⟨_, if_pos access⟩
  | succ level ih =>
    cases child : hardwareChild (level + 1) (s.tables table (ptIndex virt (level + 1))) with
    | some sub =>
      have entered := entered_patched a prot shaped child
      have same := patched_under prot shaped child
      have clear := (firmwareEntry_of_some child).mp (firmware _).1
      have pointer := nextTable_eq (accessible_nextTable clear)
      rw [(hardwareChild_eq_some.mp child).2.2] at pointer
      have access' := accessible_nextTable clear
      rw [pointer] at access'
      obtain ⟨result, returned⟩ := ih entered.shaped
        (unused.later entered.allocations entered.nodes) (.congr same ((proper _).2 sub child))
        (.congr same ((firmware _).2 sub child)) access'
      refine ⟨result, ?_⟩
      simp only [remapLevels, access, if_true, enterTable_of_table a child, ne_eq,
        not_true_eq_false, if_false, patchEntry_eq, pointer, returned]
    | none =>
      rcases enterTable_of_none a child with ⟨ok, opened⟩ | ⟨failed, opened⟩
      · have page := unused.address _ le_rfl ok
        have entered := entered_linked (ptIndex virt (level + 1)) unused ok
        have apart := unused.table_ne ok
        have noChild := linked_child s level (ptIndex virt (level + 1)) apart
        obtain ⟨result, returned⟩ := ih entered.shaped
          (unused.later entered.allocations entered.nodes)
          (allEntries_of_no_child noChild (proper_pieces child apart (proper _).1))
          (allEntries_of_no_child noChild (firmware_pieces child apart (proper _).1 (firmware _).1))
          (accessible_page page)
        refine ⟨result, ?_⟩
        simp only [remapLevels, access, if_true, opened, ne_eq, not_true_eq_false, if_false,
          nextTable_freshEntry page, patchEntry_freshEntry prot page, returned]
      · refine ⟨(a.status s.allocations, { s with allocations := s.allocations + 1 }), ?_⟩
        simp only [remapLevels, access, if_true, opened, ne_eq, failed, not_false_eq_true]

theorem remapPage_returns (virt phys : BitVec 64) (prot : BitVec 32) (wellFormed : s.WellFormed)
    (fresh : FreshPages a s.allocations s.nodes) (firmware : s.OfFirmware) :
    ∃ result, remapPage a virt phys prot s = some result := by
  have low : ∀ x : BitVec 64, x.toNat < 2 ^ 52 → x &&& ~~~0xfff#64 = x &&& addressMask := by
    intro x small
    apply pointer_eq (by decide)
    apply decide_eq_true
    rw [BitVec.toNat_and]
    exact lt_of_le_of_lt Nat.and_le_left small
  have root : s.cr3 &&& ~~~0xfff#64 = s.root := low s.cr3 firmware.root
  have access : accessible s.root = true := by
    apply decide_eq_true
    rw [Paging.root, BitVec.toNat_and]
    exact lt_of_le_of_lt Nat.and_le_right (by decide)
  obtain ⟨⟨status, s'⟩, levels⟩ := remapLevels_returns (s := { s with cr0 := s.cr0 &&& ~~~cr0Wp })
    virt phys prot wellFormed.shaped fresh wellFormed.proper firmware.entries access
  rw [remapPage, root, levels]
  by_cases ok : status = efiSuccess
  · exact ⟨_, if_neg (not_not_intro ok)⟩
  · exact ⟨_, if_pos ok⟩

def kernelProt : BitVec 32 := (protRead ||| protWrite).setWidth 32
def userProt : BitVec 32 := (protRead ||| protExec ||| protUser).setWidth 32

theorem remapUserCodePage_done (wellFormed : s.WellFormed)
    (fresh : FreshPages a s.allocations s.nodes)
    (returned : remapUserCodePage a page s = some (efiSuccess, s')) :
    ∃ s₁, RemapDone a page page kernelProt s s₁ ∧
      FreshPages a s₁.allocations s₁.nodes ∧ s₁.WellFormed ∧
      RemapDone a (page + 0x1000#64) page userProt s₁ s' := by
  simp only [remapUserCodePage] at returned
  split at returned
  · cases returned
  · rename_i status s₁ first
    split at returned
    · rename_i failed
      exact absurd (Prod.mk.inj (Option.some.inj returned)).1 failed
    · rename_i ok
      rw [not_not.mp ok] at first
      have done := remapPage_done fresh first
      have later := done.fresh wellFormed.shaped fresh
      exact ⟨s₁, done, later, done.wellFormed wellFormed fresh, remapPage_done later returned⟩

/-- Nothing but the tables of the tree and the pages that were handed out is written. -/
theorem RemapDone.outside (h : RemapDone a virt phys prot s s') (shaped : s.TreeShaped)
    (fresh : FreshPages a s.allocations s.nodes) {x : BitVec 64} (beyond : x ∉ s.nodes)
    (kept : ∀ k, a.status k = efiSuccess → a.page k ≠ x) : s'.tables x = s.tables x := by
  obtain ⟨s₁, s₂, tables, allocations, remaps, tables', -⟩ := h.levels
  rw [Paging.TreeShaped, ← tables] at shaped
  rw [Paging.nodes, ← tables, ← allocations] at fresh
  rw [Paging.nodes, ← tables] at beyond
  rw [tables', ← tables]
  apply (remaps.frame shaped fresh).outside x beyond
  rintro ⟨k, -, -, ok, page⟩
  exact kept k ok page

theorem remapUserCodePage_outside (wellFormed : s.WellFormed)
    (fresh : FreshPages a s.allocations s.nodes)
    (returned : remapUserCodePage a page s = some (efiSuccess, s')) {x : BitVec 64}
    (beyond : x ∉ s.nodes) (kept : ∀ k, a.status k = efiSuccess → a.page k ≠ x) : s'.tables x = s.tables x := by
  obtain ⟨s₁, first, fresh₁, wellFormed₁, second⟩ := remapUserCodePage_done wellFormed fresh returned
  obtain ⟨-, -, nodes⟩ := first.frame wellFormed.shaped fresh
  have beyond₁ : x ∉ s₁.nodes := by
    intro member
    rcases nodes member with old | ⟨k, -, -, ok, page⟩
    · exact beyond old
    · exact kept k ok page
  rw [second.outside wellFormed₁.shaped fresh₁ beyond₁ kept,
    first.outside wellFormed.shaped fresh beyond kept]

/-- A call opens at most one table for each level. -/
theorem Remaps.allocations_le {level : Nat} {table : BitVec 64}
    (h : Remaps a virt phys prot level table s s') : s'.allocations ≤ s.allocations + level := by
  induction h with
  | leaf => exact Nat.le_refl _
  | @table level table sub s s' child rest ih =>
    have same : (s.patched prot table (ptIndex virt (level + 1))).allocations = s.allocations := rfl
    omega
  | @fresh level table s s' noTable allocated rest ih =>
    have one : (s.linked level (a.page s.allocations) table (ptIndex virt (level + 1))).allocations =
        s.allocations + 1 := rfl
    omega

theorem RemapDone.allocations_le (h : RemapDone a virt phys prot s s') :
    s'.allocations ≤ s.allocations + s.topLevel := by
  obtain ⟨s₁, s₂, -, allocations, remaps, -, allocations'⟩ := h.levels
  rw [← allocations, allocations']
  exact remaps.allocations_le

theorem Descends.refused {level : Nat} {table : BitVec 64}
    (h : Descends a virt prot (Refused a virt) level table s s') :
    ∃ k, s.allocations ≤ k ∧ k < s.allocations + level ∧ a.status k ≠ efiSuccess := by
  induction h with
  | ended h =>
    cases h with
    | refused noTable failed => exact ⟨_, Nat.le_refl _, by omega, failed⟩
  | @table level table sub s s' child rest ih =>
    have same : (s.patched prot table (ptIndex virt (level + 1))).allocations = s.allocations := rfl
    obtain ⟨k, from_, below, failed⟩ := ih
    exact ⟨k, by omega, by omega, failed⟩
  | @fresh level table s s' noTable allocated rest ih =>
    have one : (s.linked level (a.page s.allocations) table (ptIndex virt (level + 1))).allocations =
        s.allocations + 1 := rfl
    obtain ⟨k, from_, below, failed⟩ := ih
    exact ⟨k, by omega, by omega, failed⟩

/-- A status other than success is one of the allocator. -/
theorem remapPage_refused_page {status : EfiStatus} (fresh : FreshPages a s.allocations s.nodes)
    (returned : remapPage a virt phys prot s = some (status, s')) (failed : status ≠ efiSuccess) :
    ∃ k, s.allocations ≤ k ∧ k < s.allocations + s.topLevel ∧ a.status k ≠ efiSuccess := by
  simp only [remapPage] at returned
  split at returned
  · cases returned
  · rename_i status' s₂ levels
    have address : ∀ k ≥ s.allocations, a.status k = efiSuccess → PageAddress (a.page k) :=
      fun k => fresh.address k
    rcases levels_of_returned (s := { s with cr0 := s.cr0 &&& ~~~cr0Wp }) address levels with
      ⟨ok, -⟩ | ⟨-, refused⟩
    · rw [if_neg (not_not_intro ok)] at returned
      exact absurd (Prod.mk.inj (Option.some.inj returned)).1.symm failed
    · exact refused.refused

theorem remapUserCodePage_refused {status : EfiStatus} (wellFormed : s.WellFormed)
    (fresh : FreshPages a s.allocations s.nodes)
    (returned : remapUserCodePage a page s = some (status, s')) (failed : status ≠ efiSuccess) :
    ∃ k, s.allocations ≤ k ∧ k < s.allocations + 2 * s.topLevel ∧ a.status k ≠ efiSuccess := by
  simp only [remapUserCodePage] at returned
  split at returned
  · cases returned
  · rename_i status₁ s₁ first
    split at returned
    · rename_i refused
      obtain ⟨k, from_, below, failed⟩ := remapPage_refused_page fresh first refused
      exact ⟨k, from_, by omega, failed⟩
    · rename_i ok
      rw [not_not.mp ok] at first
      have done := remapPage_done fresh first
      have le := done.allocations_le
      have more := (done.frame wellFormed.shaped fresh).1
      have later := done.fresh wellFormed.shaped fresh
      obtain ⟨k, from_, below, failed⟩ := remapPage_refused_page later returned failed
      rw [done.topLevel_eq] at below
      exact ⟨k, by omega, by omega, failed⟩

/-- The two calls return, with success or the status of the allocation that failed. -/
theorem remapUserCodePage_returns (wellFormed : s.WellFormed)
    (fresh : FreshPages a s.allocations s.nodes) (firmware : s.OfFirmware)
    (aligned : PageAddress page) : ∃ result, remapUserCodePage a page s = some result := by
  obtain ⟨⟨status, s₁⟩, first⟩ := remapPage_returns page page kernelProt wellFormed fresh firmware
  have call : remapPage a page page ((protRead ||| protWrite).setWidth 32) s = some (status, s₁) :=
    first
  simp only [remapUserCodePage, call]
  by_cases ok : status = efiSuccess
  · rw [if_neg (not_not_intro ok)]
    rw [ok] at first
    have done := remapPage_done fresh first
    exact remapPage_returns (page + 0x1000#64) page userProt (done.wellFormed wellFormed fresh)
      (done.fresh wellFormed.shaped fresh)
      (done.of_firmware wellFormed fresh aligned (by decide) firmware)
  · exact ⟨_, if_pos ok⟩

/-- The code page in the address space of a run. -/
structure UserCodePage (s s' : Paging) (page : BitVec 64) : Prop where
  user : ∀ w, s'.hasRight w .user = true ↔ s.SamePage w (page + 0x1000#64)
  fetched : ∀ w, s.SamePage w (page + 0x1000#64) →
    s'.translate w = some (page ||| w &&& 0xfff#64) ∧ s'.hasRight w .execute = true ∧
      s'.hasRight w .write = false
  written : ∀ w, s.SamePage w page →
    s'.translate w = some (page ||| w &&& 0xfff#64) ∧ s'.hasRight w .write = true ∧
      s'.hasRight w .execute = false

theorem different_of_not_same (apart : ¬ s.SamePage w virt) :
    ∃ l ≤ s.topLevel, ptIndex w l ≠ ptIndex virt l := by
  simpa only [Paging.SamePage, not_forall, exists_prop] using apart

theorem user_code_page_remapped (wellFormed : s.WellFormed)
    (fresh : FreshPages a s.allocations s.nodes) (firmware : s.OfFirmware)
    (aligned : PageAddress page) (returned : remapUserCodePage a page s = some (efiSuccess, s')) :
    UserCodePage s s' page := by
  have kernel := user_code_page_protected wellFormed fresh aligned returned
  obtain ⟨s₁, first, fresh₁, wellFormed₁, second⟩ := remapUserCodePage_done wellFormed fresh returned
  have firmware₁ := first.of_firmware wellFormed fresh aligned (by decide) firmware
  have top : s₁.topLevel = s.topLevel := first.topLevel_eq
  have top' : s'.topLevel = s.topLevel := second.topLevel_eq.trans top
  have user : s'.hasRight (page + 0x1000#64) .user = true := by
    rw [second.own_rights wellFormed₁.shaped fresh₁ aligned]
    refine ⟨by decide, fun x _ _ => ?_⟩
    rw [Right.afterPatch, (by decide : asks userProt protUser = true), Bool.or_true]
  have executable : s'.hasRight (page + 0x1000#64) .execute = true := by
    rw [second.executable wellFormed₁.shaped fresh₁ aligned]
    refine ⟨by decide, ?_⟩
    rintro ⟨-, x, member, table, forbidden, -⟩
    obtain ⟨sub, child⟩ := Option.isSome_iff_exists.mp table
    have entry := (firmwareEntry_of_some child).mp (firmware₁.entries.path _ x member) 63 (by omega)
    rw [has_no_execute, entry] at forbidden
    cases forbidden
  have readOnly : s'.hasRight (page + 0x1000#64) .write = false := by
    rw [← Bool.not_eq_true, second.own_rights wellFormed₁.shaped fresh₁ aligned]
    exact fun granted => absurd granted.1 (by decide)
  have inside : ∀ {w virt}, s.SamePage w virt → s'.SamePage w virt := by
    intro w virt same
    rw [Paging.SamePage, top']
    exact same
  constructor
  · intro w
    constructor
    · intro granted
      by_contra apart
      rw [Paging.SamePage, ← top] at apart
      obtain ⟨x, member, last⟩ := walk_has_end s₁ w
      have none_ : hardwareChild x.1 x.2 = none := by
        rw [isTable] at last
        simpa using last
      have entry := (firmwareEntry_of_none none_).mp (firmware₁.entries.path _ x member)
      have denied := second.stays_denied wellFormed₁ fresh₁ (different_of_not_same apart) member
        last entry
      rw [granted] at denied
      cases denied
    · intro same
      rw [(inside same).hasRight_eq]
      exact user
  · intro w same
    have same₁ : s₁.SamePage w (page + 0x1000#64) := by
      rw [Paging.SamePage, top]
      exact same
    rw [(inside same).hasRight_eq, (inside same).hasRight_eq]
    exact ⟨second.page_address wellFormed₁.shaped fresh₁ aligned same₁, executable, readOnly⟩
  · intro w same
    rw [(inside same).hasRight_eq, (inside same).hasRight_eq]
    refine ⟨?_, kernel.1, kernel.2.2⟩
    obtain ⟨links, walk, -⟩ := first.own_walk wellFormed.shaped fresh
    have different : ∃ l ≤ s₁.topLevel, ptIndex page l ≠ ptIndex (page + 0x1000#64) l :=
      ⟨0, Nat.zero_le _, ptIndex_alias aligned⟩
    have small : ∀ x ∈ s₁.walk page, isTable x = false → x.1 = 0 := by
      intro x member last
      obtain ⟨front, ends⟩ := walk_ends member last
      rw [walk] at ends
      have leaf := congrArg List.getLast? ends
      rw [List.getLast?_concat, List.getLast?_concat] at leaf
      rw [← Option.some.inj leaf]
    have walk' := second.other_walk wellFormed₁.shaped fresh₁ different small
    have mapped : s'.hasRight w .read = true := by
      have before : s₁.hasRight page .read = true :=
        (first.own_rights wellFormed.shaped fresh aligned .read).mpr ⟨rfl, fun _ _ _ => rfl⟩
      rw [(inside same).hasRight_eq]
      exact (second.otherRights wellFormed₁ fresh₁ different).kept .read before
    have leaf : isTable (0, page ||| pteProt kernelProt) = false := rfl
    rw [Paging.translate, if_pos mapped, (inside same).walk_eq, walk', walk, List.map_append,
      List.map_singleton, List.getLast?_concat, patchShared_of_not_table leaf, Option.map_some,
      physicalAddress_leaf aligned]

/-- In an address space where nothing is the user's, the two calls of `efi_main` return. They
fail only with an allocation of theirs, at most one for each level and page; and otherwise
they give the user one page and no other: its addresses reach the bytes the kernel writes,
can be executed and not be written, while the kernel's addresses of it stay writable and out
of the user's reach. -/
theorem user_reaches_code_page_only (wellFormed : s.WellFormed)
    (fresh : FreshPages a s.allocations s.nodes) (firmware : s.OfFirmware)
    (aligned : PageAddress page) :
    ∃ status s', remapUserCodePage a page s = some (status, s') ∧
      (status = efiSuccess → UserCodePage s s' page) ∧
      (status ≠ efiSuccess → ∃ k, s.allocations ≤ k ∧ k < s.allocations + 2 * s.topLevel ∧
        a.status k ≠ efiSuccess) := by
  obtain ⟨⟨status, s'⟩, returned⟩ := remapUserCodePage_returns wellFormed fresh firmware aligned
  refine ⟨status, s', returned, ?_, remapUserCodePage_refused wellFormed fresh returned⟩
  intro ok
  rw [ok] at returned
  exact user_code_page_remapped wellFormed fresh firmware aligned returned

end

/-- The first GiB as one page of the supervisor. -/
def oneGib : Paging where
  cr0 := 0x80010033#64
  cr3 := 0x1000#64
  cr4 := 0x668#64
  tables := fun table i =>
    if table = 0x1000#64 then if i = 0 then 0x2003#64 else 0#64
    else if table = 0x2000#64 then if i = 0 then 0xe3#64 else 0#64
    else 0#64
  allocations := 0

namespace oneGib

theorem registers : oneGib.topLevel = 3 ∧ oneGib.root = 0x1000#64 :=
  ⟨(by decide : (if has 0x668#64 cr4La57 then 4 else 3) = 3),
    (by decide : 0x1000#64 &&& addressMask = 0x1000#64)⟩

theorem root_entry (j : Fin 512) :
    oneGib.tables 0x1000#64 j = if j = 0 then 0x2003#64 else 0#64 := rfl

theorem last_entry (j : Fin 512) :
    oneGib.tables 0x2000#64 j = if j = 0 then 0xe3#64 else 0#64 := rfl

theorem last_child (j : Fin 512) : hardwareChild 2 (oneGib.tables 0x2000#64 j) = none := by
  rw [last_entry]
  split <;> decide

theorem root_child (j : Fin 512) (c : BitVec 64)
    (step : hardwareChild 3 (oneGib.tables 0x1000#64 j) = some c) : j = 0 ∧ c = 0x2000#64 := by
  rw [root_entry] at step
  split at step
  · have child : hardwareChild 3 0x2003#64 = some 0x2000#64 := by decide
    rw [child] at step
    exact ⟨‹_›, (Option.some.inj step).symm⟩
  · exact absurd step (by simp [hardwareChild])

theorem nodes_subset : oneGib.nodes ⊆ {x | x = 0x1000#64 ∨ x = 0x2000#64} := by
  rw [Paging.nodes, registers.1, registers.2]
  intro x member
  have last := (nodes_of_no_child last_child).1
  rcases RadixTree.nodes_single root_child member with root | below
  · exact .inl root
  · rw [last] at below
    exact .inr below

theorem treeShaped : oneGib.TreeShaped := by
  obtain ⟨last, shaped⟩ := nodes_of_no_child last_child
  rw [Paging.TreeShaped, registers.1, registers.2]
  apply RadixTree.treeShaped_single root_child shaped
  rw [last]
  decide

theorem allEntries {P : Nat → PageEntry → Prop} (empty : ∀ level, P level 0#64)
    (root : P 3 0x2003#64) (last : P 2 0xe3#64) :
    RadixTree.AllEntries hardwareChild P oneGib.tables oneGib.topLevel oneGib.root := by
  rw [registers.1, registers.2]
  intro j
  constructor
  · rw [root_entry]
    split
    · exact root
    · exact empty 3
  · intro c step
    obtain ⟨-, rfl⟩ := root_child j c step
    apply allEntries_of_no_child last_child
    intro j
    rw [last_entry]
    split
    · exact last
    · exact empty 2

theorem wellFormed : oneGib.WellFormed := by
  refine ⟨treeShaped, allEntries ?_ ?_ ?_⟩
  · exact fun level present => by simp at present
  · decide
  · decide

theorem ofFirmware : oneGib.OfFirmware := by
  refine ⟨by decide, allEntries ?_ ?_ ?_⟩
  · intro level
    cases level <;> exact (firmwareEntry_of_none (by simp [hardwareChild])).mpr (by simp [Right.allows])
  · have clear : ∀ n : Fin 64, 52 ≤ n.val → (0x2003#64 : BitVec 64).getLsbD n = false := by decide
    rw [firmwareEntry_of_some (by decide : hardwareChild 3 0x2003#64 = some 0x2000#64)]
    intro n high
    by_cases inside : n < 64
    · exact clear ⟨n, inside⟩ high
    · exact BitVec.getLsbD_of_ge _ n (by omega)
  · exact (firmwareEntry_of_none (by decide)).mpr (by decide)

theorem handed {k : Nat} (ok : eightPages.status k = efiSuccess) :
    k < 8 ∧ (eightPages.page k).toNat = 0x100000 + 0x1000 * k := by
  have few : k < 8 := by
    by_contra large
    have failed : eightPages.status k = 0x8000000000000009 := if_neg large
    rw [failed] at ok
    exact absurd ok (by decide)
  refine ⟨few, ?_⟩
  simp only [eightPages, BitVec.toNat_ofNat]
  omega

theorem fresh : FreshPages eightPages oneGib.allocations oneGib.nodes := by
  refine ⟨fun k _ ok => ?_, fun k _ ok member => ?_, fun k _ l later ok ok' same => ?_⟩
  · have all : ∀ n < 8, PageAddress (eightPages.page n) := by decide
    exact all k (handed ok).1
  · have here := (handed ok).2
    rcases nodes_subset member with same | same
    all_goals
      rw [same] at here
      simp only [BitVec.reduceToNat] at here
      omega
  · have here := (handed ok).2
    rw [same, (handed ok').2] at here
    omega

end oneGib

theorem page_of_one_gib_remapped :
    ∃ s', remapUserCodePage eightPages 0x200000#64 oneGib = some (efiSuccess, s') ∧
      UserCodePage oneGib s' 0x200000#64 := by
  have ok : (remapUserCodePage eightPages 0x200000#64 oneGib).map (·.1) = some efiSuccess := by
    decide +kernel
  obtain ⟨status, s', returned, page, -⟩ := user_reaches_code_page_only oneGib.wellFormed oneGib.fresh
    oneGib.ofFirmware (by decide : PageAddress 0x200000#64)
  rw [returned] at ok
  obtain rfl := Option.some.inj ok
  exact ⟨s', returned, page rfl⟩

end PmcBruteforce
