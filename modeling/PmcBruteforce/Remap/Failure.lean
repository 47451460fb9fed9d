import PmcBruteforce.Remap.Split

/-! A call that fails: what it leaves of CR0, of the rights of the pages, and of where they
are mapped. -/
namespace PmcBruteforce

open Library

variable {a : PageAllocator} {virt phys w : BitVec 64} {prot : BitVec 32}

/-- Every large page in the tables is one the processor accepts. -/
def RealEntry (level : Nat) (e : PageEntry) : Prop :=
  e.getLsbD 0 = true → e.getLsbD 7 = true → 0 < level → LargePage level e

structure Paging.Real (s : Paging) : Prop where
  shaped : s.TreeShaped
  entries : RadixTree.AllEntries hardwareChild RealEntry s.tables s.topLevel s.root

/-- What a call that was refused a page has done below a table. No such call ends in a last
table, so none has made 4 KiB pieces. -/
structure RefusedBelow (prot : BitVec 32) (virt : BitVec 64) (level : Nat) (table : BitVec 64)
    (s s' : Paging) : Prop where
  above : 0 < level
  rights : ∀ w r, RightsPatched prot virt w r level table s s'
  address : ∀ w, (RadixTree.path hardwareChild s.tables level table (ptIndex w)).all
      Right.read.allows = true →
    (RadixTree.path hardwareChild s'.tables level table (ptIndex w)).getLast?.map
        (physicalAddress w) =
      (RadixTree.path hardwareChild s.tables level table (ptIndex w)).getLast?.map
        (physicalAddress w)

theorem path_ne_nil (m : PageTables) (level : Nat) (table : BitVec 64) (w : Nat → Fin 512) :
    RadixTree.path hardwareChild m level table w ≠ [] := by
  cases level <;> simp [RadixTree.path]

theorem getLast?_cons_path (x : Nat × PageEntry) (m : PageTables) (level : Nat) (table : BitVec 64)
    (w : Nat → Fin 512) :
    (x :: RadixTree.path hardwareChild m level table w).getLast? =
      (RadixTree.path hardwareChild m level table w).getLast? := by
  obtain ⟨y, path, equal⟩ := List.exists_cons_of_ne_nil (path_ne_nil m level table w)
  rw [equal, List.getLast?_cons_cons]

theorem Refused.below {level : Nat} {table : BitVec 64} {s s' : Paging}
    (h : Refused a virt level table s s') : RefusedBelow prot virt level table s s' := by
  cases h with
  | @refused level table s noTable failed =>
    refine ⟨Nat.succ_pos level, fun w r => ?_, fun w _ => rfl⟩
    by_cases shared : ptIndex w (level + 1) = ptIndex virt (level + 1)
    · have old : isTable (level + 1, s.tables table (ptIndex w (level + 1))) = false := by
        rw [isTable, shared, noTable]
        rfl
      have noTable' := noTable
      rw [← shared] at noTable'
      rw [RightsPatched, path_of_no_table noTable', List.map_singleton,
        patchShared_of_not_table old]
    · rw [RightsPatched, map_patchShared_of_ne shared (RadixTree.path_level_le _ _ _ _)]

theorem Refused.frame {level : Nat} {table : BitVec 64} {s s' : Paging}
    (h : Refused a virt level table s s')
    (shaped : RadixTree.TreeShaped hardwareChild s.tables level table) :
    Frame a level table s s' := by
  cases h with
  | refused noTable failed =>
    exact ⟨⟨rfl, rfl, rfl⟩, Nat.le_succ _, fun _ _ _ => rfl, Set.subset_union_left, shaped⟩

theorem LargePage.piece_allows {level : Nat} {e : PageEntry} (large : LargePage (level + 1) e)
    (positive : 0 < level) (w : BitVec 64) (r : Right) :
    r.allows (level, pieceOf level e (ptIndex w level)) = r.allows (level + 1, e) := by
  obtain ⟨l, rfl⟩ := Nat.exists_eq_succ_of_ne_zero (Nat.pos_iff_ne_zero.mp positive)
  have piece := (large.piece (ptIndex w (l + 1))).1
  have same := (large.piece_maps (fun zero => absurd zero (Nat.succ_ne_zero l)) w).2
  have granted : r.inEntry (pieceOf (l + 1) e (ptIndex w (l + 1))) = r.inEntry e := by
    cases r with
    | read => rfl
    | write => exact congrArg Attributes.writable same
    | user => exact congrArg Attributes.user same
    | execute => exact congrArg (fun x => !x.noExecute) same
  have small := large.small
  have height := large.height
  simp only [Right.allows, has_present, piece.present, large.present, granted,
    decide_eq_false (by omega : ¬ 3 ≤ l + 1), decide_eq_false (by omega : ¬ 3 ≤ l + 1 + 1),
    Bool.false_and]

theorem freshTable_absent {level : Nat} {e : PageEntry} (absent : e.getLsbD 0 = false)
    (j : Fin 512) (r : Right) :
    r.allows (level, freshTable level e j) = r.allows (level + 1, e) := by
  have piece : (freshTable level e j).getLsbD 0 = false := by
    rw [freshTable_present, absent, Bool.false_and]
  simp only [Right.allows, has_present, piece, absent, Bool.false_and]

/-- Above the last level the pieces of a real page grant what the page granted. -/
theorem real_pieces_allow {level : Nat} {e : PageEntry} (real : RealEntry (level + 1) e)
    (noTable : hardwareChild (level + 1) e = none) (positive : 0 < level) (w : BitVec 64)
    (r : Right) :
    r.allows (level, freshTable level e (ptIndex w level)) = r.allows (level + 1, e) := by
  cases present : e.getLsbD 0 with
  | false => exact freshTable_absent present _ r
  | true =>
    have large := real present (hardwareChild_eq_none.mp noTable present) (Nat.succ_pos level)
    rw [freshTable_of_large present noTable]
    exact large.piece_allows positive w r

theorem real_pieces {level : Nat} {e : PageEntry} (real : RealEntry (level + 1) e)
    (noTable : hardwareChild (level + 1) e = none) (j : Fin 512) :
    RealEntry level (freshTable level e j) := by
  intro present _ positive
  obtain ⟨l, rfl⟩ := Nat.exists_eq_succ_of_ne_zero (Nat.pos_iff_ne_zero.mp positive)
  rw [freshTable_present] at present
  obtain ⟨there, size⟩ := Bool.and_eq_true_iff.mp present
  rw [freshTable_of_large there noTable]
  exact ((real there size (Nat.succ_pos _)).piece j).1

section

variable {level : Nat} {table sub page : BitVec 64} {s s' : Paging}

theorem RefusedBelow.patched
    (done : LevelDone level table (ptIndex virt (level + 1)) sub s
      (s.patched prot table (ptIndex virt (level + 1))) s')
    (child : hardwareChild (level + 1) (s.tables table (ptIndex virt (level + 1))) = some sub)
    (same : ∀ x ∈ RadixTree.nodes hardwareChild s.tables level sub,
      (s.patched prot table (ptIndex virt (level + 1))).tables x = s.tables x)
    (rest : RefusedBelow prot virt level sub
      (s.patched prot table (ptIndex virt (level + 1))) s') :
    RefusedBelow prot virt (level + 1) table s s' := by
  refine ⟨Nat.succ_pos level, fun w r => ?_, fun w readable => ?_⟩
  · by_cases shared : ptIndex w (level + 1) = ptIndex virt (level + 1)
    · exact done.rights_patched child same shared r (rest.rights w r)
    · exact done.rights_beside shared r
  · by_cases shared : ptIndex w (level + 1) = ptIndex virt (level + 1)
    · have child' := child
      rw [← shared] at child'
      rw [path_of_table child', List.all_cons, Bool.and_eq_true] at readable
      have below := rest.address w
      rw [RadixTree.path_congr same] at below
      rw [done.path_shared shared, path_of_table child', getLast?_cons_path, getLast?_cons_path]
      exact below readable.2
    · rw [done.updated.path_eq _ shared]

theorem RefusedBelow.linked
    (done : LevelDone level table (ptIndex virt (level + 1)) page s
      (s.linked level page table (ptIndex virt (level + 1))) s')
    (real : RealEntry (level + 1) (s.tables table (ptIndex virt (level + 1))))
    (noTable : hardwareChild (level + 1) (s.tables table (ptIndex virt (level + 1))) = none)
    (address : PageAddress page) (apart : table ≠ page)
    (rest : RefusedBelow prot virt level page
      (s.linked level page table (ptIndex virt (level + 1))) s') :
    RefusedBelow prot virt (level + 1) table s s' := by
  have allow := real_pieces_allow real noTable rest.above
  refine ⟨Nat.succ_pos level, fun w r => ?_, fun w readable => ?_⟩
  · by_cases shared : ptIndex w (level + 1) = ptIndex virt (level + 1)
    · exact done.rights_linked noTable address apart shared r (allow w r) (rest.rights w r)
    · exact done.rights_beside shared r
  · by_cases shared : ptIndex w (level + 1) = ptIndex virt (level + 1)
    · have noTable' := noTable
      rw [← shared] at noTable'
      rw [path_of_no_table noTable', List.all_cons, List.all_nil, Bool.and_true, shared] at readable
      have present : (s.tables table (ptIndex virt (level + 1))).getLsbD 0 = true := by
        rw [Right.allows, Bool.and_eq_true, Bool.and_eq_true] at readable
        exact (has_present _).symm.trans readable.1.1
      have large := real present (hardwareChild_eq_none.mp noTable present) (Nat.succ_pos level)
      have maps := large.piece_maps (fun zero => absurd zero (Nat.pos_iff_ne_zero.mp rest.above)) w
      have below := rest.address w
      rw [path_of_no_table (linked_child _ _ _ apart _), linked_table _ apart, List.all_cons,
        List.all_nil, Bool.and_true, allow w .read, List.getLast?_singleton, Option.map_some,
        freshTable_of_large present noTable, maps.1] at below
      rw [done.path_shared shared, path_of_no_table noTable', getLast?_cons_path, below readable,
        shared, List.getLast?_singleton, Option.map_some]
    · rw [done.updated.path_eq _ shared]

end

theorem Descends.refusedBelow {level : Nat} {table : BitVec 64} {s s' : Paging}
    (h : Descends a virt prot (Refused a virt) level table s s')
    (shaped : RadixTree.TreeShaped hardwareChild s.tables level table)
    (unused : FreshPages a s.allocations (RadixTree.nodes hardwareChild s.tables level table))
    (real : RadixTree.AllEntries hardwareChild RealEntry s.tables level table) :
    RefusedBelow prot virt level table s s' := by
  refine Descends.induct (motive := fun level table s s' =>
    RadixTree.AllEntries hardwareChild RealEntry s.tables level table →
      RefusedBelow prot virt level table s s')
    (fun _ _ _ _ refused => refused.frame) ?ended ?table ?fresh h shaped unused real
  case ended => exact fun _ _ _ _ refused _ => refused.below
  case table =>
    intro level table sub s s' child same done ih real
    exact .patched done child same (ih (.congr same ((real _).2 sub child)))
  case fresh =>
    intro level table page s s' noTable address apart done ih real
    refine .linked done (real _).1 noTable address apart
      (ih (allEntries_of_no_child (linked_child _ _ _ apart) fun j => ?_))
    rw [linked_table _ apart]
    exact real_pieces (real _).1 noTable j

/-- What a call that failed has done. -/
structure RemapRefused (virt : BitVec 64) (prot : BitVec 32) (s s' : Paging) : Prop where
  cr0 : s'.cr0 = s.cr0 &&& ~~~cr0Wp
  rights : ∀ w r, s'.hasRight w r =
    ((s.walk w).map (patchShared prot s.topLevel virt w)).all r.allows
  address : ∀ w, s.hasRight w .read = true →
    (s'.walk w).getLast?.map (physicalAddress w) = (s.walk w).getLast?.map (physicalAddress w)

theorem remapPage_refused {status : EfiStatus} {s s' : Paging} (real : s.Real)
    (fresh : FreshPages a s.allocations s.nodes)
    (returned : remapPage a virt phys prot s = some (status, s')) (failed : status ≠ efiSuccess) :
    RemapRefused virt prot s s' := by
  simp only [remapPage] at returned
  split at returned
  · cases returned
  · rename_i status' s₂ levels
    split at returned
    · obtain ⟨rfl, rfl⟩ := Prod.mk.inj (Option.some.inj returned)
      let s₁ : Paging := { s with cr0 := s.cr0 &&& ~~~cr0Wp }
      rw [pointer_eq (by decide) (accessible_of_returned levels)] at levels
      have descends : Descends a virt prot (Refused a virt) s.topLevel s.root s₁ s₂ := by
        rcases levels_of_returned (s := s₁) (fun k => fresh.address k) levels with
          ⟨ok, -⟩ | ⟨-, descends⟩
        · exact absurd ok failed
        · exact descends
      obtain ⟨cr0, cr3, cr4⟩ := descends.registers fun _ _ _ _ refused => refused.registers
      have below := descends.refusedBelow real.shaped fresh real.entries
      have walk : ∀ w, s₂.walk w =
          RadixTree.path hardwareChild s₂.tables s.topLevel s.root (ptIndex w) := by
        intro w
        rw [Paging.walk, Paging.topLevel, Paging.root, cr3, cr4]
        rfl
      refine ⟨cr0, fun w r => ?_, fun w readable => ?_⟩
      · rw [Paging.hasRight, walk]
        exact below.rights w r
      · rw [walk]
        exact below.address w readable
    · obtain ⟨ok, -⟩ := Prod.mk.inj (Option.some.inj returned)
      exact absurd ok.symm failed

/-- The machine is as it was: CR0, and what every page is mapped to and allows. -/
structure Unchanged (s s' : Paging) : Prop where
  cr0 : s'.cr0 = s.cr0
  translation : ∀ w, s'.translate w = s.translate w
  rights : ∀ w r, s'.hasRight w r = s.hasRight w r

/-- A page is denied a right by nothing but tables on the walk of `virt` which grant it once
what `prot` asks for is patched into them. -/
def GainsRight (s : Paging) (virt w : BitVec 64) (prot : BitVec 32) (r : Right) : Prop :=
  s.hasRight w r = false ∧ ∀ x ∈ s.walk w,
    r.allows x = true ∨ SharedTable s.topLevel virt w x ∧ r.afterPatch prot x.2 = true

theorem allows_patchShared_iff {r : Right} {top : Nat} {x : Nat × PageEntry} :
    r.allows (patchShared prot top virt w x) = true ↔
      r.allows x = true ∨ SharedTable top virt w x ∧ r.afterPatch prot x.2 = true := by
  by_cases shared : SharedTable top virt w x
  · constructor
    · intro granted
      rw [patchShared, if_pos shared, allows_patch shared.1] at granted
      exact .inr ⟨shared, granted⟩
    · rintro (granted | ⟨-, granted⟩)
      · exact allows_patchShared granted
      · rw [patchShared, if_pos shared, allows_patch shared.1]
        exact granted
  · rw [patchShared, if_neg shared]
    exact (or_iff_left fun both => shared both.1).symm

theorem cr0_kept_iff (cr0 : BitVec 64) : cr0 &&& ~~~cr0Wp = cr0 ↔ has cr0 cr0Wp = false := by
  have bits : ∀ n, n < 64 → (cr0 &&& ~~~cr0Wp).getLsbD n = (cr0.getLsbD n && !decide (n = 16)) := by
    intro n word
    have flag := getLsbD_flag true 16 n (by decide)
    rw [if_pos rfl, Bool.true_and] at flag
    rw [BitVec.getLsbD_and, BitVec.getLsbD_not, cr0Wp, flag, decide_eq_true word, Bool.true_and]
  rw [cr0Wp, has_bit]
  constructor
  · intro same
    rw [← same, ← cr0Wp, bits 16 (by decide)]
    simp
  · intro clear
    apply BitVec.eq_of_getLsbD_eq
    intro n word
    rw [← cr0Wp, bits n word]
    by_cases wp : n = 16
    · rw [wp, clear]
      rfl
    · simp [wp]

theorem RemapRefused.hasRight_iff {s s' : Paging} (h : RemapRefused virt prot s s') (w : BitVec 64)
    (r : Right) : s'.hasRight w r = true ↔ s.hasRight w r = true ∨ GainsRight s virt w prot r := by
  have granted : s'.hasRight w r = true ↔ ∀ x ∈ s.walk w,
      r.allows x = true ∨ SharedTable s.topLevel virt w x ∧ r.afterPatch prot x.2 = true := by
    rw [h.rights, List.all_map, List.all_eq_true]
    exact forall₂_congr fun x _ => allows_patchShared_iff
  rw [granted, GainsRight]
  cases had : s.hasRight w r with
  | false => simp
  | true =>
    refine iff_of_true (fun x member => .inl ?_) (.inl rfl)
    rw [Paging.hasRight, List.all_eq_true] at had
    exact had x member

theorem RemapRefused.translate_eq {s s' : Paging} (h : RemapRefused virt prot s s')
    (w : BitVec 64) : s'.translate w = s.translate w := by
  have same : s'.hasRight w .read = s.hasRight w .read := by
    rw [Bool.eq_iff_iff, h.hasRight_iff]
    refine or_iff_left ?_
    rintro ⟨denied, granted⟩
    have had : s.hasRight w .read = true := by
      rw [Paging.hasRight, List.all_eq_true]
      intro x member
      rcases granted x member with allowed | ⟨shared, -⟩
      · exact allowed
      · rw [allows_of_table shared.1]
        rfl
    exact Bool.false_ne_true (denied.symm.trans had)
  rw [Paging.translate, Paging.translate, same]
  by_cases mapped : s.hasRight w .read = true
  · rw [if_pos mapped, if_pos mapped, h.address w mapped]
  · rw [if_neg mapped, if_neg mapped]

/-- A call that fails returns from inside its loop. Over tables that form a tree and have large
entries the processor accepts, it is without effect exactly when there was no write protection
to restore and the tables patched so far gave no page a right. With a table that two levels share
this fails: an entry patched at one level then stands on the walks of the other, too. -/
theorem failed_remap_unchanged_iff {status : EfiStatus} {s s' : Paging} (real : s.Real)
    (fresh : FreshPages a s.allocations s.nodes)
    (returned : remapPage a virt phys prot s = some (status, s')) (failed : status ≠ efiSuccess) :
    Unchanged s s' ↔ has s.cr0 cr0Wp = false ∧ ∀ w r, ¬ GainsRight s virt w prot r := by
  have done := remapPage_refused real fresh returned failed
  rw [← cr0_kept_iff, ← done.cr0]
  constructor
  · intro unchanged
    refine ⟨unchanged.cr0, fun w r gains => ?_⟩
    have granted := (done.hasRight_iff w r).mpr (.inr gains)
    rw [unchanged.rights, gains.1] at granted
    exact Bool.false_ne_true granted
  · rintro ⟨cr0, none_⟩
    refine ⟨cr0, done.translate_eq, fun w r => ?_⟩
    rw [Bool.eq_iff_iff, done.hasRight_iff]
    exact or_iff_left (none_ w r)

/-- EFI_OUT_OF_RESOURCES from the first call on. -/
def noPages : PageAllocator where
  status := fun _ => 0x8000000000000009
  page := fun _ => 0#64

theorem noPages_fresh (n : Nat) (used : Set (BitVec 64)) : FreshPages noPages n used := by
  have failed : ∀ k, noPages.status k ≠ efiSuccess := by
    intro k ok
    have status : noPages.status k = 0x8000000000000009 := rfl
    rw [status] at ok
    exact absurd ok (by decide)
  exact ⟨fun k _ ok => absurd ok (failed k), fun k _ ok => absurd ok (failed k),
    fun k _ l _ ok => absurd ok (failed k)⟩

theorem twoRegions.real {link : PageEntry} (child : hardwareChild 2 link = some 0x3000#64) :
    (twoRegions link).Real := by
  have table : ∀ (level : Nat) {e : PageEntry}, e.getLsbD 7 = false → RealEntry level e :=
    fun _ _ small _ large _ => absurd large (by rw [small]; decide)
  have entry : ∀ {e : PageEntry} (level : Nat), LargePage level e → RealEntry level e :=
    fun _ large _ _ _ => large
  refine ⟨treeShaped child, allEntries child (fun level => table level (by decide))
    (table 3 (by decide)) (entry 2 ?_) (table 2 (hardwareChild_eq_some.mp child).2.1)
    ⟨entry 1 ?_, entry 1 ?_⟩⟩
  · exact large_page_of_bits (by decide) (.inr rfl) (by decide)
  · exact large_page_of_bits (by decide) (.inl rfl) (by decide)
  · exact large_page_of_bits (by decide) (.inl rfl) (by decide)

theorem refused_without_write_protection :
    ∃ s', remapPage noPages 0x40005000#64 0x40005000#64 3#32
        { twoRegions 0x3003#64 with cr0 := 0x80000033#64 } = some (0x8000000000000009, s') ∧
      (Unchanged { twoRegions 0x3003#64 with cr0 := 0x80000033#64 } s' ↔
        has 0x80000033#64 cr0Wp = false ∧ ∀ w r, ¬ GainsRight
          { twoRegions 0x3003#64 with cr0 := 0x80000033#64 } 0x40005000#64 w 3#32 r) := by
  have run : (remapPage noPages 0x40005000#64 0x40005000#64 3#32
      { twoRegions 0x3003#64 with cr0 := 0x80000033#64 }).map (·.1) = some 0x8000000000000009 := by
    decide +kernel
  obtain ⟨⟨_, s'⟩, returned, rfl⟩ := Option.map_eq_some_iff.mp run
  have real : (twoRegions 0x3003#64).Real := twoRegions.real (by decide)
  exact ⟨s', returned, failed_remap_unchanged_iff ⟨real.shaped, real.entries⟩ (noPages_fresh _ _)
    returned (by decide)⟩

/-- The first call of `efi_main` without a page for it: write protection stays off, and the
neighbour 2 MiB further up has become writable. -/
theorem refused_remap_leaves_traces :
    (twoRegions 0x3001#64).Real ∧
    FreshPages noPages (twoRegions 0x3001#64).allocations (twoRegions 0x3001#64).nodes ∧
    ∃ s', remapPage noPages 0x40005000#64 0x40005000#64 3#32 (twoRegions 0x3001#64) =
        some (0x8000000000000009, s') ∧
      has (twoRegions 0x3001#64).cr0 cr0Wp = true ∧ has s'.cr0 cr0Wp = false ∧
      (twoRegions 0x3001#64).hasRight 0x40200000#64 .write = false ∧
      s'.hasRight 0x40200000#64 .write = true ∧ ¬ Unchanged (twoRegions 0x3001#64) s' := by
  have run : (remapPage noPages 0x40005000#64 0x40005000#64 3#32 (twoRegions 0x3001#64)).map
      (fun r => (r.1, has r.2.cr0 cr0Wp, r.2.hasRight 0x40200000#64 .write)) =
        some (0x8000000000000009, false, true) := by decide +kernel
  obtain ⟨⟨status, s'⟩, returned, same⟩ := Option.map_eq_some_iff.mp run
  obtain ⟨rfl, same⟩ := Prod.mk.inj same
  obtain ⟨cleared, gained⟩ := Prod.mk.inj same
  have protected_ : has (twoRegions 0x3001#64).cr0 cr0Wp = true := by decide
  refine ⟨twoRegions.real (by decide), noPages_fresh _ _, s', returned, protected_, cleared,
    by decide +kernel, gained, fun unchanged => ?_⟩
  have kept := congrArg (has · cr0Wp) unchanged.cr0
  simp only [cleared, protected_] at kept
  cases kept

end PmcBruteforce
