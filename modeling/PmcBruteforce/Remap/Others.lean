import PmcBruteforce.Remap.Rights

/-! What a successful call does to the other pages. A page that shares tables with the
remapped one is reached through entries the call may have patched, and through the pieces
of a large page the call may have split. -/
namespace PmcBruteforce

open Library

/-- A table entry of `w`'s walk that is on the walk of `virt` too. -/
def SharedTable (top : Nat) (virt w : BitVec 64) (x : Nat × PageEntry) : Prop :=
  isTable x = true ∧ ∀ l ≤ top, x.1 ≤ l → ptIndex w l = ptIndex virt l

instance (top : Nat) (virt w : BitVec 64) (x : Nat × PageEntry) :
    Decidable (SharedTable top virt w x) := inferInstanceAs (Decidable (_ ∧ _))

/-- An entry of `w`'s walk once the call has patched what it shares. -/
def patchShared (prot : BitVec 32) (top : Nat) (virt w : BitVec 64) (x : Nat × PageEntry) :
    Nat × PageEntry :=
  if SharedTable top virt w x then patch prot x else x

theorem patchShared_of_not_table {prot : BitVec 32} {top : Nat} {virt w : BitVec 64}
    {x : Nat × PageEntry} (entry : isTable x = false) : patchShared prot top virt w x = x :=
  if_neg fun shared => Bool.false_ne_true (entry.symm.trans shared.1)

theorem patchShared_succ {prot : BitVec 32} {level : Nat} {virt w : BitVec 64}
    (same : ptIndex w (level + 1) = ptIndex virt (level + 1)) (x : Nat × PageEntry) :
    patchShared prot (level + 1) virt w x = patchShared prot level virt w x := by
  have iff_ : SharedTable (level + 1) virt w x ↔ SharedTable level virt w x := by
    refine and_congr_right fun _ => ⟨fun h l le => h l (Nat.le_succ_of_le le), fun h l le => ?_⟩
    rcases Nat.le_succ_iff.mp le with below | rfl
    · exact h l below
    · exact fun _ => same
  simp only [patchShared, iff_]

theorem map_patchShared_of_ne {prot : BitVec 32} {level : Nat} {virt w : BitVec 64}
    (different : ptIndex w level ≠ ptIndex virt level) {path : List (Nat × PageEntry)}
    (levels : ∀ x ∈ path, x.1 ≤ level) : path.map (patchShared prot level virt w) = path := by
  have same : path.map (patchShared prot level virt w) = path.map id := by
    refine List.map_congr_left fun x member => if_neg fun shared => ?_
    exact different (shared.2 level le_rfl (levels x member))
  rw [same, List.map_id]

/-- Below a table, a right of `w` is granted after the call as its entries before grant it
with the table entries it shares patched. -/
def RightsPatched (prot : BitVec 32) (virt w : BitVec 64) (r : Right) (level : Nat)
    (table : BitVec 64) (s s' : Paging) : Prop :=
  (RadixTree.path hardwareChild s'.tables level table (ptIndex w)).all r.allows =
    ((RadixTree.path hardwareChild s.tables level table (ptIndex w)).map
      (patchShared prot level virt w)).all r.allows

section

variable {prot : BitVec 32} {virt w page : BitVec 64} {level : Nat} {table sub : BitVec 64}
  {s s₁ s' : Paging}

theorem LevelDone.rights_beside
    (done : LevelDone level table (ptIndex virt (level + 1)) sub s s₁ s')
    (different : ptIndex w (level + 1) ≠ ptIndex virt (level + 1)) (r : Right) :
    RightsPatched prot virt w r (level + 1) table s s' := by
  rw [RightsPatched, done.updated.path_eq _ different,
    map_patchShared_of_ne different (RadixTree.path_level_le _ _ _ _)]

theorem LevelDone.rights_patched
    (done : LevelDone level table (ptIndex virt (level + 1)) sub s
      (s.patched prot table (ptIndex virt (level + 1))) s')
    (child : hardwareChild (level + 1) (s.tables table (ptIndex virt (level + 1))) = some sub)
    (same : ∀ x ∈ RadixTree.nodes hardwareChild s.tables level sub,
      (s.patched prot table (ptIndex virt (level + 1))).tables x = s.tables x)
    (shared : ptIndex w (level + 1) = ptIndex virt (level + 1)) (r : Right)
    (rest : RightsPatched prot virt w r level sub
      (s.patched prot table (ptIndex virt (level + 1))) s') :
    RightsPatched prot virt w r (level + 1) table s s' := by
  have child' := child
  rw [← shared] at child'
  have first : patchShared prot (level + 1) virt w
      (level + 1, s.tables table (ptIndex w (level + 1))) =
      (level + 1, patchedEntry prot (s.tables table (ptIndex w (level + 1)))) := by
    apply if_pos
    refine ⟨by rw [isTable, child']; rfl, fun l le ge => ?_⟩
    rw [Nat.le_antisymm le ge]
    exact shared
  rw [RightsPatched, RadixTree.path_congr same] at rest
  rw [RightsPatched, done.path_shared shared, path_of_table child', patched_entry, List.map_cons,
    first, shared, List.all_cons, List.all_cons, rest, funext (patchShared_succ shared)]

/-- A piece of a split page grants what the page granted, and the fresh entry above it
everything. -/
theorem LevelDone.rights_linked
    (done : LevelDone level table (ptIndex virt (level + 1)) page s
      (s.linked level page table (ptIndex virt (level + 1))) s')
    (noTable : hardwareChild (level + 1) (s.tables table (ptIndex virt (level + 1))) = none)
    (address : PageAddress page) (apart : table ≠ page)
    (shared : ptIndex w (level + 1) = ptIndex virt (level + 1)) (r : Right)
    (granted : r.allows (level, freshTable level
      (s.tables table (ptIndex virt (level + 1))) (ptIndex w level)) =
        r.allows (level + 1, s.tables table (ptIndex virt (level + 1))))
    (rest : RightsPatched prot virt w r level page
      (s.linked level page table (ptIndex virt (level + 1))) s') :
    RightsPatched prot virt w r (level + 1) table s s' := by
  have noTable' := noTable
  rw [← shared] at noTable'
  have old : isTable (level + 1, s.tables table (ptIndex w (level + 1))) = false := by
    rw [isTable, noTable']
    rfl
  have piece : isTable (level, freshTable level
      (s.tables table (ptIndex virt (level + 1))) (ptIndex w level)) = false := by
    rw [isTable, hardwareChild_freshTable]
    rfl
  rw [RightsPatched, path_of_no_table (linked_child _ _ _ apart _), linked_table _ apart,
    List.map_singleton, patchShared_of_not_table piece, List.all_cons, List.all_nil, Bool.and_true,
    granted] at rest
  rw [RightsPatched, done.path_shared shared, path_of_no_table noTable', linked_here _ apart,
    Function.update_self, List.all_cons, freshEntry_allows r _ address, Bool.true_and, rest,
    List.map_singleton, patchShared_of_not_table old, List.all_cons, List.all_nil, Bool.and_true,
    shared]

end

/-- The index of the level in common, the difference is below it. -/
theorem different_below {virt w : BitVec 64} {level : Nat}
    (shared : ptIndex w (level + 1) = ptIndex virt (level + 1))
    (different : ∃ l ≤ level + 1, ptIndex w l ≠ ptIndex virt l) :
    ∃ l ≤ level, ptIndex w l ≠ ptIndex virt l := by
  obtain ⟨l, le, apart⟩ := different
  refine ⟨l, Nat.le_of_lt_succ (lt_of_le_of_ne le fun equal => ?_), apart⟩
  exact apart (equal ▸ shared)

theorem Remaps.other_rights {a : PageAllocator} {virt phys : BitVec 64} {prot : BitVec 32}
    {level : Nat} {table : BitVec 64} {s s' : Paging}
    (h : Remaps a virt phys prot level table s s')
    (shaped : RadixTree.TreeShaped hardwareChild s.tables level table)
    (unused : FreshPages a s.allocations (RadixTree.nodes hardwareChild s.tables level table))
    (proper : RadixTree.AllEntries hardwareChild ProperEntry s.tables level table)
    {w : BitVec 64} (different : ∃ l ≤ level, ptIndex w l ≠ ptIndex virt l) (r : Right) :
    RightsPatched prot virt w r level table s s' := by
  refine Remaps.induct (motive := fun level table s s' =>
    RadixTree.AllEntries hardwareChild ProperEntry s.tables level table →
    (∃ l ≤ level, ptIndex w l ≠ ptIndex virt l) → RightsPatched prot virt w r level table s s')
    ?leaf ?table ?fresh h shaped unused proper different
  case leaf =>
    rintro table s - ⟨l, le, different⟩
    obtain rfl := Nat.le_zero.mp le
    rw [RightsPatched, map_patchShared_of_ne different (RadixTree.path_level_le _ _ _ _)]
    simp only [RadixTree.path, Paging.setEntry, Paging.setTable, Function.update_self,
      Function.update_of_ne different]
  case table =>
    intro level table sub s s' child same done ih proper different
    by_cases shared : ptIndex w (level + 1) = ptIndex virt (level + 1)
    · have below := RadixTree.AllEntries.congr same ((proper _).2 sub child)
      exact done.rights_patched child same shared r (ih below (different_below shared different))
    · exact done.rights_beside shared r
  case fresh =>
    intro level table page s s' noTable address apart done ih proper different
    by_cases shared : ptIndex w (level + 1) = ptIndex virt (level + 1)
    · have pieces : ∀ j, ProperEntry level
          ((s.linked level page table (ptIndex virt (level + 1))).tables page j) := by
        intro j
        rw [linked_table _ apart]
        exact properEntry_freshTable (proper _).1 noTable j
      have below := allEntries_of_no_child (linked_child _ _ _ apart) pieces
      exact done.rights_linked noTable address apart shared r
        (freshTable_allows (proper _).1 noTable r _) (ih below (different_below shared different))
    · exact done.rights_beside shared r

section

variable {a : PageAllocator} {virt phys w : BitVec 64} {prot : BitVec 32} {s s' : Paging}

theorem RemapDone.other_rights (h : RemapDone a virt phys prot s s') (wellFormed : s.WellFormed)
    (fresh : FreshPages a s.allocations s.nodes)
    (different : ∃ l ≤ s.topLevel, ptIndex w l ≠ ptIndex virt l) (r : Right) :
    s'.hasRight w r = true ↔
      ∀ x ∈ s.walk w, r.allows (patchShared prot s.topLevel virt w x) = true := by
  obtain ⟨s₁, s₂, tables, allocations, remaps, tables', -⟩ := h.levels
  have shaped := wellFormed.shaped
  have proper := wellFormed.proper
  rw [Paging.TreeShaped, ← tables] at shaped
  rw [Paging.nodes, ← tables, ← allocations] at fresh
  rw [← tables] at proper
  have patched := remaps.other_rights shaped fresh proper different r
  rw [RightsPatched, ← tables', tables] at patched
  rw [Paging.hasRight, h.walk_eq, patched, List.all_map, List.all_eq_true]
  rfl

theorem allows_of_table {x : Nat × PageEntry} (table : isTable x = true) (r : Right) :
    r.allows x = r.inEntry x.2 := by
  obtain ⟨level, e⟩ := x
  cases level with
  | zero => exact absurd table (by simp [isTable, hardwareChild])
  | succ level =>
    obtain ⟨sub, child⟩ := Option.isSome_iff_exists.mp table
    obtain ⟨present, size, -⟩ := hardwareChild_eq_some.mp child
    simp only [Right.allows, has_present, has_size, present, size, Bool.and_false, Bool.not_false,
      Bool.true_and]

theorem inEntry_afterPatch {r : Right} {e : PageEntry} (granted : r.inEntry e = true) :
    r.afterPatch prot e = true := by
  cases r with
  | read => rfl
  | write => rw [Right.afterPatch, ← has_writable, show has e pageWritable = true from granted,
      Bool.true_or]
  | user => rw [Right.afterPatch, ← has_user, show has e pageUser = true from granted, Bool.true_or]
  | execute =>
    rw [Right.inEntry, has_no_execute, Bool.not_eq_true'] at granted
    rw [Right.afterPatch, granted, Bool.false_and, Bool.not_false]

theorem allows_patchShared {r : Right} {top : Nat} {x : Nat × PageEntry}
    (granted : r.allows x = true) : r.allows (patchShared prot top virt w x) = true := by
  by_cases shared : SharedTable top virt w x
  · rw [allows_of_table shared.1] at granted
    rw [patchShared, if_pos shared, allows_patch shared.1]
    exact inEntry_afterPatch granted
  · rwa [patchShared, if_neg shared]

/-- What the call does to the rights of another page. -/
structure OtherRights (s s' : Paging) (virt w : BitVec 64) (prot : BitVec 32) : Prop where
  mapped : s'.hasRight w .read = true ↔ s.hasRight w .read = true
  kept : ∀ r : Right, s.hasRight w r = true → s'.hasRight w r = true
  writable : s'.hasRight w .write = true ↔ ∀ x ∈ s.walk w,
    Right.write.allows x = true ∨ SharedTable s.topLevel virt w x ∧ asks prot protWrite = true
  userAccessible : s'.hasRight w .user = true ↔ ∀ x ∈ s.walk w,
    Right.user.allows x = true ∨ SharedTable s.topLevel virt w x ∧ asks prot protUser = true
  executable : s'.hasRight w .execute = true → s.hasRight w .execute = true ∨
    ∃ x ∈ s.walk w, SharedTable s.topLevel virt w x ∧ has x.2 pageNoExecute = true

theorem RemapDone.otherRights (h : RemapDone a virt phys prot s s') (wellFormed : s.WellFormed)
    (fresh : FreshPages a s.allocations s.nodes)
    (different : ∃ l ≤ s.topLevel, ptIndex w l ≠ ptIndex virt l) : OtherRights s s' virt w prot := by
  have rights := h.other_rights wellFormed fresh different
  have kept : ∀ r : Right, s.hasRight w r = true → s'.hasRight w r = true := by
    intro r had
    rw [Paging.hasRight, List.all_eq_true] at had
    exact (rights r).mpr fun x member => allows_patchShared (had x member)
  have unshared : ∀ (r : Right) (x : Nat × PageEntry), s'.hasRight w r = true → x ∈ s.walk w →
      ¬ SharedTable s.topLevel virt w x → r.allows x = true := by
    intro r x has_ member shared
    have same := (rights r).mp has_ x member
    rwa [patchShared, if_neg shared] at same
  have bit : ∀ (r : Right) (flag : BitVec 64),
      (∀ e, r.afterPatch prot e = (r.inEntry e || asks prot flag)) →
      (s'.hasRight w r = true ↔ ∀ x ∈ s.walk w,
        r.allows x = true ∨ SharedTable s.topLevel virt w x ∧ asks prot flag = true) := by
    intro r flag after
    rw [rights r]
    refine forall₂_congr fun x _ => ?_
    by_cases shared : SharedTable s.topLevel virt w x
    · rw [patchShared, if_pos shared, allows_patch shared.1, after, Bool.or_eq_true,
        allows_of_table shared.1, and_iff_right shared]
    · rw [patchShared, if_neg shared, or_iff_left fun both => shared both.1]
  refine ⟨⟨fun has_ => ?_, kept .read⟩, kept, bit .write protWrite fun e => ?_,
    bit .user protUser fun e => ?_, fun has_ => ?_⟩
  · rw [Paging.hasRight, List.all_eq_true]
    intro x member
    by_cases shared : SharedTable s.topLevel virt w x
    · rw [allows_of_table shared.1]
      rfl
    · exact unshared .read x has_ member shared
  · rw [Right.afterPatch, Right.inEntry, has_writable]
  · rw [Right.afterPatch, Right.inEntry, has_user]
  · by_cases found : ∃ x ∈ s.walk w, SharedTable s.topLevel virt w x ∧ has x.2 pageNoExecute = true
    · exact .inr found
    · refine .inl ?_
      rw [Paging.hasRight, List.all_eq_true]
      intro x member
      by_cases shared : SharedTable s.topLevel virt w x
      · rw [allows_of_table shared.1, Right.inEntry, Bool.not_eq_true', ← Bool.not_eq_true]
        exact fun set => found ⟨x, member, shared, set⟩
      · exact unshared .execute x has_ member shared

theorem RemapDone.stays_denied (h : RemapDone a virt phys prot s s') (wellFormed : s.WellFormed)
    (fresh : FreshPages a s.allocations s.nodes)
    (different : ∃ l ≤ s.topLevel, ptIndex w l ≠ ptIndex virt l) {r : Right}
    {x : Nat × PageEntry} (member : x ∈ s.walk w) (last : isTable x = false)
    (denied : r.allows x = false) : s'.hasRight w r = false := by
  rw [← Bool.not_eq_true, h.other_rights wellFormed fresh different r]
  intro granted
  have same := granted x member
  rw [patchShared_of_not_table last, denied] at same
  exact Bool.false_ne_true same

end

/-- The two calls of `efi_main`: the page itself, and its alias for the user to execute. -/
def remapUserCodePage (a : PageAllocator) (userCodePageRw : BitVec 64) (s : Paging) :
    Option (EfiStatus × Paging) :=
  match remapPage a userCodePageRw userCodePageRw ((protRead ||| protWrite).setWidth 32) s with
  | none => none
  | some (status, s) =>
    if status ≠ efiSuccess then some (status, s)
    else
      remapPage a (userCodePageRw + 0x1000#64) userCodePageRw
        ((protRead ||| protExec ||| protUser).setWidth 32) s

theorem ptIndex_alias {page : BitVec 64} (aligned : PageAddress page) :
    ptIndex page 0 ≠ ptIndex (page + 0x1000#64) 0 := by
  have bound : page.toNat < 2 ^ 52 := by
    rw [← aligned, BitVec.toNat_and]
    exact lt_of_le_of_lt Nat.and_le_right (by decide)
  intro same
  have values := congrArg Fin.val same
  simp only [ptIndex, Fin.ofNat, BitVec.toNat_ushiftRight, Nat.shiftRight_eq_div_pow,
    BitVec.toNat_add, BitVec.reduceToNat] at values
  omega

theorem user_code_page_protected {a : PageAllocator} {page : BitVec 64} {s s' : Paging}
    (wellFormed : s.WellFormed) (fresh : FreshPages a s.allocations s.nodes)
    (aligned : PageAddress page) (returned : remapUserCodePage a page s = some (efiSuccess, s')) :
    s'.hasRight page .write = true ∧ s'.hasRight page .user = false ∧
      s'.hasRight page .execute = false := by
  simp only [remapUserCodePage] at returned
  split at returned
  · exact absurd returned (by simp)
  · rename_i status s₁ first
    split at returned
    · rename_i failed
      simp only [Option.some.injEq, Prod.mk.injEq] at returned
      exact absurd returned.1 failed
    · rename_i ok
      rw [not_not.mp ok] at first
      have done₁ := remapPage_done fresh first
      have fresh₁ := done₁.fresh wellFormed.shaped fresh
      have wellFormed₁ := done₁.wellFormed wellFormed fresh
      have done₂ := remapPage_done fresh₁ returned
      have different : ∃ l ≤ s₁.topLevel, ptIndex page l ≠ ptIndex (page + 0x1000#64) l :=
        ⟨0, Nat.zero_le _, ptIndex_alias aligned⟩
      obtain ⟨links, walk, -⟩ := done₁.own_walk wellFormed.shaped fresh
      have member : (0, page ||| pteProt ((protRead ||| protWrite).setWidth 32)) ∈ s₁.walk page := by
        rw [walk]
        exact List.mem_append_right _ (List.mem_singleton.mpr rfl)
      have writable : s₁.hasRight page .write = true := by
        rw [done₁.own_rights wellFormed.shaped fresh aligned]
        exact ⟨by decide, fun x _ _ => by
          rw [Right.afterPatch, (by decide : asks _ protWrite = true), Bool.or_true]⟩
      refine ⟨(done₂.otherRights wellFormed₁ fresh₁ different).kept .write writable, ?_, ?_⟩
      · exact done₂.stays_denied wellFormed₁ fresh₁ different member rfl
          ((allows_leaf aligned _ _).trans (by decide))
      · exact done₂.stays_denied wellFormed₁ fresh₁ different member rfl
          ((allows_leaf aligned _ _).trans (by decide))

/-- Remapping leaves the other pages mapped as they were and takes no right from them.
Write and user access are added to the table entries shared with the page when they are
asked for, and to nothing else; execution only where such an entry had NX. The page of
the first call of `efi_main` keeps its protection through the second. -/
theorem other_pages_after_remap :
    (∀ (a : PageAllocator) (virt phys w : BitVec 64) (prot : BitVec 32) (s s' : Paging),
      s.WellFormed → FreshPages a s.allocations s.nodes →
      (∃ l ≤ s.topLevel, ptIndex w l ≠ ptIndex virt l) →
      remapPage a virt phys prot s = some (efiSuccess, s') → OtherRights s s' virt w prot) ∧
    (∀ (a : PageAllocator) (userCodePageRw : BitVec 64) (s s' : Paging),
      s.WellFormed → FreshPages a s.allocations s.nodes → PageAddress userCodePageRw →
      remapUserCodePage a userCodePageRw s = some (efiSuccess, s') →
      s'.hasRight userCodePageRw .write = true ∧ s'.hasRight userCodePageRw .user = false ∧
        s'.hasRight userCodePageRw .execute = false) := by
  refine ⟨fun a virt phys w prot s s' wellFormed fresh different returned => ?_,
    fun a page s s' wellFormed fresh aligned returned =>
      user_code_page_protected wellFormed fresh aligned returned⟩
  exact (remapPage_done fresh returned).otherRights wellFormed fresh different

theorem user_access_gained :
    (twoRegions 0x3003#64).WellFormed ∧
    FreshPages eightPages (twoRegions 0x3003#64).allocations (twoRegions 0x3003#64).nodes ∧
    (∃ l ≤ (twoRegions 0x3003#64).topLevel, ptIndex 0x40200000#64 l ≠ ptIndex 0x40006000#64 l) ∧
    ∃ s', remapPage eightPages 0x40006000#64 0x40005000#64 13#32 (twoRegions 0x3003#64) =
        some (efiSuccess, s') ∧
      (twoRegions 0x3003#64).hasRight 0x40200000#64 .user = false ∧
      s'.hasRight 0x40200000#64 .user = true := by
  have run : (remapPage eightPages 0x40006000#64 0x40005000#64 13#32 (twoRegions 0x3003#64)).map
      (fun r => (r.1, r.2.hasRight 0x40200000#64 .user)) = some (efiSuccess, true) := by
    decide +kernel
  obtain ⟨⟨status, s'⟩, returned, same⟩ := Option.map_eq_some_iff.mp run
  obtain ⟨rfl, gained⟩ := Prod.mk.inj same
  exact ⟨twoRegions.wellFormed (by decide), twoRegions.fresh (by decide),
    ⟨1, by decide +kernel, by decide⟩, s', returned, by decide +kernel, gained⟩

theorem other_page_after_remap :
    (∃ s', remapPage eightPages 0x40006000#64 0x40005000#64 13#32 (twoRegions 0x3003#64) =
        some (efiSuccess, s') ∧
      OtherRights (twoRegions 0x3003#64) s' 0x40006000#64 0x40200000#64 13#32) ∧
    ∃ s', remapUserCodePage eightPages 0x40005000#64 (twoRegions 0x3003#64) =
        some (efiSuccess, s') ∧
      s'.hasRight 0x40005000#64 .write = true ∧ s'.hasRight 0x40005000#64 .user = false ∧
        s'.hasRight 0x40005000#64 .execute = false := by
  have once : (remapPage eightPages 0x40006000#64 0x40005000#64 13#32 (twoRegions 0x3003#64)).map
      (·.1) = some efiSuccess := by decide +kernel
  have twice : (remapUserCodePage eightPages 0x40005000#64 (twoRegions 0x3003#64)).map (·.1) =
      some efiSuccess := by decide +kernel
  obtain ⟨⟨_, s'⟩, returned, rfl⟩ := Option.map_eq_some_iff.mp once
  obtain ⟨⟨_, s''⟩, returned', same⟩ := Option.map_eq_some_iff.mp twice
  obtain rfl : _ = efiSuccess := same
  have wellFormed : (twoRegions 0x3003#64).WellFormed := twoRegions.wellFormed (by decide)
  have fresh : FreshPages eightPages _ (twoRegions 0x3003#64).nodes := twoRegions.fresh (by decide)
  exact ⟨⟨s', returned, other_pages_after_remap.1 _ _ _ _ _ _ _ wellFormed fresh
      ⟨1, by decide +kernel, by decide⟩ returned⟩,
    s'', returned', other_pages_after_remap.2 _ _ _ _ wellFormed fresh (by decide) returned'⟩

end PmcBruteforce
