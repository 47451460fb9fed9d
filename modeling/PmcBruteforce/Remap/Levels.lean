import PmcBruteforce.Remap.Entries

/-! A call that succeeds, level by level: what one level reads and writes. -/
namespace PmcBruteforce

/-- The state in which the next level is entered through a table that was there. -/
def Paging.patched (s : Paging) (prot : BitVec 32) (table : BitVec 64) (i : Fin 512) : Paging :=
  s.setEntry table i (patchedEntry prot (s.tables table i))

/-- And through a fresh one. -/
def Paging.linked (s : Paging) (level : Nat) (page table : BitVec 64) (i : Fin 512) : Paging :=
  { (s.setTable page (freshTable level (s.tables table i))).setEntry table i (freshEntry page) with
    allocations := s.allocations + 1 }

/-- A call that succeeds, from a table of a level on. -/
inductive Remaps (a : PageAllocator) (virt phys : BitVec 64) (prot : BitVec 32) :
    Nat → BitVec 64 → Paging → Paging → Prop
  | leaf {table : BitVec 64} {s : Paging} :
    Remaps a virt phys prot 0 table s (s.setEntry table (ptIndex virt 0) (phys ||| pteProt prot))
  | table {level : Nat} {table sub : BitVec 64} {s s' : Paging}
    (child : hardwareChild (level + 1) (s.tables table (ptIndex virt (level + 1))) = some sub)
    (rest : Remaps a virt phys prot level sub (s.patched prot table (ptIndex virt (level + 1))) s') :
    Remaps a virt phys prot (level + 1) table s s'
  | fresh {level : Nat} {table : BitVec 64} {s s' : Paging}
    (noTable : hardwareChild (level + 1) (s.tables table (ptIndex virt (level + 1))) = none)
    (allocated : a.status s.allocations = efiSuccess)
    (rest : Remaps a virt phys prot level (a.page s.allocations)
      (s.linked level (a.page s.allocations) table (ptIndex virt (level + 1))) s') :
    Remaps a virt phys prot (level + 1) table s s'

/-- The way of a call from a table of a level down to where it ends. -/
inductive Descends (a : PageAllocator) (virt : BitVec 64) (prot : BitVec 32)
    (ends : Nat → BitVec 64 → Paging → Paging → Prop) : Nat → BitVec 64 → Paging → Paging → Prop
  | ended {level : Nat} {table : BitVec 64} {s s' : Paging} (h : ends level table s s') :
    Descends a virt prot ends level table s s'
  | table {level : Nat} {table sub : BitVec 64} {s s' : Paging}
    (child : hardwareChild (level + 1) (s.tables table (ptIndex virt (level + 1))) = some sub)
    (rest : Descends a virt prot ends level sub
      (s.patched prot table (ptIndex virt (level + 1))) s') :
    Descends a virt prot ends (level + 1) table s s'
  | fresh {level : Nat} {table : BitVec 64} {s s' : Paging}
    (noTable : hardwareChild (level + 1) (s.tables table (ptIndex virt (level + 1))) = none)
    (allocated : a.status s.allocations = efiSuccess)
    (rest : Descends a virt prot ends level (a.page s.allocations)
      (s.linked level (a.page s.allocations) table (ptIndex virt (level + 1))) s') :
    Descends a virt prot ends (level + 1) table s s'

/-- The end of a call that succeeds. -/
inductive LeafWritten (virt phys : BitVec 64) (prot : BitVec 32) :
    Nat → BitVec 64 → Paging → Paging → Prop
  | leaf (table : BitVec 64) (s : Paging) :
    LeafWritten virt phys prot 0 table s (s.setEntry table (ptIndex virt 0) (phys ||| pteProt prot))

/-- The end of a call for which the allocator has no page. -/
inductive Refused (a : PageAllocator) (virt : BitVec 64) :
    Nat → BitVec 64 → Paging → Paging → Prop
  | refused {level : Nat} {table : BitVec 64} {s : Paging}
    (noTable : hardwareChild (level + 1) (s.tables table (ptIndex virt (level + 1))) = none)
    (failed : a.status s.allocations ≠ efiSuccess) :
    Refused a virt (level + 1) table s { s with allocations := s.allocations + 1 }

theorem Remaps.descends {a : PageAllocator} {virt phys : BitVec 64} {prot : BitVec 32} {level : Nat}
    {table : BitVec 64} {s s' : Paging} (h : Remaps a virt phys prot level table s s') :
    Descends a virt prot (LeafWritten virt phys prot) level table s s' := by
  induction h with
  | leaf => exact .ended (.leaf _ _)
  | table child rest ih => exact .table child ih
  | fresh noTable allocated rest ih => exact .fresh noTable allocated ih

theorem Descends.registers {a : PageAllocator} {virt : BitVec 64} {prot : BitVec 32}
    {ends : Nat → BitVec 64 → Paging → Paging → Prop}
    (ended : ∀ level table s s', ends level table s s' →
      s'.cr0 = s.cr0 ∧ s'.cr3 = s.cr3 ∧ s'.cr4 = s.cr4)
    {level : Nat} {table : BitVec 64} {s s' : Paging}
    (h : Descends a virt prot ends level table s s') :
    s'.cr0 = s.cr0 ∧ s'.cr3 = s.cr3 ∧ s'.cr4 = s.cr4 := by
  induction h with
  | ended h => exact ended _ _ _ _ h
  | table child rest ih => exact ih
  | fresh noTable allocated rest ih => exact ih

theorem LeafWritten.registers {virt phys : BitVec 64} {prot : BitVec 32} {level : Nat}
    {table : BitVec 64} {s s' : Paging} (h : LeafWritten virt phys prot level table s s') :
    s'.cr0 = s.cr0 ∧ s'.cr3 = s.cr3 ∧ s'.cr4 = s.cr4 := by
  cases h
  exact ⟨rfl, rfl, rfl⟩

theorem Refused.registers {a : PageAllocator} {virt : BitVec 64} {level : Nat} {table : BitVec 64}
    {s s' : Paging} (h : Refused a virt level table s s') :
    s'.cr0 = s.cr0 ∧ s'.cr3 = s.cr3 ∧ s'.cr4 = s.cr4 := by
  cases h
  exact ⟨rfl, rfl, rfl⟩

theorem patchEntry_eq (prot : BitVec 32) (table : BitVec 64) (i : Fin 512) (s : Paging) :
    patchEntry (pteProt prot) table i (s.tables table i) s = s.patched prot table i := by
  rw [patchEntry, Paging.patched, patchedEntry]
  split
  · rfl
  · simp only [Paging.setEntry, Paging.setTable, Function.update_eq_self]

theorem patchEntry_freshEntry (prot : BitVec 32) {page : BitVec 64} (address : PageAddress page)
    (table : BitVec 64) (i : Fin 512) (s : Paging) :
    patchEntry (pteProt prot) table i (freshEntry page) s = s := by
  have present : (freshEntry page).getLsbD 0 = true := by rw [getLsbD_freshEntry]; simp
  rw [patchEntry, if_neg]
  exact not_not_intro
    ((comparison_iff_suffices prot present).mpr (suffices_freshEntry prot address))

theorem accessible_of_returned {a : PageAllocator} {virt phys table : BitVec 64} {prot : PageEntry}
    {level : Nat} {s : Paging} {result : EfiStatus × Paging}
    (returned : remapLevels a virt phys prot level table s = some result) :
    accessible table = true := by
  by_contra outside
  cases level with
  | zero => simp [remapLevels, outside] at returned
  | succ level => simp [remapLevels, outside] at returned

theorem enterTable_of_table (a : PageAllocator) {level : Nat} {table sub : BitVec 64} {i : Fin 512}
    {s : Paging} (child : hardwareChild (level + 1) (s.tables table i) = some sub) :
    enterTable a level table i s = (efiSuccess, s.tables table i, s) := by
  obtain ⟨present, size, -⟩ := hardwareChild_eq_some.mp child
  simp only [enterTable, has_present, has_size, present, size, Bool.not_true, Bool.or_self]
  rfl

theorem enterTable_of_none (a : PageAllocator) {level : Nat} {table : BitVec 64} {i : Fin 512}
    {s : Paging} (noTable : hardwareChild (level + 1) (s.tables table i) = none) :
    (a.status s.allocations = efiSuccess ∧ enterTable a level table i s =
      (efiSuccess, freshEntry (a.page s.allocations),
        s.linked level (a.page s.allocations) table i)) ∨
    (a.status s.allocations ≠ efiSuccess ∧ enterTable a level table i s =
      (a.status s.allocations, s.tables table i, { s with allocations := s.allocations + 1 })) := by
  have entered : (!has (s.tables table i) pagePresent || has (s.tables table i) pageSize) = true := by
    have := hardwareChild_eq_none.mp noTable
    simp only [has_present, has_size]
    cases present : (s.tables table i).getLsbD 0 with
    | false => rfl
    | true => rw [this present]; rfl
  by_cases ok : a.status s.allocations = efiSuccess
  · refine .inl ⟨ok, ?_⟩
    simp only [enterTable, entered, if_true, allocateZeroedPage, ok, ne_eq, not_true_eq_false,
      if_false]
    cases large : has (s.tables table i) pageSize <;>
      simp [Paging.linked, Paging.setEntry, Paging.setTable, freshTable, freshEntry, large]
  · have allocated : allocateZeroedPage a s =
        (a.status s.allocations, 0#64, { s with allocations := s.allocations + 1 }) := if_neg ok
    refine .inr ⟨ok, ?_⟩
    simp only [enterTable, entered, if_true, allocated, ne_eq, ok, not_false_eq_true]

/-- A call that returns has either written its leaf or was refused a page on the way. -/
theorem levels_of_returned {a : PageAllocator} {virt phys : BitVec 64} {prot : BitVec 32}
    {level : Nat} {table : BitVec 64} {status : EfiStatus} {s s' : Paging}
    (address : ∀ k ≥ s.allocations, a.status k = efiSuccess → PageAddress (a.page k))
    (returned : remapLevels a virt phys (pteProt prot) level table s = some (status, s')) :
    status = efiSuccess ∧ Remaps a virt phys prot level table s s' ∨
      status ≠ efiSuccess ∧ Descends a virt prot (Refused a virt) level table s s' := by
  induction level generalizing table s with
  | zero =>
    have access := accessible_of_returned returned
    simp only [remapLevels, access, if_true, Option.some.injEq, Prod.mk.injEq] at returned
    obtain ⟨rfl, rfl⟩ := returned
    exact .inl ⟨rfl, .leaf⟩
  | succ level ih =>
    have access := accessible_of_returned returned
    cases child : hardwareChild (level + 1) (s.tables table (ptIndex virt (level + 1))) with
    | some sub =>
      simp only [remapLevels, access, if_true, enterTable_of_table a child, ne_eq,
        not_true_eq_false, if_false, patchEntry_eq] at returned
      have pointer := nextTable_eq (accessible_of_returned returned)
      rw [(hardwareChild_eq_some.mp child).2.2] at pointer
      rw [pointer] at returned
      have later := ih (s := s.patched prot table (ptIndex virt (level + 1))) address returned
      rcases later with ⟨ok, rest⟩ | ⟨failed, rest⟩
      · exact .inl ⟨ok, .table child rest⟩
      · exact .inr ⟨failed, .table child rest⟩
    | none =>
      rcases enterTable_of_none a child with ⟨ok, entered⟩ | ⟨failed, entered⟩
      · have page := address _ le_rfl ok
        simp only [remapLevels, access, if_true, entered, ne_eq, not_true_eq_false, if_false,
          nextTable_freshEntry page, patchEntry_freshEntry prot page] at returned
        have later := ih
          (s := s.linked level (a.page s.allocations) table (ptIndex virt (level + 1)))
          (fun k ge => address k ((Nat.le_succ _).trans ge)) returned
        rcases later with ⟨success, rest⟩ | ⟨failed, rest⟩
        · exact .inl ⟨success, .fresh child ok rest⟩
        · exact .inr ⟨failed, .fresh child ok rest⟩
      · simp only [remapLevels, access, if_true, entered, ne_eq, failed, not_false_eq_true,
          Option.some.injEq, Prod.mk.injEq] at returned
        obtain ⟨rfl, rfl⟩ := returned
        exact .inr ⟨failed, .ended (.refused child failed)⟩

end PmcBruteforce
