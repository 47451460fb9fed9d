import PmcBruteforce.Remap.PageTable

/-! `remap_page`. The walk of the source counts `i` up to PT; here the recursion is on what is
left of it. Tables are read and written through the identity map, which ends with the
52-bit physical space: a pointer above it faults, and `none` is that fault. -/
namespace PmcBruteforce

/-- What `AllocatePages` answers, call by call. -/
structure PageAllocator where
  status : Nat → EfiStatus
  page : Nat → BitVec 64

def protRead : BitVec 64 := BitVec.twoPow 64 0
def protWrite : BitVec 64 := BitVec.twoPow 64 1
def protExec : BitVec 64 := BitVec.twoPow 64 2
def protUser : BitVec 64 := BitVec.twoPow 64 3

/-- `prot & flag` as a condition, with `prot` widened to the flag's type. -/
def asks (prot : BitVec 32) (flag : BitVec 64) : Bool := has (prot.setWidth 64) flag

def pteProt (prot : BitVec 32) : PageEntry :=
  pagePresent ||| (if asks prot protWrite then pageWritable else 0#64) |||
    (if asks prot protUser then pageUser else 0#64) |||
    (if !asks prot protExec then pageNoExecute else 0#64)

namespace Paging

def setTable (s : Paging) (table : BitVec 64) (entries : Fin 512 → PageEntry) : Paging :=
  { s with tables := Function.update s.tables table entries }

def setEntry (s : Paging) (table : BitVec 64) (i : Fin 512) (e : PageEntry) : Paging :=
  s.setTable table (Function.update (s.tables table) i e)

end Paging

def allocateZeroedPage (a : PageAllocator) (s : Paging) : EfiStatus × BitVec 64 × Paging :=
  let status := a.status s.allocations
  let page := a.page s.allocations
  let s := { s with allocations := s.allocations + 1 }
  if status = efiSuccess then (status, page, s.setTable page fun _ => 0#64) else (status, 0#64, s)

/-- Entry `j` of the table a large page is split into. The new table is of this level. -/
def pieceOf (level : Nat) (curPte : PageEntry) (j : Fin 512) : PageEntry :=
  let curPte := if level = 0 then curPte &&& ~~~pageSize else curPte
  let offsetToAdd := BitVec.twoPow 64 (12 + 9 * level)
  curPte + offsetToAdd * BitVec.ofNat 64 j

/-- The branch that makes a table of the next level where there is none. -/
def enterTable (a : PageAllocator) (nextLevel : Nat) (table : BitVec 64) (i : Fin 512)
    (s : Paging) : EfiStatus × PageEntry × Paging :=
  let curPte := s.tables table i
  if !has curPte pagePresent || has curPte pageSize then
    match allocateZeroedPage a s with
    | (status, newPageTable, s) =>
      if status ≠ efiSuccess then (status, curPte, s)
      else
        let s := if has curPte pageSize then s.setTable newPageTable (pieceOf nextLevel curPte) else s
        let curPte := newPageTable ||| pagePresent ||| pageWritable ||| pageUser
        (status, curPte, s.setEntry table i curPte)
  else (efiSuccess, curPte, s)

def patchEntry (prot : PageEntry) (table : BitVec 64) (i : Fin 512) (curPte : PageEntry)
    (s : Paging) : Paging :=
  if curPte &&& prot ≠ prot &&& ~~~pageNoExecute then
    s.setEntry table i ((curPte ||| prot) &&& ~~~pageNoExecute)
  else s

/-- The next `cur_page_table`. -/
def nextTable (curPte : PageEntry) : BitVec 64 := curPte &&& ~~~(0xfff#64 ||| pageNoExecute)

/-- The identity map has the table. -/
def accessible (table : BitVec 64) : Bool := decide (table.toNat < 2 ^ 52)

/-- The loop and the write behind it, from `PT - i` levels above the last table. -/
def remapLevels (a : PageAllocator) (virt phys : BitVec 64) (prot : PageEntry) :
    Nat → BitVec 64 → Paging → Option (EfiStatus × Paging)
  | 0, table, s =>
    if accessible table then some (efiSuccess, s.setEntry table (ptIndex virt 0) (phys ||| prot))
    else none
  | level + 1, table, s =>
    if accessible table then
      match enterTable a level table (ptIndex virt (level + 1)) s with
      | (status, curPte, s) =>
        if status ≠ efiSuccess then some (status, s)
        else
          remapLevels a virt phys prot level (nextTable curPte)
            (patchEntry prot table (ptIndex virt (level + 1)) curPte s)
    else none

def remapPage (a : PageAllocator) (virt phys : BitVec 64) (prot : BitVec 32) (s : Paging) :
    Option (EfiStatus × Paging) :=
  let curPageTable := s.cr3 &&& ~~~0xfff#64
  let origCr0 := s.cr0
  match remapLevels a virt phys (pteProt prot) s.topLevel curPageTable
      { s with cr0 := origCr0 &&& ~~~cr0Wp } with
  | none => none
  | some (status, s) =>
    -- The failure path returns from inside the loop, with CR0 as the loop has it.
    if status ≠ efiSuccess then some (status, s) else some (efiSuccess, { s with cr0 := origCr0 })

end PmcBruteforce
