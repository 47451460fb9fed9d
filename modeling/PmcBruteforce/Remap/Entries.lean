import PmcBruteforce.Remap.Remap

/-! What the code does to single entries, bit by bit. -/
namespace PmcBruteforce

theorem getLsbD_flag (c : Bool) (n i : Nat) (h : n < 64) :
    (if c then BitVec.twoPow 64 n else 0#64).getLsbD i = (c && decide (i = n)) := by
  cases c with
  | false => simp
  | true =>
    simp only [if_true, BitVec.getLsbD_twoPow, Bool.true_and, h, decide_true, eq_comm (a := n)]

theorem getLsbD_no_execute (i : Nat) : pageNoExecute.getLsbD i = decide (i = 63) := by
  have flag := getLsbD_flag true 63 i (by decide)
  rw [if_pos rfl, Bool.true_and] at flag
  exact flag

theorem getLsbD_pteProt (prot : BitVec 32) (i : Nat) :
    (pteProt prot).getLsbD i =
      (decide (i = 0) || (asks prot protWrite && decide (i = 1)) ||
        (asks prot protUser && decide (i = 2)) || (!asks prot protExec && decide (i = 63))) := by
  have present := getLsbD_flag true 0 i (by decide)
  simp only [if_true, Bool.true_and] at present
  simp only [pteProt, BitVec.getLsbD_or, pagePresent, pageWritable, pageUser, pageNoExecute, present,
    getLsbD_flag _ 1 i (by decide), getLsbD_flag _ 2 i (by decide), getLsbD_flag _ 63 i (by decide)]

theorem comparison_iff (e prot : PageEntry) :
    e &&& prot = prot &&& ~~~pageNoExecute ↔
      ∀ n, prot.getLsbD n = true → e.getLsbD n = !decide (n = 63) := by
  constructor
  · intro same n asked
    have inside : n < 64 := BitVec.lt_of_getLsbD asked
    have bit := congrArg (fun x => BitVec.getLsbD x n) same
    simpa only [BitVec.getLsbD_and, BitVec.getLsbD_not, getLsbD_no_execute, asked, inside,
      decide_true, Bool.true_and, Bool.and_true] using bit
  · intro bits
    apply BitVec.eq_of_getLsbD_eq
    intro n inside
    simp only [BitVec.getLsbD_and, BitVec.getLsbD_not, getLsbD_no_execute, inside, decide_true,
      Bool.true_and]
    cases asked : prot.getLsbD n with
    | false => simp
    | true => rw [bits n asked, Bool.and_true, Bool.true_and]

/-- An entry after the mask comparison and the write it guards. -/
def patchedEntry (prot : BitVec 32) (e : PageEntry) : PageEntry :=
  if e &&& pteProt prot ≠ pteProt prot &&& ~~~pageNoExecute then
    (e ||| pteProt prot) &&& ~~~pageNoExecute
  else e

/-- The entry of a table has what is asked for already. -/
def Suffices (prot : BitVec 32) (e : PageEntry) : Prop :=
  (asks prot protWrite = true → e.getLsbD 1 = true) ∧
    (asks prot protUser = true → e.getLsbD 2 = true) ∧
    (asks prot protExec = false → e.getLsbD 63 = false)

instance (prot : BitVec 32) (e : PageEntry) : Decidable (Suffices prot e) :=
  inferInstanceAs (Decidable (_ ∧ _ ∧ _))

theorem comparison_iff_suffices {e : PageEntry} (prot : BitVec 32) (present : e.getLsbD 0 = true) :
    e &&& pteProt prot = pteProt prot &&& ~~~pageNoExecute ↔ Suffices prot e := by
  rw [comparison_iff, Suffices]
  constructor
  · intro bits
    refine ⟨fun asked => ?_, fun asked => ?_, fun asked => ?_⟩
    · exact bits 1 (by rw [getLsbD_pteProt, asked]; rfl)
    · exact bits 2 (by rw [getLsbD_pteProt, asked]; simp)
    · exact bits 63 (by rw [getLsbD_pteProt, asked]; simp)
  · rintro ⟨write, user, execute⟩ n asked
    simp only [getLsbD_pteProt, Bool.or_eq_true, Bool.and_eq_true, Bool.not_eq_true',
      decide_eq_true_eq] at asked
    rcases asked with ((rfl | ⟨asked, rfl⟩) | ⟨asked, rfl⟩) | ⟨asked, rfl⟩
    · rw [present]; rfl
    · rw [write asked]; rfl
    · rw [user asked]; rfl
    · rw [execute asked]; rfl

theorem patchedEntry_of_suffices {prot : BitVec 32} {e : PageEntry} (present : e.getLsbD 0 = true)
    (suffices_ : Suffices prot e) : patchedEntry prot e = e := by
  rw [patchedEntry, if_neg]
  exact not_not_intro ((comparison_iff_suffices prot present).mpr suffices_)

theorem getLsbD_patchedEntry {prot : BitVec 32} {e : PageEntry} (present : e.getLsbD 0 = true)
    (rewritten : ¬ Suffices prot e) (n : Nat) :
    (patchedEntry prot e).getLsbD n =
      ((e.getLsbD n || (pteProt prot).getLsbD n) && !decide (n = 63)) := by
  rw [patchedEntry, if_pos (fun same => rewritten ((comparison_iff_suffices prot present).mp same))]
  by_cases inside : n < 64
  · simp only [BitVec.getLsbD_and, BitVec.getLsbD_or, BitVec.getLsbD_not, getLsbD_no_execute, inside,
      decide_true, Bool.true_and]
  · have outside : 64 ≤ n := by omega
    simp only [BitVec.getLsbD_of_ge _ n outside, Bool.or_self, Bool.false_and]

theorem patchedEntry_other {prot : BitVec 32} {e : PageEntry} (present : e.getLsbD 0 = true)
    {n : Nat} (other : n ≠ 1 ∧ n ≠ 2 ∧ n ≠ 63) :
    (patchedEntry prot e).getLsbD n = e.getLsbD n := by
  by_cases enough : Suffices prot e
  · rw [patchedEntry_of_suffices present enough]
  · rw [getLsbD_patchedEntry present enough, getLsbD_pteProt]
    by_cases zero : n = 0
    · subst zero
      simp [present]
    · simp [zero, other]

theorem patchedEntry_write {prot : BitVec 32} {e : PageEntry} (present : e.getLsbD 0 = true) :
    (patchedEntry prot e).getLsbD 1 = (e.getLsbD 1 || asks prot protWrite) := by
  by_cases enough : Suffices prot e
  · rw [patchedEntry_of_suffices present enough]
    cases asked : asks prot protWrite with
    | false => rw [Bool.or_false]
    | true => rw [enough.1 asked, Bool.or_true]
  · rw [getLsbD_patchedEntry present enough, getLsbD_pteProt]
    simp

theorem patchedEntry_user {prot : BitVec 32} {e : PageEntry} (present : e.getLsbD 0 = true) :
    (patchedEntry prot e).getLsbD 2 = (e.getLsbD 2 || asks prot protUser) := by
  by_cases enough : Suffices prot e
  · rw [patchedEntry_of_suffices present enough]
    cases asked : asks prot protUser with
    | false => rw [Bool.or_false]
    | true => rw [enough.2.1 asked, Bool.or_true]
  · rw [getLsbD_patchedEntry present enough, getLsbD_pteProt]
    simp

theorem patchedEntry_no_execute {prot : BitVec 32} {e : PageEntry} (present : e.getLsbD 0 = true) :
    (patchedEntry prot e).getLsbD 63 = (e.getLsbD 63 && decide (Suffices prot e)) := by
  by_cases enough : Suffices prot e
  · rw [patchedEntry_of_suffices present enough, decide_eq_true enough, Bool.and_true]
  · rw [getLsbD_patchedEntry present enough, decide_eq_false enough, Bool.and_false]
    simp

theorem hardwareChild_congr {level : Nat} {e e' : PageEntry}
    (same : ∀ n, n = 0 ∨ n = 7 ∨ 12 ≤ n ∧ n < 52 → e'.getLsbD n = e.getLsbD n) :
    hardwareChild level e' = hardwareChild level e := by
  have address : e' &&& addressMask = e &&& addressMask := by
    apply BitVec.eq_of_getLsbD_eq
    intro n _
    simp only [BitVec.getLsbD_and, getLsbD_addressMask]
    by_cases inside : 12 ≤ n ∧ n < 52
    · rw [same n (.inr (.inr inside))]
    · have outside : (decide (12 ≤ n) && decide (n < 52)) = false := by
        rw [← Bool.decide_and]
        exact decide_eq_false inside
      rw [outside, Bool.and_false, Bool.and_false]
  cases level with
  | zero => rfl
  | succ level =>
    simp only [hardwareChild, has_present, has_size, address, same 0 (.inl rfl),
      same 7 (.inr (.inl rfl))]

theorem hardwareChild_patchedEntry {level : Nat} {prot : BitVec 32} {e : PageEntry}
    (present : e.getLsbD 0 = true) :
    hardwareChild level (patchedEntry prot e) = hardwareChild level e :=
  hardwareChild_congr fun n kept => patchedEntry_other present (by omega)

def freshEntry (page : BitVec 64) : PageEntry :=
  page ||| pagePresent ||| pageWritable ||| pageUser

/-- An address `AllocatePages` returns: a page of the physical space. -/
def PageAddress (page : BitVec 64) : Prop := page &&& addressMask = page

instance (page : BitVec 64) : Decidable (PageAddress page) :=
  inferInstanceAs (Decidable (page &&& addressMask = page))

theorem PageAddress.getLsbD {page : BitVec 64} (h : PageAddress page) (n : Nat) :
    page.getLsbD n = (page.getLsbD n && (decide (12 ≤ n) && decide (n < 52))) := by
  rw [← getLsbD_addressMask, ← BitVec.getLsbD_and, h]

theorem PageAddress.bit_clear {page : BitVec 64} (h : PageAddress page) {n : Nat}
    (outside : n < 12 ∨ 52 ≤ n) : page.getLsbD n = false := by
  rw [h.getLsbD, ← Bool.decide_and, decide_eq_false (by omega), Bool.and_false]

theorem getLsbD_freshEntry (page : BitVec 64) (n : Nat) :
    (freshEntry page).getLsbD n = (page.getLsbD n || decide (n ≤ 2)) := by
  have present := getLsbD_flag true 0 n (by decide)
  have writable := getLsbD_flag true 1 n (by decide)
  have user := getLsbD_flag true 2 n (by decide)
  simp only [if_true, Bool.true_and] at present writable user
  simp only [freshEntry, BitVec.getLsbD_or, pagePresent, pageWritable, pageUser, present, writable,
    user, Bool.or_assoc, ← Bool.decide_or]
  congr 2
  grind

theorem hardwareChild_freshEntry {level : Nat} {page : BitVec 64} (h : PageAddress page) :
    hardwareChild (level + 1) (freshEntry page) = some page := by
  rw [hardwareChild_eq_some]
  refine ⟨?_, ?_, ?_⟩
  · rw [getLsbD_freshEntry]; simp
  · rw [getLsbD_freshEntry, h.bit_clear (by omega)]; rfl
  · apply BitVec.eq_of_getLsbD_eq
    intro n _
    rw [BitVec.getLsbD_and, getLsbD_freshEntry, getLsbD_addressMask, h.getLsbD n]
    grind

theorem suffices_freshEntry (prot : BitVec 32) {page : BitVec 64} (h : PageAddress page) :
    Suffices prot (freshEntry page) := by
  refine ⟨fun _ => ?_, fun _ => ?_, fun _ => ?_⟩
  · rw [getLsbD_freshEntry]; simp
  · rw [getLsbD_freshEntry]; simp
  · rw [getLsbD_freshEntry, h.bit_clear (by omega)]; rfl

theorem freshEntry_allows (r : Right) (level : Nat) {page : BitVec 64} (h : PageAddress page) :
    r.allows (level, freshEntry page) = true := by
  have low : ∀ n ≤ 2, (freshEntry page).getLsbD n = true := by
    intro n small
    rw [getLsbD_freshEntry, decide_eq_true small, Bool.or_true]
  have clear : ∀ n, 2 < n → (n < 12 ∨ 52 ≤ n) → (freshEntry page).getLsbD n = false := by
    intro n large outside
    rw [getLsbD_freshEntry, h.bit_clear outside, decide_eq_false (by omega), Bool.or_false]
  have granted : r.inEntry (freshEntry page) = true := by
    cases r with
    | read => rfl
    | write => exact (has_writable _).trans (low 1 (by omega))
    | user => exact (has_user _).trans (low 2 (by omega))
    | execute => rw [Right.inEntry, has_no_execute, clear 63 (by omega) (by omega)]; rfl
  rw [Right.allows, has_present, has_size, low 0 (by omega), clear 7 (by omega) (by omega), granted]
  simp

theorem getLsbD_nextTable (e : PageEntry) (n : Nat) :
    (nextTable e).getLsbD n = (e.getLsbD n && (decide (12 ≤ n) && decide (n < 63))) := by
  by_cases inside : n < 64
  · have all : ∀ i : Fin 64, (~~~(0xfff#64 ||| pageNoExecute)).getLsbD i =
        (decide (12 ≤ i.val) && decide (i.val < 63)) := by decide
    rw [nextTable, BitVec.getLsbD_and, all ⟨n, inside⟩]
  · have outside : 64 ≤ n := by omega
    simp only [BitVec.getLsbD_of_ge _ n outside, Bool.false_and]

/-- A pointer in the physical space is the address the processor takes: what the mask lets
through beyond that address is zero. -/
theorem pointer_eq {x mask : BitVec 64} (keeps : mask &&& 0x000fffffffffffff#64 = addressMask)
    (h : accessible (x &&& mask) = true) : x &&& mask = x &&& addressMask := by
  have bound : (x &&& mask).toNat < 2 ^ 52 := of_decide_eq_true h
  have low : x &&& mask &&& 0x000fffffffffffff#64 = x &&& mask := by
    apply BitVec.eq_of_toNat_eq
    rw [BitVec.toNat_and]
    exact (Nat.and_two_pow_sub_one_eq_mod _ 52).trans (Nat.mod_eq_of_lt bound)
  rw [← low, BitVec.and_assoc, keeps]

theorem nextTable_eq {e : PageEntry} (h : accessible (nextTable e) = true) :
    nextTable e = e &&& addressMask := pointer_eq (by decide) h

theorem nextTable_freshEntry {page : BitVec 64} (h : PageAddress page) :
    nextTable (freshEntry page) = page := by
  apply BitVec.eq_of_getLsbD_eq
  intro n _
  rw [getLsbD_nextTable, getLsbD_freshEntry, h.getLsbD n]
  grind

theorem add_frames_low (e : PageEntry) (k : Nat) {n : Nat} (low : n < 12) :
    (e + BitVec.ofNat 64 (2 ^ 12 * k)).getLsbD n = e.getLsbD n := by
  have sum : (e + BitVec.ofNat 64 (2 ^ 12 * k)).toNat % 2 ^ 12 = e.toNat % 2 ^ 12 := by
    rw [BitVec.toNat_add, BitVec.toNat_ofNat]
    omega
  have bits := congrArg (fun x => Nat.testBit x n) sum
  simp only [Nat.testBit_mod_two_pow, low, decide_true, Bool.true_and] at bits
  exact bits

theorem add_frames_high {e : PageEntry} {k : Nat} (inside : frameNumber e + k < 2 ^ 40) :
    frameNumber (e + BitVec.ofNat 64 (2 ^ 12 * k)) = frameNumber e + k ∧
      ∀ n, 52 ≤ n → (e + BitVec.ofNat 64 (2 ^ 12 * k)).getLsbD n = e.getLsbD n := by
  have bound := e.isLt
  rw [frameNumber_eq] at inside
  have sum : (e + BitVec.ofNat 64 (2 ^ 12 * k)).toNat = e.toNat + 2 ^ 12 * k := by
    rw [BitVec.toNat_add, BitVec.toNat_ofNat]
    omega
  refine ⟨?_, fun n high => ?_⟩
  · rw [frameNumber_eq, frameNumber_eq, sum]
    omega
  · have above : (e.toNat + 2 ^ 12 * k) / 2 ^ 52 = e.toNat / 2 ^ 52 := by omega
    have bits := congrArg (fun x => Nat.testBit x (n - 52)) above
    simp only [Nat.testBit_div_two_pow, Nat.sub_add_cancel high] at bits
    rw [BitVec.getLsbD, BitVec.getLsbD, sum]
    exact bits

def pieceBase (level : Nat) (e : PageEntry) : PageEntry :=
  if level = 0 then e &&& ~~~pageSize else e

theorem getLsbD_pieceBase (level : Nat) (e : PageEntry) (n : Nat) :
    (pieceBase level e).getLsbD n = (e.getLsbD n && !(decide (level = 0) && decide (n = 7))) := by
  have size := getLsbD_flag true 7 n (by decide)
  simp only [if_true, Bool.true_and] at size
  by_cases last : level = 0
  · by_cases inside : n < 64
    · simp only [pieceBase, last, if_true, BitVec.getLsbD_and, BitVec.getLsbD_not, inside, pageSize,
        size, decide_true, Bool.true_and]
    · have outside : 64 ≤ n := by omega
      simp only [BitVec.getLsbD_of_ge _ n outside, Bool.false_and]
  · simp only [pieceBase, last, if_false, decide_false, Bool.false_and, Bool.not_false, Bool.and_true]

theorem frameNumber_pieceBase (level : Nat) (e : PageEntry) :
    frameNumber (pieceBase level e) = frameNumber e := by
  rw [frameNumber, frameNumber]
  congr 1
  apply BitVec.eq_of_getLsbD_eq
  intro n _
  rw [BitVec.getLsbD_extractLsb', BitVec.getLsbD_extractLsb', getLsbD_pieceBase,
    decide_eq_false (by omega : ¬ 12 + n = 7), Bool.and_false, Bool.not_false, Bool.and_true]

theorem pieceOf_eq (level : Nat) (e : PageEntry) (j : Fin 512) :
    pieceOf level e j = pieceBase level e + BitVec.ofNat 64 (2 ^ 12 * (512 ^ level * j)) := by
  have offset : BitVec.twoPow 64 (12 + 9 * level) * BitVec.ofNat 64 j =
      BitVec.ofNat 64 (2 ^ 12 * (512 ^ level * j)) := by
    apply BitVec.eq_of_toNat_eq
    rw [BitVec.toNat_mul, BitVec.toNat_twoPow, BitVec.toNat_ofNat, BitVec.toNat_ofNat, ← Nat.mul_mod,
      Nat.pow_add, Nat.pow_mul, Nat.mul_assoc]
  simp only [pieceOf, pieceBase, offset]

theorem pieceOf_low (level : Nat) (e : PageEntry) (j : Fin 512) {n : Nat} (low : n < 12) :
    (pieceOf level e j).getLsbD n =
      (e.getLsbD n && !(decide (level = 0) && decide (n = 7))) := by
  rw [pieceOf_eq, add_frames_low _ _ low, getLsbD_pieceBase]

/-- The pieces of a proper large page: the frames follow each other, and nothing reaches
the bits above the address. -/
theorem pieceOf_high {level : Nat} {e : PageEntry} (inside : frameNumber e + 512 ^ (level + 1) ≤ 2 ^ 40)
    (j : Fin 512) :
    frameNumber (pieceOf level e j) = frameNumber e + 512 ^ level * j ∧
      ∀ n, 52 ≤ n → (pieceOf level e j).getLsbD n = e.getLsbD n := by
  have reach : 512 ^ level * j.val < 512 ^ (level + 1) := by
    rw [Nat.pow_succ]
    exact Nat.mul_lt_mul_of_pos_left j.isLt (Nat.pow_pos (by decide))
  have sum := add_frames_high (e := pieceBase level e) (k := 512 ^ level * j)
    (by rw [frameNumber_pieceBase]; omega)
  rw [pieceOf_eq]
  refine ⟨by rw [sum.1, frameNumber_pieceBase], fun n high => ?_⟩
  rw [sum.2 n high, getLsbD_pieceBase, decide_eq_false (by omega : ¬ n = 7), Bool.and_false,
    Bool.not_false, Bool.and_true]

/-- The table that comes in place of an entry which leads to none. -/
def freshTable (level : Nat) (e : PageEntry) : Fin 512 → PageEntry :=
  if has e pageSize then pieceOf level e else fun _ => 0#64

theorem freshTable_present (level : Nat) (e : PageEntry) (j : Fin 512) :
    (freshTable level e j).getLsbD 0 = (e.getLsbD 0 && e.getLsbD 7) := by
  cases size : e.getLsbD 7 with
  | false => rw [freshTable, has_size, size]; simp
  | true => rw [freshTable, has_size, size, if_pos rfl, pieceOf_low _ _ _ (by omega)]; simp

theorem hardwareChild_freshTable {level : Nat} {e : PageEntry} (j : Fin 512) :
    hardwareChild level (freshTable level e j) = none := by
  cases level with
  | zero => rfl
  | succ level =>
    rw [hardwareChild_eq_none, freshTable_present]
    intro present
    obtain ⟨_, size⟩ := Bool.and_eq_true_iff.mp present
    rw [freshTable, has_size, size, if_pos rfl, pieceOf_low _ _ _ (by omega), size,
      decide_eq_false (Nat.succ_ne_zero level)]
    rfl

theorem freshTable_of_large {level : Nat} {e : PageEntry} (present : e.getLsbD 0 = true)
    (noTable : hardwareChild (level + 1) e = none) : freshTable level e = pieceOf level e := by
  rw [freshTable, has_size, hardwareChild_eq_none.mp noTable present, if_pos rfl]

/-- An entry of a fresh table grants what the entry in whose place the table came granted. -/
theorem freshTable_allows {level : Nat} {e : PageEntry} (proper : ProperEntry (level + 1) e)
    (noTable : hardwareChild (level + 1) e = none) (r : Right) (j : Fin 512) :
    r.allows (level, freshTable level e j) = r.allows (level + 1, e) := by
  cases present : e.getLsbD 0 with
  | false =>
    have absent : (freshTable level e j).getLsbD 0 = false := by
      rw [freshTable_present, present, Bool.false_and]
    simp only [Right.allows, has_present, present, absent, Bool.false_and]
  | true =>
    have size := hardwareChild_eq_none.mp noTable present
    obtain ⟨height, inside⟩ := proper present size (Nat.succ_pos level)
    have low : ∀ n < 12, n ≠ 7 → (pieceOf level e j).getLsbD n = e.getLsbD n := by
      intro n small other
      rw [pieceOf_low _ _ _ small, decide_eq_false other, Bool.and_false, Bool.not_false,
        Bool.and_true]
    have granted : r.inEntry (pieceOf level e j) = r.inEntry e := by
      cases r with
      | read => rfl
      | write => rw [Right.inEntry, Right.inEntry, has_writable, has_writable, low 1 (by omega) (by omega)]
      | user => rw [Right.inEntry, Right.inEntry, has_user, has_user, low 2 (by omega) (by omega)]
      | execute =>
        rw [Right.inEntry, Right.inEntry, has_no_execute, has_no_execute,
          (pieceOf_high inside j).2 63 (by omega)]
    rw [freshTable_of_large present noTable]
    simp only [Right.allows, has_present, low 0 (by omega) (by omega), granted,
      decide_eq_false (by omega : ¬ 3 ≤ level), decide_eq_false (by omega : ¬ 3 ≤ level + 1),
      Bool.false_and]

theorem properEntry_freshTable {level : Nat} {e : PageEntry} (proper : ProperEntry (level + 1) e)
    (noTable : hardwareChild (level + 1) e = none) (j : Fin 512) :
    ProperEntry level (freshTable level e j) := by
  intro present size above
  rw [freshTable_present] at present
  have present' := (Bool.and_eq_true_iff.mp present).1
  obtain ⟨height, inside⟩ := proper present' (Bool.and_eq_true_iff.mp present).2 (Nat.succ_pos level)
  have last : 512 ^ level * (j.val + 1) ≤ 512 ^ (level + 1) := by
    rw [Nat.pow_succ]
    exact Nat.mul_le_mul_left _ j.isLt
  rw [freshTable_of_large present' noTable, (pieceOf_high inside j).1]
  rw [Nat.mul_succ] at last
  omega

end PmcBruteforce
