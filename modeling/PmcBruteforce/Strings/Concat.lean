import Mathlib.Data.Int.Order.Basic
import PmcBruteforce.Library.Memory

/-! `strcat_s` of string.c. The source is another object than the destination, so the copy does
not change what is still to be copied. -/
namespace PmcBruteforce

open Library (store overwrite text)

/-- The loop to the end of `dst`, with `dest_size` and `cur_dst`. -/
def skipDst (dst : List Int8) : (destSize curDst : Nat) → Option (Nat × Nat)
  | 0, curDst => some (0, curDst)
  | destSize + 1, curDst => do
    let char ← dst[curDst]?
    if char ≠ 0 then skipDst dst destSize (curDst + 1) else some (destSize + 1, curDst)

/-- The variables of the copy. -/
structure StrcatCopy where
  src : List Int8
  destSize : Nat
  dst : List Int8
  curDst : Nat
  deriving DecidableEq, Repr

def copySrc : (src : List Int8) → (destSize : Nat) → (dst : List Int8) → (curDst : Nat) →
    Option StrcatCopy
  | src, 0, dst, curDst => some ⟨src, 0, dst, curDst⟩
  | [], _ + 1, _, _ => none
  | char :: src, destSize + 1, dst, curDst =>
    if char ≠ 0 then do
      let dst ← store dst curDst char
      copySrc src destSize dst (curDst + 1)
    else some ⟨char :: src, destSize + 1, dst, curDst⟩

inductive StrcatResult where
  | halted (message : String)
  | returned (printed : String) (status : Int) (dst : List Int8)
  deriving DecidableEq, Repr

/-- The end of the function: the buffer was too short, or the NUL goes behind the copy. -/
def finishStrcat (c : StrcatCopy) : Option StrcatResult := do
  let overflow ← if c.destSize = 0 then c.src.head?.map (· != 0) else some false
  if overflow then
    let dst ← store c.dst 0 0
    some (.returned "strcat_s: BUFFER OVERFLOW PREVENTED!!!\r\n" 1 dst)
  else
    let dst ← store c.dst c.curDst 0
    some (.returned "" 0 dst)

/-- A NULL argument is `none`. -/
def strcatS (dst : Option (List Int8)) (destSize : Nat) (src : Option (List Int8)) :
    Option StrcatResult :=
  match dst, src with
  | none, _ => some (.halted "strcat_s: dst is NULL!!!\r\n")
  | some _, none => some (.halted "strcat_s: src is NULL!!!\r\n")
  | some dst, some src =>
    if destSize = 0 then some (.halted "strcat_s: dest_size == 0!!!\r\n")
    else do
      let (destSize, curDst) ← skipDst dst destSize 0
      if destSize = 0 then some (.halted "strcat_s: BUFFER OVERFLOWED!!!\r\n")
      else do
        let copy ← copySrc src destSize dst curDst
        finishStrcat copy

/-- What `strcat_s` is for, in a buffer that has `dst.length` bytes and no others. -/
structure Concatenates (dst src : List Int8) (printed : String) (status : Int)
    (dst' : List Int8) : Prop where
  returned : strcatS (some dst) dst.length (some src) = some (.returned printed status dst')
  fits : status = 0 ↔ (text 0 dst).length + (text 0 src).length < dst.length
  terminated : 0 ∈ dst'
  concatenation : status = 0 → text 0 dst' = text 0 dst ++ text 0 src
  refused : status ≠ 0 → status = 1 ∧ text 0 dst' = []

theorem skipDst_eq {as : List Int8} (noNul : 0 ∉ as) (front rest : List Int8) {size : Nat}
    (room : as.length < size) :
    skipDst (front ++ (as ++ 0 :: rest)) size front.length =
      some (size - as.length, front.length + as.length) := by
  induction as generalizing front size with
  | nil =>
    cases size with
    | zero => exact absurd room (Nat.not_lt_zero _)
    | succ size => simp [skipDst]
  | cons a as ih =>
    cases size with
    | zero => exact absurd room (Nat.not_lt_zero _)
    | succ size =>
      have char : a ≠ 0 := fun zero => noNul (zero ▸ List.mem_cons_self)
      have next := ih (fun member => noNul (List.mem_cons_of_mem _ member)) (front ++ [a])
        (Nat.lt_of_succ_lt_succ room)
      rw [List.append_assoc, List.length_append, List.length_singleton] at next
      rw [skipDst]
      simp only [List.cons_append, List.getElem?_append_right (Nat.le_refl _), Nat.sub_self,
        List.getElem?_cons_zero, Option.bind_eq_bind, Option.bind_some, if_pos char]
      rw [List.length_cons, Nat.succ_sub_succ, Nat.add_comm as.length, ← Nat.add_assoc]
      exact next

theorem copySrc_eq {as : List Int8} (noNul : 0 ∉ as) (tail : List Int8) {m : List Int8}
    {i size : Nat} (inside : i + size ≤ m.length) :
    copySrc (as ++ 0 :: tail) size m i = some ⟨as.drop size ++ 0 :: tail, size - as.length,
      overwrite m i (as.take size), i + min size as.length⟩ := by
  induction as generalizing m i size with
  | nil =>
    cases size with
    | zero => simp [copySrc]
    | succ size => simp [copySrc]
  | cons a as ih =>
    cases size with
    | zero => simp [copySrc]
    | succ size =>
      have char : a ≠ 0 := fun zero => noNul (zero ▸ List.mem_cons_self)
      have stored := Library.store_inside (m := m) (i := i) (by omega) a
      have size' : (overwrite m i [a]).length = m.length :=
        Library.overwrite_length (by rw [List.length_singleton]; omega)
      have room : i + 1 + size ≤ (overwrite m i [a]).length := by
        rw [size']
        omega
      have next := ih (fun member => noNul (List.mem_cons_of_mem _ member)) room
      have joined : overwrite (overwrite m i [a]) (i + 1) (as.take size) =
          overwrite m i (a :: as.take size) := by
        apply Library.overwrite_cons
        have bound := List.length_take_le size as
        rw [List.length_cons]
        omega
      rw [joined] at next
      simp only [List.cons_append, copySrc, if_pos char, stored, Option.bind_eq_bind,
        Option.bind_some, next, List.drop_succ_cons, List.take_succ_cons, List.length_cons,
        Nat.succ_sub_succ, Nat.succ_min_succ]
      rw [Nat.add_assoc, Nat.add_comm 1]

theorem buffer_length (as rest : List Int8) :
    (as ++ 0 :: rest).length = as.length + (rest.length + 1) := by
  rw [List.length_append, List.length_cons]

/-- `strcat_s` up to its last statements: as much of the source as there is room for has been
copied behind the text of the destination. -/
theorem strcatS_eq {as bs rest tail : List Int8} (noNul : 0 ∉ as) (noNul' : 0 ∉ bs) :
    strcatS (some (as ++ 0 :: rest)) (as ++ 0 :: rest).length (some (bs ++ 0 :: tail)) =
      finishStrcat ⟨bs.drop (rest.length + 1) ++ 0 :: tail, rest.length + 1 - bs.length,
        overwrite (as ++ 0 :: rest) as.length (bs.take (rest.length + 1)),
        as.length + min (rest.length + 1) bs.length⟩ := by
  have size := buffer_length as rest
  have space : as.length < (as ++ 0 :: rest).length := by omega
  have skipped := skipDst_eq noNul [] rest space
  have left : (as ++ 0 :: rest).length - as.length = rest.length + 1 := by omega
  rw [List.nil_append, List.length_nil, Nat.zero_add, left] at skipped
  have inside : as.length + (rest.length + 1) ≤ (as ++ 0 :: rest).length := by omega
  have copied := copySrc_eq noNul' tail inside
  have nonempty : (as ++ 0 :: rest).length ≠ 0 := by omega
  simp only [strcatS, if_neg nonempty, skipped, Option.bind_eq_bind, Option.bind_some,
    Nat.succ_ne_zero, if_false, copied]

section

variable {as bs rest tail : List Int8}

theorem strcatS_fits (noNul : 0 ∉ as) (noNul' : 0 ∉ bs) (room : bs.length ≤ rest.length) :
    strcatS (some (as ++ 0 :: rest)) (as ++ 0 :: rest).length (some (bs ++ 0 :: tail)) =
      some (.returned "" 0 (overwrite (as ++ 0 :: rest) as.length (bs ++ [0]))) := by
  have some_ : rest.length + 1 - bs.length ≠ 0 := by omega
  have inside : as.length + bs.length < (as ++ 0 :: rest).length := by
    rw [buffer_length]
    omega
  have size := Library.overwrite_length (Nat.le_of_lt inside)
  rw [strcatS_eq noNul noNul', List.take_of_length_le (by omega), Nat.min_eq_right (by omega),
    finishStrcat, if_neg some_]
  simp only [Option.bind_eq_bind, Option.bind_some, Bool.false_eq_true, if_false]
  rw [Library.store_inside (by rw [size]; exact inside),
    Library.overwrite_overwrite (by rw [List.length_singleton]; omega)]
  rfl

/-- The terminator has no place left, and goes behind the buffer. -/
theorem strcatS_exact (tail : List Int8) (noNul : 0 ∉ as) (noNul' : 0 ∉ bs)
    (full : bs.length = rest.length + 1) :
    strcatS (some (as ++ 0 :: rest)) (as ++ 0 :: rest).length (some (bs ++ 0 :: tail)) = none := by
  have inside : as.length + bs.length ≤ (as ++ 0 :: rest).length := by
    rw [buffer_length]
    omega
  have size := Library.overwrite_length inside
  rw [strcatS_eq noNul noNul', ← full, Nat.sub_self, Nat.min_self, List.take_length,
    List.drop_length, finishStrcat]
  simp only [if_true, List.nil_append, List.head?_cons, Option.map_some, bne_self_eq_false,
    Option.bind_eq_bind, Option.bind_some, Bool.false_eq_true, if_false]
  rw [Library.store_outside, Option.bind_none]
  rw [size, buffer_length]
  omega

theorem strcatS_overflow (tail : List Int8) (noNul : 0 ∉ as) (noNul' : 0 ∉ bs)
    (long : rest.length + 1 < bs.length) :
    ∃ dst', strcatS (some (as ++ 0 :: rest)) (as ++ 0 :: rest).length (some (bs ++ 0 :: tail)) =
      some (.returned "strcat_s: BUFFER OVERFLOW PREVENTED!!!\r\n" 1 dst') ∧
        dst'.head? = some 0 := by
  have inside : as.length + (bs.take (rest.length + 1)).length ≤ (as ++ 0 :: rest).length := by
    have taken := List.length_take_of_le (Nat.le_of_lt long)
    rw [buffer_length]
    omega
  have size := Library.overwrite_length inside
  have positive : 0 < (overwrite (as ++ 0 :: rest) as.length
      (bs.take (rest.length + 1))).length := by
    rw [size, buffer_length]
    omega
  obtain ⟨b, more, split⟩ := List.exists_cons_of_length_pos
    (l := bs.drop (rest.length + 1)) (by rw [List.length_drop]; omega)
  have char : (b != 0) = true := by
    have member : b ∈ bs := List.mem_of_mem_drop (split ▸ List.mem_cons_self)
    exact bne_iff_ne.mpr fun zero => noNul' (zero ▸ member)
  rw [strcatS_eq noNul noNul', Nat.sub_eq_zero_of_le (Nat.le_of_lt long), split, finishStrcat]
  simp only [if_true, List.cons_append, List.head?_cons, Option.map_some, char,
    Option.bind_eq_bind, Option.bind_some]
  rw [Library.store_inside positive]
  exact ⟨_, rfl, rfl⟩

end

/-- `strcat_s` is what it is for in all cases but one: a source that fills the buffer to the
last byte. -/
theorem strcat_s_safe_iff {dst src : List Int8} (terminated : 0 ∈ dst) (terminated' : 0 ∈ src) :
    (∃ printed status dst', Concatenates dst src printed status dst') ↔
      (text 0 dst).length + (text 0 src).length ≠ dst.length := by
  obtain ⟨as, rest, rfl, noNul, front⟩ := Library.split_at_terminator terminated
  obtain ⟨bs, tail, rfl, noNul', front'⟩ := Library.split_at_terminator terminated'
  have size := buffer_length as rest
  rw [front, front', size]
  constructor
  · rintro ⟨printed, status, dst', concatenates⟩ full
    have filled : bs.length = rest.length + 1 := by omega
    have exact_ := strcatS_exact tail noNul noNul' filled
    cases exact_.symm.trans concatenates.returned
  · intro notFull
    rcases Nat.lt_trichotomy bs.length (rest.length + 1) with less | full | more
    · have written : overwrite (as ++ 0 :: rest) as.length (bs ++ [0]) =
          (as ++ bs) ++ 0 :: rest.drop bs.length := by
        rw [Library.overwrite_behind, List.length_append, List.length_singleton,
          List.drop_succ_cons, ← List.append_assoc, List.append_assoc (as ++ bs)]
        rfl
      have outside : 0 ∉ as ++ bs := by
        rw [List.mem_append]
        exact not_or_intro noNul noNul'
      refine ⟨_, _, _, strcatS_fits noNul noNul' (Nat.le_of_lt_succ less), ?_, ?_, ?_, ?_⟩
      · rw [front, front', size]
        exact iff_of_true rfl (by omega)
      · rw [written]
        simp
      · intro _
        rw [written, front, front', Library.text_append outside]
      · exact fun failed => absurd rfl failed
    · exact absurd (by omega) notFull
    · obtain ⟨dst', returned, head⟩ := strcatS_overflow tail noNul noNul' more
      obtain ⟨rest', rfl⟩ := List.head?_eq_some_iff.mp head
      refine ⟨_, _, _, returned, ?_, List.mem_cons_self, ?_, fun _ => ⟨rfl, ?_⟩⟩
      · rw [front, front', size]
        exact iff_of_false (by decide) (by omega)
      · exact fun zero => absurd zero (by decide)
      · exact Library.text_append List.not_mem_nil rest'

def greeting : List Int8 := [0x61, 0, 0x7f, 0x7f]

theorem short_source_appended :
    ∃ printed status dst', Concatenates greeting [0x62, 0] printed status dst' :=
  (strcat_s_safe_iff (by decide) (by decide)).mpr (by decide)

theorem nul_behind_buffer :
    strcatS (some greeting) 4 (some [0x62, 0x63, 0x64, 0]) = none ∧
      ¬ ∃ printed status dst', Concatenates greeting [0x62, 0x63, 0x64, 0] printed status dst' := by
  have outside : strcatS (some greeting) 4 (some [0x62, 0x63, 0x64, 0]) = none := by decide
  refine ⟨outside, ?_⟩
  rintro ⟨printed, status, dst', concatenates⟩
  cases outside.symm.trans concatenates.returned

end PmcBruteforce
