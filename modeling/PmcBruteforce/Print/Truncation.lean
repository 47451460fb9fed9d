import PmcBruteforce.Print.Rendering

/-! `vsnprintf` writes as much of the rendering of its format as there is room for. The string
copy, the digits and the single characters all act on the output as one `put`, and two of these
as one with both texts; so the loop is one `put` of the whole rendering. -/
namespace PmcBruteforce

open Library (overwrite fill reach)

theorem hexChars_eq : ∀ digit < 16, hexChars[digit]? = some (hexDigit digit) := by decide

theorem digit_of_value {digit : Nat} (small : digit < 16) (value : UInt64) :
    ((value >>> UInt64.ofNat (digit * 4)) &&& 0xf).toNat = value.toNat / 16 ^ digit % 16 := by
  have count : (UInt64.ofNat (digit * 4)).toNat % 64 = 4 * digit := by
    rw [UInt64.toNat_ofNat_of_lt' (by simp only [UInt64.size]; omega)]
    omega
  have mask : (0xf : UInt64).toNat = 2 ^ 4 - 1 := rfl
  rw [UInt64.toNat_and, UInt64.toNat_shiftRight, count, mask, Nat.and_two_pow_sub_one_eq_mod,
    Nat.shiftRight_eq_div_pow, Nat.pow_mul]

/-- The buffer behind `chars`, of which it takes what fits. -/
def Output.put (limit : Nat) (out : Output) (chars : List UInt16) : Output :=
  ⟨fill limit out.outBuffer out.outI chars, reach limit out.outI chars⟩

/-- There is a place for the NUL behind the limit. -/
structure Output.Inside (limit : Nat) (out : Output) : Prop where
  below : out.outI ≤ limit
  room : limit < out.outBuffer.length

section

variable {limit : Nat} {out : Output}

theorem Output.Inside.put (inside : out.Inside limit) (chars : List UInt16) :
    (out.put limit chars).Inside limit where
  below := Library.reach_le _ _ _
  room := by
    rw [Output.put, Library.fill_length inside.below (Nat.le_of_lt inside.room)]
    exact inside.room

theorem Output.Inside.put_put (inside : out.Inside limit) (chars more : List UInt16) :
    (out.put limit chars).put limit more = out.put limit (chars ++ more) := by
  simp only [Output.put, Library.reach_reach,
    Library.fill_fill inside.below (Nat.le_of_lt inside.room)]

theorem Output.Inside.put_nil (inside : out.Inside limit) : out.put limit [] = out := by
  simp [Output.put, fill, reach, Nat.min_eq_left inside.below]

theorem Output.put_full (full : out.outI = limit) (chars : List UInt16) :
    out.put limit chars = out := by
  subst full
  simp [Output.put, fill, reach]

theorem Output.Inside.full (inside : out.Inside limit) (stopped : ¬ out.outI < limit) :
    out.outI = limit := Nat.le_antisymm inside.below (Nat.not_lt.mp stopped)

theorem Output.Inside.append (inside : out.Inside limit) (less : out.outI < limit)
    (char : UInt16) : out.append char = some (out.put limit [char]) := by
  have stored := Library.store_inside (Nat.lt_trans less inside.room) char
  have place : reach limit out.outI [char] = out.outI + 1 := Nat.min_eq_left less
  have front : [char].take (limit - out.outI) = [char] :=
    List.take_of_length_le (Nat.sub_pos_of_lt less)
  rw [Output.append, stored, Output.put, fill, front, place]
  rfl

theorem Output.Inside.terminate (inside : out.Inside limit) (chars : List UInt16) :
    (out.put limit chars).terminate =
      some (overwrite out.outBuffer out.outI (chars.take (limit - out.outI) ++ [0])) := by
  have after := inside.put chars
  have room : limit + [(0 : UInt16)].length ≤ out.outBuffer.length := inside.room
  rw [Output.terminate, Library.store_inside (Nat.lt_of_le_of_lt after.below after.room)]
  exact congrArg some (Library.overwrite_fill inside.below room chars)

theorem copyStr_eq (inside : out.Inside limit) {str rest : List UInt16} (noNul : 0 ∉ str) :
    copyStr (limit + 1) (str ++ 0 :: rest) out = some (out.put limit str) := by
  induction str generalizing out with
  | nil => rw [inside.put_nil]; exact if_neg fun both => both.1 rfl
  | cons char str ih =>
    have notNul : char ≠ 0 := fun zero => noNul (zero ▸ List.mem_cons_self)
    by_cases less : out.outI < limit
    · have next := ih (inside.put [char]) fun member => noNul (List.mem_cons_of_mem _ member)
      rw [inside.put_put] at next
      simp only [List.cons_append, copyStr, Nat.add_sub_cancel, if_pos (And.intro notNul less),
        inside.append less, Option.bind_eq_bind, Option.bind_some]
      exact next
    · rw [Output.put_full (inside.full less)]
      exact if_neg fun both => less both.2

theorem writeDigits_full (full : ¬ out.outI < limit) (value : UInt64) (digit : Nat) :
    writeDigits (limit + 1) value digit out = some out := by
  unfold writeDigits
  exact if_neg full

theorem writeDigits_step (inside : out.Inside limit) (less : out.outI < limit) (value : UInt64)
    {digit : Nat} (small : digit < 16) : writeDigits (limit + 1) value digit out =
      let out := out.put limit [hexDigit (value.toNat / 16 ^ digit % 16)]
      match digit with
      | 0 => some out
      | digit + 1 => writeDigits (limit + 1) value digit out := by
  have table := hexChars_eq _ (Nat.mod_lt (value.toNat / 16 ^ digit) (by decide))
  have stored := inside.append less (hexDigit (value.toNat / 16 ^ digit % 16))
  rw [writeDigits.eq_def]
  simp only [Nat.add_sub_cancel, if_pos less, digit_of_value small, table, stored,
    Option.bind_eq_bind, Option.bind_some]
  cases digit <;> rfl

theorem writeDigits_eq (inside : out.Inside limit) (value : UInt64) {digit : Nat}
    (small : digit < 16) : writeDigits (limit + 1) value digit out =
      some (out.put limit (hexDigits (digit + 1) value.toNat)) := by
  induction digit generalizing out with
  | zero =>
    by_cases less : out.outI < limit
    · exact writeDigits_step inside less value small
    · rw [Output.put_full (inside.full less)]
      exact writeDigits_full less value 0
  | succ digit ih =>
    by_cases less : out.outI < limit
    · rw [writeDigits_step inside less value small]
      have next := ih (inside.put [hexDigit (value.toNat / 16 ^ (digit + 1) % 16)])
        (Nat.lt_of_succ_lt small)
      rw [inside.put_put] at next
      exact next
    · rw [Output.put_full (inside.full less)]
      exact writeDigits_full less value (digit + 1)

/-- A value read with the width the modifiers ask for. -/
theorem readValue_eq (modifiers : List UInt16) (slot : UInt64) (varargs : List VaArg) :
    ∃ value, readValue (width modifiers - 1) (.value slot :: varargs) = some (value, varargs) ∧
      hexDigits (width modifiers) value.toNat =
        hexDigits (width modifiers) (slot.toNat % 16 ^ width modifiers) := by
  have low : slot.toUInt32.toUInt64.toNat = slot.toNat % 16 ^ 8 := by
    simp only [UInt32.toNat_toUInt64, UInt64.toNat_toUInt32, Nat.reducePow]
  rw [hexDigits_mod (Nat.le_refl _)]
  rcases width_cases modifiers with width | width | width <;> rw [width]
  · exact ⟨_, rfl, by rw [low, hexDigits_mod (Nat.le_refl 8)]⟩
  · exact ⟨_, rfl, rfl⟩
  · exact ⟨_, rfl, by rw [low, hexDigits_mod (by decide)]⟩

theorem recheckFmt_modifier {modifiers : List UInt16} {char : UInt16}
    (modifier : char ∈ modifierChars) (fmt : List UInt16) (varargs : List VaArg) (digits : Nat) :
    recheckFmt (limit + 1) digits (char :: fmt) out varargs =
      recheckFmt (limit + 1) (width (modifiers ++ [char]) - 1) fmt out varargs := by
  rw [recheckFmt.eq_def, width_append]
  simp only [modifierChars, List.mem_cons, List.not_mem_nil, or_false] at modifier
  rcases modifier with rfl | rfl | rfl | rfl <;> rfl

theorem recheckFmt_conversion (inside : out.Inside limit) (less : out.outI < limit)
    {modifiers : List UInt16} {char : UInt16} (notNul : char ≠ 0)
    (notModifier : char ∉ modifierChars) {varargs varargs' : List VaArg} {front : List UInt16}
    (printed : (conversion modifiers char).print varargs = some (front, varargs'))
    (fmt : List UInt16) :
    recheckFmt (limit + 1) (width modifiers - 1) (char :: fmt) out varargs =
      vsnprintfLoop (limit + 1) fmt (out.put limit front) varargs' := by
  simp only [modifierChars, List.mem_cons, List.not_mem_nil, or_false, not_or] at notModifier
  obtain ⟨notl, notL, noth, notH⟩ := notModifier
  have notLong : ¬ (char = wide 'l' ∨ char = wide 'L') := not_or_intro notl notL
  have notShort : ¬ (char = wide 'h' ∨ char = wide 'H') := not_or_intro noth notH
  rw [recheckFmt.eq_def]
  simp only [if_neg notNul, if_neg notLong, if_neg notShort]
  unfold conversion at printed
  by_cases string : char = wide 's' ∨ char = wide 'S'
  · rw [if_pos string] at printed
    rw [if_pos string.symm]
    obtain ⟨rest, rfl, noNul⟩ := print_string printed
    simp only [copyStr_eq inside noNul, Option.bind_eq_bind, Option.bind_some]
  · rw [if_neg string] at printed
    rw [if_neg fun other => string other.symm]
    by_cases hex : char = wide 'x' ∨ char = wide 'X'
    · rw [if_pos hex] at printed
      rw [if_pos hex]
      obtain ⟨slot, rfl, rfl⟩ := print_hex printed
      obtain ⟨value, read, same⟩ := readValue_eq modifiers slot varargs'
      have known := width_cases modifiers
      have small : width modifiers - 1 < 16 := by omega
      have digits : width modifiers - 1 + 1 = width modifiers := by omega
      have written := writeDigits_eq inside value small
      rw [digits, same] at written
      simp only [read, written, Option.bind_eq_bind, Option.bind_some]
    · rw [if_neg hex] at printed
      rw [if_neg hex]
      obtain ⟨rfl, rfl⟩ := Prod.mk.inj (Option.some.inj printed)
      rw [inside.append less]
      rfl

end

/-- What the loop does with a format whose text in front of the NUL is `body`. -/
def LoopPrints (limit : Nat) (body fmt : List UInt16) : Prop :=
  ∀ (out : Output) (varargs : List VaArg) (chars : List UInt16), out.Inside limit →
    render (pieces body) varargs = some chars →
      vsnprintfLoop (limit + 1) fmt out varargs = (out.put limit chars).terminate

/-- The same behind a `%` and modifiers. -/
def DirectivePrints (limit : Nat) (body fmt : List UInt16) : Prop :=
  ∀ (modifiers : List UInt16) (out : Output) (varargs : List VaArg) (chars : List UInt16),
    out.Inside limit → out.outI < limit →
      render (directive modifiers body) varargs = some chars →
        recheckFmt (limit + 1) (width modifiers - 1) fmt out varargs =
          (out.put limit chars).terminate

section

variable {limit : Nat} {char : UInt16} {body fmt : List UInt16}

theorem LoopPrints.nul (limit : Nat) (fmt : List UInt16) : LoopPrints limit [] (0 :: fmt) := by
  intro out varargs chars inside rendered
  obtain rfl := Option.some.inj rendered
  rw [inside.put_nil, vsnprintfLoop.eq_def]
  by_cases less : out.outI < limit
  · exact (if_pos less).trans (if_pos rfl)
  · exact if_neg less

theorem DirectivePrints.nul (limit : Nat) (fmt : List UInt16) :
    DirectivePrints limit [] (0 :: fmt) := by
  intro modifiers out varargs chars inside less rendered
  obtain rfl := Option.some.inj rendered
  rw [inside.put_nil, recheckFmt.eq_def]
  exact if_pos rfl

theorem LoopPrints.cons (notNul : char ≠ 0) (loop : LoopPrints limit body fmt)
    (behind : DirectivePrints limit body fmt) : LoopPrints limit (char :: body) (char :: fmt) := by
  intro out varargs chars inside rendered
  rw [pieces] at rendered
  rw [vsnprintfLoop.eq_def]
  by_cases less : out.outI < limit
  · simp only [Nat.add_sub_cancel, if_pos less, if_neg notNul]
    by_cases percent : char = wide '%'
    · rw [if_pos percent] at rendered ⊢
      exact behind [] out varargs chars inside less rendered
    · rw [if_neg percent] at rendered ⊢
      obtain ⟨front, varargs', rest, printed, left, rfl⟩ := render_cons rendered
      obtain ⟨rfl, rfl⟩ := Prod.mk.inj (Option.some.inj printed)
      simp only [inside.append less, Option.bind_eq_bind, Option.bind_some]
      rw [loop _ _ _ (inside.put [char]) left, inside.put_put]
  · rw [Output.put_full (inside.full less)]
    exact if_neg less

theorem DirectivePrints.cons (notNul : char ≠ 0) (loop : LoopPrints limit body fmt)
    (behind : DirectivePrints limit body fmt) :
    DirectivePrints limit (char :: body) (char :: fmt) := by
  intro modifiers out varargs chars inside less rendered
  rw [directive] at rendered
  by_cases modifier : char ∈ modifierChars
  · rw [if_pos modifier] at rendered
    rw [recheckFmt_modifier modifier]
    exact behind _ out varargs chars inside less rendered
  · rw [if_neg modifier] at rendered
    obtain ⟨front, varargs', rest, printed, left, rfl⟩ := render_cons rendered
    rw [recheckFmt_conversion inside less notNul modifier printed,
      loop _ _ _ (inside.put front) left, inside.put_put]

theorem format_prints (limit : Nat) {body : List UInt16} (noNul : 0 ∉ body) (fmt : List UInt16) :
    LoopPrints limit body (body ++ 0 :: fmt) ∧ DirectivePrints limit body (body ++ 0 :: fmt) := by
  induction body with
  | nil => exact ⟨.nul limit fmt, .nul limit fmt⟩
  | cons char body ih =>
    have notNul : char ≠ 0 := fun zero => noNul (zero ▸ List.mem_cons_self)
    obtain ⟨loop, behind⟩ := ih fun member => noNul (List.mem_cons_of_mem _ member)
    exact ⟨.cons notNul loop behind, .cons notNul loop behind⟩

end

/-- The loop is handed the places in front of the last one, which it leaves for the NUL. -/
theorem vsnprintf_renders {outBuffer : List UInt16} {limit : Nat}
    (inside : limit + 1 ≤ outBuffer.length) {body : List UInt16} (noNul : 0 ∉ body)
    (behind : List UInt16) {varargs : List VaArg} {chars : List UInt16}
    (rendered : render (pieces body) varargs = some chars) :
    vsnprintf outBuffer (limit + 1) (body ++ 0 :: behind) varargs =
      some (chars.take limit ++ 0 :: outBuffer.drop (min chars.length limit + 1)) := by
  have start : (Output.mk outBuffer 0).Inside limit := ⟨Nat.zero_le _, inside⟩
  rw [vsnprintf, if_neg (Nat.succ_ne_zero _),
    (format_prints limit noNul behind).1 _ varargs chars start rendered, start.terminate]
  simp [overwrite, Nat.min_comm]

/-- `vsnprintf` leaves the rendering, cut off so that its NUL is the last place it may use, and
the rest of the buffer as it was. -/
theorem vsnprintf_truncates {outBuffer : List UInt16} {outLength : Nat}
    (inside : outLength ≤ outBuffer.length) {body : List UInt16} (noNul : 0 ∉ body)
    (behind : List UInt16) {varargs : List VaArg} {chars : List UInt16}
    (rendered : render (pieces body) varargs = some chars) :
    vsnprintf outBuffer outLength (body ++ 0 :: behind) varargs =
      some (if outLength = 0 then outBuffer
        else chars.take (outLength - 1) ++ 0 ::
          outBuffer.drop (min chars.length (outLength - 1) + 1)) := by
  cases outLength with
  | zero => rfl
  | succ limit => exact vsnprintf_renders inside noNul behind rendered

/-- The last of the two modifiers counts, and the string has no room for its second character. -/
theorem short_buffer_printed :
    vsnprintf (List.replicate 6 0x7f) 5 ("%lhx:%s".toList.map wide ++ 0 :: [])
        [.value 0x1234, .pointer ("ab".toList.map wide ++ [0])] =
      some ("34:a".toList.map wide ++ [0, 0x7f]) := by
  have rendered : render (pieces ("%lhx:%s".toList.map wide))
      [.value 0x1234, .pointer ("ab".toList.map wide ++ [0])] =
        some ("34:ab".toList.map wide) := by decide
  exact vsnprintf_truncates (by decide) (by decide) [] rendered

/-- `printf` prints the first 0x3ff characters, whatever its buffer held. -/
theorem printf_prints (garbage : Vector UInt16 0x400) {body : List UInt16} (noNul : 0 ∉ body)
    (behind : List UInt16) {varargs : List VaArg} {chars : List UInt16}
    (rendered : render (pieces body) varargs = some chars) :
    printf garbage (body ++ 0 :: behind) varargs = some (chars.take 0x3ff) := by
  have size : 0x3ff + 1 ≤ garbage.toList.length := Nat.le_of_eq garbage.length_toList.symm
  have outside : 0 ∉ chars.take 0x3ff := fun member =>
    render_no_nul (pieces_no_nul noNul).1 rendered (List.mem_of_mem_take member)
  have filled := vsnprintf_renders size noNul behind rendered
  rw [printf, filled]
  simp only [Option.bind_eq_bind, Option.bind_some]
  rw [if_pos (List.mem_append_right _ List.mem_cons_self), Library.text_append outside]

end PmcBruteforce
