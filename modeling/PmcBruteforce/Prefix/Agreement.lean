import PmcBruteforce.Prefix.Count

/-! The filter and `count_prefixes` as two scanners of the same prefixes: how many bytes each
of them takes for prefixes, and the two kinds of strings on which they disagree. -/
namespace PmcBruteforce

/-- The for loop of the filter, with the bytes its switch has taken for prefixes when the loop
is left. The flags decide on rejection only, so they are left out. -/
def consumedFrom (mode : CpuMode) (bytes : List UInt8) (length : Nat) :
    (remaining i : Nat) → Nat
  | 0, i => i
  | remaining + 1, i =>
    match switchLabel (byteAt bytes i) with
    | .evex =>
      -- May be BOUND instruction
      if mode ≠ .mode64 ∧ (i + 1 = length ∨ byteAt bytes (i + 1) < 0xc0) then i else i + 1
    | .vex =>
      -- LDS/LES instruction
      if mode ≠ .mode64 ∧ (i + 1 ≥ length ∨ byteAt bytes (i + 1) < 0xc0) then i else i + 1
    | .other =>
      if mode = .mode64 ∧ (byteAt bytes i &&& 0xf0) = 0x40 then
        consumedFrom mode bytes length remaining (i + 1)
      else i
    | _ => consumedFrom mode bytes length remaining (i + 1)

/-- The leading bytes of a string that the scan of the filter consumes as prefixes. -/
def consumedPrefixes (mode : CpuMode) (s : List UInt8) : Nat :=
  consumedFrom mode s s.length s.length 0

/-- `count_prefixes` on a string, with every byte at or past its length read as 0. The scan
looks one byte ahead, so one zero is enough. -/
def countedPrefixes (mode : CpuMode) (s : List UInt8) : Option Nat :=
  countPrefixes mode (s ++ [0]) s.length

/-- LES or LDS, which outside 64-bit mode begin with the bytes of VEX. -/
def startsWithLdsLes (mode : CpuMode) : List UInt8 → Bool
  | [] => false
  | b :: t => (b == 0xc4 || b == 0xc5) && !escapes mode t.head?

def ldsLesBehindPrefix (mode : CpuMode) : List UInt8 → Bool
  | [] => false
  | b :: t => prefixKind mode b t.head? == .single && startsWithLdsLes mode t

/-- A byte that is a prefix where one may stand. -/
def prefixByte (mode : CpuMode) (b : UInt8) : Bool :=
  b ∈ [0x26, 0x2e, 0x36, 0x3e, 0x64, 0x65, 0x66, 0x67, 0xf0, 0xf2, 0xf3, 0xc4, 0xc5] ||
    mode == .mode64 && (b == 0x62 || (b &&& 0xf0) == 0x40)

/-- An EVEX prefix whose first payload byte looks like a prefix. -/
def evexPayloadLooksLikePrefix (mode : CpuMode) : List UInt8 → Bool
  | b :: p0 :: _ => b == 0x62 && escapes mode (some p0) && prefixByte mode p0
  | _ => false

/-- Where the two scanners count differently: LES or LDS outside 64-bit mode, alone or
behind one prefix, and an EVEX payload that begins like a prefix. -/
def scannersDiffer (mode : CpuMode) (s : List UInt8) : Bool :=
  startsWithLdsLes mode s || ldsLesBehindPrefix mode s || evexPayloadLooksLikePrefix mode s

theorem consumedFrom_eq (mode : CpuMode) (xs : List UInt8) (i : Nat) (b : UInt8)
    (t : List UInt8) (split : xs.drop i = b :: t) (remaining : Nat) :
    consumedFrom mode xs xs.length (remaining + 1) i =
      match prefixKind mode b t.head? with
      | .opcode => i
      | .single => consumedFrom mode xs xs.length remaining (i + 1)
      | .evex | .vex3 | .vex2 => i + 1 := by
  obtain ⟨here, inside, next⟩ := look_ahead b t i xs.length xs split rfl
  have ge : (i + 1 ≥ xs.length) = (i + 1 = xs.length) := by
    apply propext
    omega
  have escape : (mode ≠ .mode64 ∧ ∀ n ∈ t.head?, n < 0xc0) ↔ escapes mode t.head? = false :=
    (not_escapes_iff mode _).symm
  simp only [consumedFrom, here, ge, next, escape, prefixKind]
  cases label : switchLabel b with
  | evex => cases escapes mode t.head? <;> simp
  | vex =>
    cases escapes mode t.head? with
    | false => simp
    | true => by_cases three : b = 0xc4 <;> simp [three]
  | other => by_cases rex : mode = .mode64 ∧ (b &&& 0xf0) = 0x40 <;> simp [rex]
  | _ => rfl

theorem consumedPrefixes_cons (mode : CpuMode) (b : UInt8) (t : List UInt8)
    (accepted : accepts mode (b :: t) = true) :
    consumedPrefixes mode (b :: t) =
      if prefixKind mode b t.head? = .opcode then 0 else 1 := by
  have first := consumedFrom_eq mode (b :: t) 0 b t rfl t.length
  rw [consumedPrefixes, List.length_cons]
  rw [List.length_cons] at first
  rw [first]
  cases kind : prefixKind mode b t.head? with
  | opcode | evex | vex3 | vex2 => rfl
  | single =>
    simp only [accepts, kind] at accepted
    cases t with
    | nil => rfl
    | cons c u =>
      have opcode : prefixKind mode c u.head? = .opcode := by
        simpa only [startsWithOpcode, beq_iff_eq] using accepted
      have second := consumedFrom_eq mode (b :: c :: u) 1 c u rfl u.length
      rw [opcode] at second
      exact second

theorem isPrefix_iff (mode : CpuMode) (b : UInt8) (next : Option UInt8) :
    isPrefix mode b (next.getD 0) = true ↔
      prefixKind mode b next ≠ .opcode ∨ switchLabel b = .vex := by
  rw [isPrefix_eq]
  unfold prefixKind
  cases label : switchLabel b with
  | vex => simp
  | evex => cases next <;> cases mode <;> simp [escapes]
  | other => cases mode <;> simp
  | _ => simp

theorem countPrefixesFrom_eq (mode : CpuMode) (s : List UInt8) (i : Nat) (b : UInt8)
    (t : List UInt8) (split : s.drop i = b :: t) (remaining : Nat) :
    countPrefixesFrom mode (s ++ [0]) s.length (remaining + 1) i =
      if isPrefix mode b (t.head?.getD 0) = true then
        if switchLabel b = .vex then some (i + 1)
        else countPrefixesFrom mode (s ++ [0]) s.length remaining (i + 1)
      else some i := by
  have size := congrArg List.length split
  simp only [List.length_drop, List.length_cons] at size
  have read : ∀ k, (s ++ [0])[i + k]? = (b :: t ++ [0])[k]? := by
    intro k
    rw [← split, ← List.drop_append_of_le_length (by omega), List.getElem?_drop]
  have here : (s ++ [0])[i]? = some b := read 0
  have next : (s ++ [0])[i + 1]? = some (t.head?.getD 0) := by
    rw [read 1]
    cases t <;> rfl
  have guard : i < s.length + 1 := by omega
  simp only [countPrefixesFrom, here, next, if_pos guard, Option.bind_eq_bind, Option.bind_some,
    beq_iff_eq, vex_masked_iff]

theorem countPrefixesFrom_ge (mode : CpuMode) (bytes : List UInt8) (length remaining i n : Nat)
    (bound : i + remaining = length)
    (h : countPrefixesFrom mode bytes length remaining i = some n) : i ≤ n := by
  induction remaining generalizing i with
  | zero => exact Nat.le_of_eq (Option.some.inj h)
  | succ remaining ih =>
    have guard : i < length + 1 := by omega
    simp only [countPrefixesFrom, if_pos guard, Option.bind_eq_bind, Option.bind_eq_some_iff] at h
    obtain ⟨byte, -, next, -, h⟩ := h
    split at h
    · split at h
      · exact Nat.le_of_succ_le (Nat.le_of_eq (Option.some.inj h))
      · exact Nat.le_of_succ_le (ih (i + 1) (by omega) h)
    · exact Nat.le_of_eq (Option.some.inj h)

/-- A scan that stays inside one buffer reads the same in another one that agrees with it. -/
theorem countPrefixesFrom_of_reads (mode : CpuMode) {xs ys : List UInt8} {length : Nat}
    (same : ∀ k ≤ length, ∀ byte, xs[k]? = some byte → ys[k]? = some byte) (remaining i : Nat)
    (bound : i + remaining = length) {count : Nat}
    (h : countPrefixesFrom mode xs length remaining i = some count) :
    countPrefixesFrom mode ys length remaining i = some count := by
  induction remaining generalizing i with
  | zero => exact h
  | succ remaining ih =>
    have guard : i < length + 1 := by omega
    simp only [countPrefixesFrom, if_pos guard, Option.bind_eq_bind, Option.bind_eq_some_iff]
      at h ⊢
    obtain ⟨byte, here, next, ahead, rest⟩ := h
    refine ⟨byte, same i (by omega) byte here, next, same (i + 1) (by omega) next ahead, ?_⟩
    split_ifs at rest ⊢
    · exact rest
    · exact ih (i + 1) (by omega) rest
    · exact rest

theorem counted_eq_iff (mode : CpuMode) (s : List UInt8) (i : Nat) (b : UInt8) (t : List UInt8)
    (split : s.drop i = b :: t) (remaining : Nat) (bound : i + (remaining + 1) = s.length) :
    countPrefixesFrom mode (s ++ [0]) s.length (remaining + 1) i = some i ↔
      isPrefix mode b (t.head?.getD 0) = false := by
  rw [countPrefixesFrom_eq mode s i b t split]
  cases isPrefix mode b (t.head?.getD 0) with
  | false => simp
  | true =>
    simp only [if_true, Bool.true_eq_false, iff_false]
    intro same
    split at same
    · have := Option.some.inj same
      omega
    · have := countPrefixesFrom_ge mode _ _ _ _ _ (by omega) same
      omega

theorem isPrefix_opcode {mode : CpuMode} {b : UInt8} {t : List UInt8}
    (opcode : prefixKind mode b t.head? = .opcode) :
    isPrefix mode b (t.head?.getD 0) = startsWithLdsLes mode (b :: t) := by
  rw [Bool.eq_iff_iff, isPrefix_iff, switchLabel_vex_iff, startsWithLdsLes, Bool.and_eq_true,
    Bool.or_eq_true, beq_iff_eq, beq_iff_eq, Bool.not_eq_true']
  constructor
  · rintro (other | vex)
    · exact absurd opcode other
    · refine ⟨vex, ?_⟩
      unfold prefixKind at opcode
      rw [(switchLabel_vex_iff b).mpr vex] at opcode
      cases escape : escapes mode t.head? with
      | false => rfl
      | true =>
        simp only [escape, if_true] at opcode
        split at opcode <;> cases opcode
  · rintro ⟨vex, -⟩
    exact .inr vex

theorem isPrefix_payload {mode : CpuMode} {p0 : UInt8} (escaped : escapes mode (some p0) = true)
    (n : UInt8) : isPrefix mode p0 n = prefixByte mode p0 := by
  have real : (mode == .mode64 || decide (0xc0 ≤ p0)) = true := escaped
  unfold isPrefix prefixByte
  generalize decide (0xc0 ≤ n) = register
  clear escaped
  revert real
  generalize (mode == CpuMode.mode64) = m64
  induction p0 using forall_byte
  revert m64 register
  decide +revert +kernel

theorem startsWithLdsLes_of_kind {mode : CpuMode} {b : UInt8} {t : List UInt8}
    (prefix_ : prefixKind mode b t.head? ≠ .opcode) : startsWithLdsLes mode (b :: t) = false := by
  rw [Bool.eq_false_iff]
  intro lds
  simp only [startsWithLdsLes, Bool.and_eq_true, Bool.or_eq_true, beq_iff_eq,
    Bool.not_eq_true'] at lds
  apply prefix_
  simp only [prefixKind, (switchLabel_vex_iff b).mpr lds.1, lds.2, Bool.false_eq_true, if_false]

theorem evexPayload_of_kind {mode : CpuMode} {b : UInt8} {t : List UInt8}
    (other : prefixKind mode b t.head? ≠ .evex) :
    evexPayloadLooksLikePrefix mode (b :: t) = false := by
  cases t with
  | nil => rfl
  | cons p0 u =>
    rw [Bool.eq_false_iff]
    intro looks
    simp only [evexPayloadLooksLikePrefix, Bool.and_eq_true, beq_iff_eq] at looks
    obtain ⟨⟨rfl, escaped⟩, -⟩ := looks
    apply other
    have label : switchLabel 0x62 = .evex := by decide
    simp only [prefixKind, label, List.head?_cons, escaped, if_true]

theorem switchLabel_of_single {mode : CpuMode} {b : UInt8} {next : Option UInt8}
    (single : prefixKind mode b next = .single) : switchLabel b ≠ .vex := by
  intro label
  simp only [prefixKind, label] at single
  split at single
  · split at single <;> cases single
  · cases single

theorem evex_of_kind {mode : CpuMode} {b : UInt8} {next : Option UInt8}
    (evex : prefixKind mode b next = .evex) : b = 0x62 ∧ escapes mode next = true := by
  have table : ∀ b : UInt8, switchLabel b = .evex → b = 0x62 := forall_byte (by decide +kernel)
  unfold prefixKind at evex
  cases label : switchLabel b <;> simp only [label] at evex
  case evex =>
    refine ⟨table b label, ?_⟩
    split at evex
    · assumption
    · cases evex
  case vex =>
    split at evex
    · split at evex <;> cases evex
    · cases evex
  case other => split at evex <;> cases evex
  all_goals cases evex

section

variable {mode : CpuMode} {b : UInt8} {t : List UInt8}

/-- The first step of `count_prefixes` over a string that begins with a prefix. -/
theorem countedPrefixes_of_kind (prefix_ : prefixKind mode b t.head? ≠ .opcode) :
    countedPrefixes mode (b :: t) =
      if switchLabel b = .vex then some 1
      else countPrefixesFrom mode (b :: t ++ [0]) (b :: t).length t.length 1 := by
  have step := countPrefixesFrom_eq mode (b :: t) 0 b t rfl t.length
  rw [if_pos ((isPrefix_iff mode b t.head?).mpr (.inl prefix_))] at step
  exact step

theorem agree_at_opcode (opcode : prefixKind mode b t.head? = .opcode) :
    countedPrefixes mode (b :: t) = some 0 ↔ scannersDiffer mode (b :: t) = false := by
  have first := counted_eq_iff mode (b :: t) 0 b t rfl t.length (Nat.zero_add _)
  have behind : ldsLesBehindPrefix mode (b :: t) = false := by simp [ldsLesBehindPrefix, opcode]
  have payload : evexPayloadLooksLikePrefix mode (b :: t) = false :=
    evexPayload_of_kind (by simp [opcode])
  rw [scannersDiffer, behind, payload, Bool.or_false, Bool.or_false, ← isPrefix_opcode opcode]
  exact first

theorem agree_behind_prefix (single : prefixKind mode b t.head? = .single)
    (opcode : startsWithOpcode mode t = true) :
    countedPrefixes mode (b :: t) = some 1 ↔ scannersDiffer mode (b :: t) = false := by
  have here : startsWithLdsLes mode (b :: t) = false := startsWithLdsLes_of_kind (by simp [single])
  have behind : ldsLesBehindPrefix mode (b :: t) = startsWithLdsLes mode t := by
    simp [ldsLesBehindPrefix, single]
  have payload : evexPayloadLooksLikePrefix mode (b :: t) = false :=
    evexPayload_of_kind (by simp [single])
  rw [scannersDiffer, here, behind, payload, Bool.or_false, Bool.false_or,
    countedPrefixes_of_kind (by simp [single]), if_neg (switchLabel_of_single single)]
  cases t with
  | nil => simp [countPrefixesFrom, startsWithLdsLes]
  | cons c u =>
    have kind : prefixKind mode c u.head? = .opcode := by
      simpa only [startsWithOpcode, beq_iff_eq] using opcode
    rw [← isPrefix_opcode kind]
    exact counted_eq_iff mode (b :: c :: u) 1 c u rfl u.length
      (by simp only [List.length_cons]; omega)

theorem agree_at_evex (evex : prefixKind mode b t.head? = .evex) :
    countedPrefixes mode (b :: t) = some 1 ↔ scannersDiffer mode (b :: t) = false := by
  obtain ⟨rfl, escaped⟩ := evex_of_kind evex
  have here : startsWithLdsLes mode (0x62 :: t) = false := startsWithLdsLes_of_kind (by simp [evex])
  have behind : ldsLesBehindPrefix mode (0x62 :: t) = false := by simp [ldsLesBehindPrefix, evex]
  have label : ¬ switchLabel 0x62 = .vex := by decide
  rw [scannersDiffer, here, behind, Bool.or_false, Bool.false_or,
    countedPrefixes_of_kind (by simp [evex]), if_neg label]
  cases t with
  | nil => simp [countPrefixesFrom, evexPayloadLooksLikePrefix]
  | cons p0 u =>
    have looks : evexPayloadLooksLikePrefix mode (0x62 :: p0 :: u) = prefixByte mode p0 := by
      rw [List.head?_cons] at escaped
      simp [evexPayloadLooksLikePrefix, escaped]
    rw [looks, ← isPrefix_payload escaped (u.head?.getD 0)]
    exact counted_eq_iff mode (0x62 :: p0 :: u) 1 p0 u rfl u.length
      (by simp only [List.length_cons]; omega)

theorem agree_at_vex (vex : prefixKind mode b t.head? = .vex3 ∨ prefixKind mode b t.head? = .vex2) :
    countedPrefixes mode (b :: t) = some 1 ∧ scannersDiffer mode (b :: t) = false := by
  have prefix_ : prefixKind mode b t.head? ≠ .opcode := by
    rcases vex with vex | vex <;> simp [vex]
  have behind : ldsLesBehindPrefix mode (b :: t) = false := by
    rcases vex with vex | vex <;> simp [ldsLesBehindPrefix, vex]
  have payload : evexPayloadLooksLikePrefix mode (b :: t) = false :=
    evexPayload_of_kind (by rcases vex with vex | vex <;> simp [vex])
  rw [scannersDiffer, startsWithLdsLes_of_kind prefix_, behind, payload,
    countedPrefixes_of_kind prefix_, if_pos (prefixKind_vex vex)]
  exact ⟨rfl, rfl⟩

end

/-- On the strings the filter accepts, the two scanners count the same prefixes but for LES
and LDS outside 64-bit mode and for EVEX payloads that begin like a prefix. -/
theorem scanners_agree_iff (mode : CpuMode) (s : List UInt8)
    (accepted : (containsInvalidCountOfPrefixes mode s s.length).invalid = false) :
    countedPrefixes mode s = some (consumedPrefixes mode s) ↔ scannersDiffer mode s = false := by
  have kept := (valid_iff_accepts mode s).mp accepted
  cases s with
  | nil => exact ⟨fun _ => rfl, fun _ => rfl⟩
  | cons b t =>
    rw [consumedPrefixes_cons mode b t kept]
    cases kind : prefixKind mode b t.head? with
    | opcode => exact agree_at_opcode kind
    | single =>
      simp only [accepts, kind] at kept
      exact agree_behind_prefix kind kept
    | evex => exact agree_at_evex kind
    | vex3 =>
      obtain ⟨counted, agree⟩ := agree_at_vex (.inl kind)
      exact ⟨fun _ => agree, fun _ => counted⟩
    | vex2 =>
      obtain ⟨counted, agree⟩ := agree_at_vex (.inr kind)
      exact ⟨fun _ => agree, fun _ => counted⟩

theorem scanners_disagree :
    (containsInvalidCountOfPrefixes .mode64 [0x62, 0xf0, 0x00, 0x08] 4).invalid = false ∧
      countedPrefixes .mode64 [0x62, 0xf0, 0x00, 0x08] = some 2 ∧
      consumedPrefixes .mode64 [0x62, 0xf0, 0x00, 0x08] = 1 ∧
    (containsInvalidCountOfPrefixes .mode32 [0xc5, 0x00] 2).invalid = false ∧
      countedPrefixes .mode32 [0xc5, 0x00] = some 1 ∧
      consumedPrefixes .mode32 [0xc5, 0x00] = 0 := by
  decide +kernel

theorem scanners_agree_on_vex :
    (containsInvalidCountOfPrefixes .mode64 [0xc5, 0xf8, 0x77] 3).invalid = false ∧
      countedPrefixes .mode64 [0xc5, 0xf8, 0x77] =
        some (consumedPrefixes .mode64 [0xc5, 0xf8, 0x77]) :=
  ⟨by decide +kernel, (scanners_agree_iff .mode64 [0xc5, 0xf8, 0x77] (by decide +kernel)).mpr
    (by decide +kernel)⟩

end PmcBruteforce
