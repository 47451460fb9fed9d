import PmcBruteforce.Search.Coverage

/-! Prefix combinations. The pointer is forced to the last byte when it stands on a byte that
`count_prefixes` counts; the payload of a VEX or EVEX prefix is not counted, and there the
pointer can stay behind the end of the prefix. -/
namespace PmcBruteforce

variable {b : Build}

/-- A legacy or REX byte, or a VEX or EVEX prefix with its whole payload, that the filter
accepts. -/
def completePrefix (mode : CpuMode) : List UInt8 → Bool
  | [] => false
  | first :: payload =>
    accepts mode (first :: payload) &&
      match prefixKind mode first payload.head? with
      | .opcode => false
      | .single => payload.length == 0
      | .vex2 => payload.length == 1
      | .vex3 => payload.length == 2
      | .evex => payload.length == 3

/-- Each complete prefix at the front of a counted instruction is followed by every value. -/
def PrefixesCovered (p : Platform) (t : Run b) : Prop :=
  ∀ e ∈ countedIn p t, ∀ pre, completePrefix b.cpuMode pre = true → pre <+: e.job.instruction →
    pre.length < e.job.instruction.length → Settled b.cpuMode (handed p t) pre

/-- The length stays the same, the pointer is not on a counted prefix byte, and a complete
prefix ends between the pointer and the end of the instruction. -/
def prefixPassedOver (s : State b) : Prop :=
  s.curInstructionLength = s.lastInstructionLength ∧ curByteIsPrefix s = false ∧
    ∃ n, s.curByteIndex < n ∧ n < s.curInstructionLength ∧
      completePrefix b.cpuMode (s.instructionBytes.string n) = true

theorem complete_prefix_accepts {mode : CpuMode} {pre : List UInt8}
    (complete : completePrefix mode pre = true) : accepts mode (pre ++ [1]) = true := by
  have opcode : prefixKind mode 1 none = .opcode := by cases mode <;> decide
  match pre with
  | [] => cases complete
  | [first] =>
    simp only [completePrefix, Bool.and_eq_true, List.head?_nil] at complete
    obtain ⟨-, size⟩ := complete
    cases kind : prefixKind mode first none <;> simp [kind] at size
    have single := prefixKind_single kind (some 1)
    simp [accepts, single, startsWithOpcode, opcode]
  | [_, _] | [_, _, _] | [_, _, _, _] =>
    simp only [completePrefix, Bool.and_eq_true, List.head?_cons] at complete
    obtain ⟨accepted, size⟩ := complete
    simp only [accepts, List.head?_cons, List.cons_append, List.nil_append] at accepted ⊢
    split at size <;> simp_all [evexPayloadOk, vex3PayloadOk, vex2PayloadOk]
  | _ :: _ :: _ :: _ :: _ :: _ =>
    simp only [completePrefix, Bool.and_eq_true, List.head?_cons] at complete
    obtain ⟨-, size⟩ := complete
    split at size <;> simp at size

theorem overtaken_total {p : Platform} {a : Baseline b} {rs : List (Response b)} {e f : Entry b}
    (he : e ∈ (search p a rs).log) (hf : f ∈ (search p a rs).log) :
    e = f ∨ Overtaken p e f.job.state.instructionBytes ∨
      Overtaken p f e.job.state.instructionBytes := by
  by_cases same : e = f
  · exact .inl same
  · let either : Entry b → Entry b → Prop := fun x y =>
      Overtaken p x y.job.state.instructionBytes ∨ Overtaken p y x.job.state.instructionBytes
    have symmetric : Std.Symm either := ⟨fun _ _ h => h.symm⟩
    have ordered : (search p a rs).log.Pairwise either := (search_ordered p a rs).log.imp Or.inr
    exact .inr (ordered.forall he hf same)

/-- The search never comes back to a prefix it has passed over. -/
theorem passed_over_never_handed {p : Platform} {a : Baseline b} {rs : List (Response b)}
    (done : (search p a rs).outcome.isDone = true) {e : Entry b}
    (member : e ∈ countedIn p (search p a rs))
    (same : e.job.state.curInstructionLength = e.job.state.lastInstructionLength)
    (notPrefix : curByteIsPrefix e.job.state = false) {n : Nat}
    (behind : e.job.state.curByteIndex < n) (inside : n < e.job.state.curInstructionLength) :
    e.job.state.instructionBytes.string n ++ [1] ∉ handed p (search p a rs) := by
  obtain ⟨logged, count⟩ := List.mem_filter.mp member
  obtain ⟨searching, -⟩ := search_log_searching logged
  have length := searching.length
  have first : firstIndex e.job.state = e.job.state.curByteIndex := if_pos ⟨same, notPrefix⟩
  have here : e.job.state.instructionBytes.string (n + 1) =
      e.job.state.instructionBytes.string n ++ [0] := by
    rw [Buffer.string_succ _ _ (by omega), searching.behind n behind]
  have smaller : e.job.state.instructionBytes.prefixValue (n + 1) <
      Library.bigEndian (e.job.state.instructionBytes.string n ++ [1]) := by
    rw [Buffer.prefixValue, here]
    exact Library.bigEndian_lt_of_first_difference _ (by decide) rfl
  intro wanted
  obtain ⟨f, ran, string⟩ : ∃ f ∈ (search p a rs).log,
      f.job.instruction = e.job.state.instructionBytes.string n ++ [1] := by
    generalize (search p a rs) = t at done wanted
    obtain ⟨o, log⟩ := t
    cases o with
    | halt => simpa [handed, Library.Reactive.jobs, program] using wanted
    | execute | outOfBounds | diverge => cases done
  obtain ⟨running, current⟩ := search_log_searching ran
  have reaches : n + 1 = f.job.state.curInstructionLength := by
    have size := congrArg List.length (current.symm.trans string)
    rw [State.currentInstruction, Buffer.string_length _ _ running.length, List.length_append,
      Buffer.string_length _ _ (by omega)] at size
    exact size.symm
  rw [current, State.currentInstruction, ← reaches] at string
  rcases overtaken_total logged ran with rfl | later | earlier
  · rw [Buffer.prefixValue, string] at smaller
    exact Nat.lt_irrefl _ smaller
  · -- a later string differs from the entry's in front of the prefix's end
    have less := later.lt count n (by omega) (by omega)
    have agrees : f.job.state.instructionBytes.string n =
        e.job.state.instructionBytes.string n := by
      rw [← Buffer.string_take _ (Nat.le_succ n), string]
      exact List.take_left' (Buffer.string_length _ _ (by omega))
    rw [Buffer.prefixValue, Buffer.prefixValue, agrees] at less
    exact Nat.lt_irrefl _ less
  · have le := earlier.le (n + 1) (by omega)
    rw [Buffer.prefixValue, string] at le
    exact Nat.lt_irrefl _ (Nat.lt_of_lt_of_le smaller le)

/-- In a run that reaches Done, every value after a complete prefix is covered exactly if
no counted instruction passes its prefix over. -/
theorem prefixes_covered_iff (p : Platform) (a : Baseline b) (rs : List (Response b))
    (done : (search p a rs).outcome.isDone = true) :
    PrefixesCovered p (search p a rs) ↔
      ∀ e ∈ countedIn p (search p a rs), ¬ prefixPassedOver e.job.state := by
  constructor
  · intro covered e member ⟨same, notPrefix, n, behind, inside, complete⟩
    obtain ⟨logged, -⟩ := List.mem_filter.mp member
    obtain ⟨searching, current⟩ := search_log_searching logged
    have length := searching.length
    have size : (e.job.state.instructionBytes.string n).length = n :=
      Buffer.string_length _ _ (by omega)
    have front : e.job.state.instructionBytes.string n <+: e.job.instruction := by
      rw [current, State.currentInstruction, ← Buffer.string_take _ (Nat.le_of_lt inside)]
      exact List.take_prefix _ _
    have longer : (e.job.state.instructionBytes.string n).length < e.job.instruction.length := by
      rw [size, current, State.currentInstruction, Buffer.string_length _ _ length]
      exact inside
    rcases covered e member _ complete front longer 1 with wanted | rejected
    · exact passed_over_never_handed done member same notPrefix behind inside wanted
    · rw [rejectedByFilter_eq, complete_prefix_accepts complete] at rejected
      cases rejected
  · intro never e member pre complete front longer
    obtain ⟨logged, count⟩ := List.mem_filter.mp member
    obtain ⟨searching, current⟩ := search_log_searching logged
    have length := searching.length
    rw [current, State.currentInstruction] at front longer
    rw [Buffer.string_length _ _ length] at longer
    have string : pre = e.job.state.instructionBytes.string pre.length := by
      rw [← Buffer.string_take _ (Nat.le_of_lt longer)]
      exact (List.prefix_iff_eq_take.mp front)
    have reached : pre.length ≤ firstIndex e.job.state := by
      unfold firstIndex
      split
      · rename_i stays
        by_contra beyond
        exact never e member ⟨stays.1, stays.2, pre.length, by omega, longer, string ▸ complete⟩
      · omega
    exact (search_covered p a rs).done done pre
      ⟨e, logged, pre.length, string, .inr ⟨count, reached⟩⟩

def generalProtectionTwo : Response (Build.makefile .mode64) :=
  { generalProtection with disasmLength := 2 }

/-- A processor on which what starts with 0x66 has two bytes and all else has one. -/
def operandSizeResponses : List (Response (Build.makefile .mode64)) :=
  List.replicate 102 generalProtection ++ [instructionFetchFault] ++
    List.replicate 226 generalProtectionTwo ++ List.replicate 153 generalProtection

def operandSizeSearch : Run (Build.makefile .mode64) :=
  search Platform.reliable measuredBaseline operandSizeResponses

theorem operand_size_search_done :
    operandSizeSearch.outcome.isDone = true ∧
      (operandSizeSearch.log.all fun e => decide
        (e.job.state.curInstructionLength = e.job.state.lastInstructionLength →
          e.job.state.curInstructionLength = e.job.state.curByteIndex + 1)) = true ∧
      ((countedIn Platform.reliable operandSizeSearch).any fun e =>
        decide (e.job.instruction = [0x66, 0x00])) = true := by decide +kernel

theorem operand_size_prefix_covered :
    PrefixesCovered Platform.reliable operandSizeSearch ∧
      Settled .mode64 (handed Platform.reliable operandSizeSearch) [0x66] := by
  obtain ⟨done, last, some⟩ := operand_size_search_done
  have covered : PrefixesCovered Platform.reliable operandSizeSearch := by
    refine (prefixes_covered_iff Platform.reliable measuredBaseline operandSizeResponses
      done).mpr ?_
    rintro e member ⟨same, -, n, behind, inside, -⟩
    have logged := (List.mem_filter.mp member).1
    have ends := of_decide_eq_true (List.all_eq_true.mp last e logged) same
    omega
  refine ⟨covered, ?_⟩
  obtain ⟨e, member, ran⟩ := List.any_eq_true.mp some
  have ran := of_decide_eq_true ran
  exact covered e member [0x66] (by decide +kernel) ⟨[0x00], ran.symm⟩ (by rw [ran]; decide)

theorem vex_search_passes :
    ((countedIn Platform.reliable vexSearch).any fun e =>
        decide (e.job.instruction = [0xc5, 0xf8, 0x00])) = true ∧
      ¬ ([0xc5, 0xf8, 0x01] ∈ handed Platform.reliable vexSearch ∨
        rejectedByFilter .mode64 [0xc5, 0xf8, 0x01] = true) := by decide +kernel

theorem vex_prefix_passed_over :
    vexSearch.outcome.isDone = true ∧ ¬ PrefixesCovered Platform.reliable vexSearch := by
  obtain ⟨some, never⟩ := vex_search_passes
  refine ⟨vex_search_done.1, fun covered => ?_⟩
  obtain ⟨e, member, ran⟩ := List.any_eq_true.mp some
  have ran := of_decide_eq_true ran
  exact never (covered e member [0xc5, 0xf8] (by decide +kernel) ⟨[0x00], ran.symm⟩
    (by rw [ran]; decide) 1)

end PmcBruteforce
