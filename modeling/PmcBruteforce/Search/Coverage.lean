import PmcBruteforce.Search.Progress

/-! Coverage: at a position where the pointer stood, no value is left out. The invariant
speaks of the positions up to the pointer, where the values up to the current byte are
settled, and of the positions it has left, where all of them are. -/
namespace PmcBruteforce

variable {b : Build}

/-- Each string one byte longer than `q` has been handed out or is rejected. -/
def Settled (mode : CpuMode) (strings : List (List UInt8)) (q : List UInt8) : Prop :=
  ∀ v, q ++ [v] ∈ strings ∨ rejectedByFilter mode (q ++ [v]) = true

/-- The pointer stood behind `q`: when the entry's instruction ran, or when the update that
followed it began. -/
def Stood (p : Platform) (log : List (Entry b)) (q : List UInt8) : Prop :=
  ∃ e ∈ log, ∃ k, q = e.job.state.instructionBytes.string k ∧
    (k ≤ e.job.state.curByteIndex ∨ counted p e = true ∧ k ≤ firstIndex e.job.state)

structure Covered (p : Platform) (s : State b) (strings : List (List UInt8))
    (log : List (Entry b)) : Prop where
  grown : ∀ n, s.curByteIndex < n → n ≤ s.curInstructionLength →
    s.instructionBytes.string n ∈ strings
  tried : ∀ k ≤ s.curByteIndex, ∀ v ≤ s.instructionBytes.get k,
    s.instructionBytes.string k ++ [v] ∈ strings ∨
      rejectedByFilter b.cpuMode (s.instructionBytes.string k ++ [v]) = true
  past : ∀ q, Stood p log q →
    (∃ k ≤ s.curByteIndex, q = s.instructionBytes.string k) ∨ Settled b.cpuMode strings q

theorem Settled.mono {mode : CpuMode} {strings strings' : List (List UInt8)} {q : List UInt8}
    (h : Settled mode strings q) (more : strings ⊆ strings') : Settled mode strings' q :=
  fun v => (h v).imp_left fun member => more member

/-- The forced move passes zero bytes only, and those strings ran while the instruction grew. -/
theorem Covered.tried_to_first {p : Platform} {s : State b} {strings : List (List UInt8)}
    {log : List (Entry b)} (h : Covered p s strings log) (searching : Searching s) :
    ∀ k ≤ firstIndex s, ∀ v ≤ s.instructionBytes.get k,
      s.instructionBytes.string k ++ [v] ∈ strings ∨
        rejectedByFilter b.cpuMode (s.instructionBytes.string k ++ [v]) = true := by
  intro k high v le
  rcases Nat.lt_or_ge s.curByteIndex k with later | earlier
  · have inside := searching.first_index_lt
    have length := searching.length
    have zero := searching.behind k later
    have same : v = s.instructionBytes.get k := by
      rw [zero] at le ⊢
      exact UInt8.le_antisymm le (UInt8.zero_le)
    left
    rw [same, ← Buffer.string_succ _ _ (by omega)]
    exact h.grown (k + 1) (by omega) (by omega)
  · exact h.tried k earlier v le

theorem settled_of_none_greater {mode : CpuMode} {strings : List (List UInt8)} {x : Buffer}
    {k : Nat}
    (tried : ∀ v ≤ x.get k, x.string k ++ [v] ∈ strings ∨
      rejectedByFilter mode (x.string k ++ [v]) = true)
    (none : NoneGreater mode x k) : Settled mode strings (x.string k) := by
  intro v
  rcases Nat.lt_or_ge (x.get k).toNat v.toNat with greater | le
  · exact .inr (none v (UInt8.lt_iff_toNat_lt.mpr greater))
  · exact tried v (UInt8.le_iff_toNat_le.mpr le)

theorem Stood.of_uncounted {p : Platform} {log : List (Entry b)} {e : Entry b} {q : List UInt8}
    (h : Stood p (e :: log) q) (skipped : ¬ counted p e = true) :
    (∃ k ≤ e.job.state.curByteIndex, q = e.job.state.instructionBytes.string k) ∨
      Stood p log q := by
  obtain ⟨f, member, k, rfl, place⟩ := h
  rcases List.mem_cons.mp member with rfl | member
  · rcases place with index | ⟨count, -⟩
    · exact .inl ⟨k, index, rfl⟩
    · exact absurd count skipped
  · exact .inr ⟨f, member, k, rfl, place⟩

theorem Stood.of_counted {p : Platform} {log : List (Entry b)} {e : Entry b} {q : List UInt8}
    (h : Stood p (e :: log) q) (searching : Searching e.job.state) :
    (∃ k ≤ firstIndex e.job.state, q = e.job.state.instructionBytes.string k) ∨
      Stood p log q := by
  obtain ⟨f, member, k, rfl, place⟩ := h
  rcases List.mem_cons.mp member with rfl | member
  · have := searching.first_index_ge
    exact .inl ⟨k, by omega, rfl⟩
  · exact .inr ⟨f, member, k, rfl, place⟩

theorem Covered.again {p : Platform} {s s' : State b} {strings : List (List UInt8)}
    {log : List (Entry b)} (h : Covered p s strings log) {e : Entry b} (state : e.job.state = s)
    (skipped : ¬ counted p e = true) (bytes : s'.instructionBytes = s.instructionBytes)
    (index : s'.curByteIndex = s.curByteIndex)
    (length : s'.curInstructionLength ≤ s.curInstructionLength + 1) :
    Covered p s' (s'.currentInstruction :: strings) (e :: log) where
  grown n later inside := by
    rw [bytes]
    rw [index] at later
    by_cases short : n ≤ s.curInstructionLength
    · exact List.mem_cons_of_mem _ (h.grown n later short)
    · have same : n = s'.curInstructionLength := by omega
      rw [State.currentInstruction, bytes, same]
      exact List.mem_cons_self
  tried k low v le := by
    rw [bytes] at le ⊢
    rw [index] at low
    exact (h.tried k low v le).imp_left fun member => List.mem_cons_of_mem _ member
  past q stood := by
    rw [bytes, index]
    rcases stood.of_uncounted skipped with ⟨k, low, rfl⟩ | stood
    · exact .inl ⟨k, state ▸ low, by rw [state]⟩
    · exact (h.past q stood).imp_right fun settled => settled.mono (List.subset_cons_self _ _)

theorem Covered.move {p : Platform} {s s' : State b} {strings : List (List UInt8)}
    {log : List (Entry b)} (h : Covered p s strings log) (searching : Searching s)
    {e : Entry b} (state : e.job.state = s) {l : PointerLoop}
    (next : NextCandidate b.cpuMode s.instructionBytes (firstIndex s) l)
    (bytes : s'.instructionBytes = l.instructionBytes) (index : s'.curByteIndex = l.curByteIndex)
    (length : s'.curInstructionLength = l.curInstructionLength) :
    Covered p s' (s'.currentInstruction :: strings) (e :: log) := by
  have inside : l.curByteIndex < 15 := Nat.lt_of_le_of_lt next.index
    (Nat.lt_of_lt_of_le searching.first_index_lt searching.length)
  have tried := h.tried_to_first searching
  have current : s'.currentInstruction = l.instructionBytes.string (l.curByteIndex + 1) := by
    rw [State.currentInstruction, bytes, length, next.length]
  have candidate : s'.currentInstruction =
      s.instructionBytes.string l.curByteIndex ++ [l.instructionBytes.get l.curByteIndex] := by
    rw [current, Buffer.string_succ _ _ inside, next.before]
  refine ⟨?_, ?_, ?_⟩
  · intro n later le
    have same : n = l.curByteIndex + 1 := by
      have := next.length
      omega
    rw [bytes, same, ← current]
    exact List.mem_cons_self
  · intro k low v le
    rw [bytes] at le ⊢
    rw [index] at low
    have before := Buffer.string_eq_of_le next.before low
    rw [before]
    rcases Nat.lt_or_eq_of_le low with earlier | rfl
    · rw [Buffer.get_eq_of_string next.before earlier] at le
      exact (tried k (Nat.le_trans low next.index) v le).imp_left
        fun member => List.mem_cons_of_mem _ member
    · rcases UInt8.lt_or_eq_of_le le with less | rfl
      · rcases Nat.lt_or_ge (s.instructionBytes.get l.curByteIndex).toNat v.toNat with above | below
        · exact .inr (next.skipped v (UInt8.lt_iff_toNat_lt.mpr above) less)
        · exact (tried _ next.index v (UInt8.le_iff_toNat_le.mpr below)).imp_left
            fun member => List.mem_cons_of_mem _ member
      · rw [← candidate]
        exact .inl List.mem_cons_self
  · intro q stood
    rw [bytes, index]
    have left : ∀ k ≤ firstIndex s,
        (∃ j ≤ l.curByteIndex, s.instructionBytes.string k = l.instructionBytes.string j) ∨
          Settled b.cpuMode (s'.currentInstruction :: strings) (s.instructionBytes.string k) := by
      intro k high
      rcases Nat.lt_or_ge l.curByteIndex k with later | earlier
      · exact .inr ((settled_of_none_greater (tried k high) (next.passed k later high)).mono
          (List.subset_cons_self _ _))
      · exact .inl ⟨k, earlier, (Buffer.string_eq_of_le next.before earlier).symm⟩
    rcases stood.of_counted (state ▸ searching) with ⟨k, high, rfl⟩ | stood
    · rw [state] at high ⊢
      exact left k high
    · rcases h.past q stood with ⟨k, low, rfl⟩ | settled
      · exact left k (Nat.le_trans low searching.first_index_ge)
      · exact .inr (settled.mono (List.subset_cons_self _ _))

/-- Coverage of a run: the invariant while it goes on, and everything settled at its end. -/
structure CoveredRun (p : Platform) (t : Run b) : Prop where
  current : ∀ i s, t.outcome = .execute i s → Covered p s (handed p t) t.log
  done : t.outcome.isDone = true → ∀ q, Stood p t.log q → Settled b.cpuMode (handed p t) q

theorem search_covered (p : Platform) (a : Baseline b) (rs : List (Response b)) :
    CoveredRun p (search p a rs) := by
  apply search_invariant (CoveredRun p)
  · refine ⟨?_, fun done => by cases done⟩
    intro i s same
    obtain ⟨rfl, rfl⟩ := Outcome.execute.inj same
    refine ⟨?_, ?_, fun q stood => by obtain ⟨e, member, -⟩ := stood; cases member⟩
    · intro n later inside
      have one : n = 1 := Nat.le_antisymm inside later
      rw [one]
      exact List.mem_cons_self
    · intro k low v le
      obtain rfl := Nat.le_zero.mp low
      have zero : v = 0 := UInt8.le_antisymm (Buffer.get_zero 0 ▸ le) UInt8.zero_le
      rw [zero]
      exact .inl List.mem_cons_self
  · intro s log r searching covered
    have before := covered.current _ s rfl
    have handled := searching.handled p r
    generalize handleException p s r = o at handled
    cases handled with
    | grown fault short =>
      refine ⟨?_, fun done => by cases done⟩
      intro i s' same
      obtain ⟨rfl, rfl⟩ := Outcome.execute.inj same
      exact before.again rfl (not_counted_of_grown _ fault short) rfl rfl (Nat.le_refl _)
    | restarted notGrown unstable =>
      refine ⟨?_, fun done => by cases done⟩
      intro i s' same
      obtain ⟨rfl, rfl⟩ := Outcome.execute.inj same
      exact before.again rfl (not_counted_of_restarted _ unstable) rfl rfl (Nat.le_succ _)
    | saveFailed => exact ⟨fun i s' same => (by cases same), fun done => by cases done⟩
    | moved proceeds s'' l success next =>
      refine ⟨?_, fun done => by cases done⟩
      intro i s' same
      obtain ⟨rfl, rfl⟩ := Outcome.execute.inj same
      exact before.move searching rfl next rfl rfl rfl
    | done proceeds s'' l success exhausted =>
      refine ⟨fun i s' same => (by cases same), ?_⟩
      intro _ q stood
      have tried := before.tried_to_first searching
      rcases stood.of_counted searching with ⟨k, high, rfl⟩ | stood
      · exact settled_of_none_greater (tried k high) (exhausted k high)
      · rcases before.past q stood with ⟨k, low, rfl⟩ | settled
        · have high := Nat.le_trans low searching.first_index_ge
          exact settled_of_none_greater (tried k high) (exhausted k high)
        · exact settled

/-- In a run that reaches Done, no value is skipped at a position where the pointer stood. -/
theorem pointer_values_covered (p : Platform) (a : Baseline b) (rs : List (Response b))
    (done : (search p a rs).outcome.isDone = true) (q : List UInt8) (e : Entry b)
    (member : e ∈ (search p a rs).log) (index : e.job.state.curByteIndex = q.length)
    (bytes : e.job.state.instructionBytes.string q.length = q) (v : UInt8) :
    q ++ [v] ∈ handed p (search p a rs) ∨ rejectedByFilter b.cpuMode (q ++ [v]) = true :=
  (search_covered p a rs).done done q
    ⟨e, member, q.length, bytes.symm, .inl (Nat.le_of_eq index.symm)⟩ v

def generalProtectionThree : Response (Build.makefile .mode64) :=
  { generalProtection with disasmLength := 3 }

/-- A processor on which what starts with 0xc5 has three bytes and all else has one. -/
def vexResponses : List (Response (Build.makefile .mode64)) :=
  List.replicate 197 generalProtection ++ [instructionFetchFault] ++
    (List.replicate 9 [instructionFetchFault, generalProtectionThree]).flatten ++
    List.replicate 58 generalProtection

def vexSearch : Run (Build.makefile .mode64) :=
  search Platform.reliable measuredBaseline vexResponses

theorem vex_search_done :
    vexSearch.outcome.isDone = true ∧
      (vexSearch.log.any fun e => decide (e.job.state.curByteIndex = 1 ∧
        e.job.state.instructionBytes.string 1 = [0xc5])) = true := by decide +kernel

/-- The pointer comes back to the second byte each time the third one is zeroed. -/
theorem vex_values_covered :
    [0xc5, 0xf9] ∈ handed Platform.reliable vexSearch ∨
      rejectedByFilter .mode64 [0xc5, 0xf9] = true := by
  obtain ⟨done, some⟩ := vex_search_done
  obtain ⟨e, member, stands⟩ := List.any_eq_true.mp some
  obtain ⟨index, bytes⟩ := of_decide_eq_true stands
  exact pointer_values_covered Platform.reliable measuredBaseline vexResponses done [0xc5] e
    member index bytes 0xf9

end PmcBruteforce
