import PmcBruteforce.Search.Boot

/-! The final length is the one the processor decodes. A candidate starts one byte beyond the
pointer, and that is never beyond its end: a shorter instruction would have been one
already in the string the update started from. -/
namespace PmcBruteforce

variable {b : Build}

/-- A prefix-free instruction set: the length of the first instruction of a byte stream,
which no byte behind that instruction can change. -/
structure InstructionSet where
  length : (Nat → UInt8) → Nat
  positive : ∀ stream, 1 ≤ length stream
  bounded : ∀ stream, length stream ≤ 15
  prefixFree : ∀ stream stream', (∀ i < length stream, stream i = stream' i) →
    length stream' = length stream

def Extends (stream : Nat → UInt8) (bytes : List UInt8) : Prop :=
  ∀ i < bytes.length, stream i = byteAt bytes i

/-- Every response to an instruction is the fault behind the page exactly when the
instruction, continued in any way, is longer than what ran. -/
def Conforms (p : Platform) (cpu : InstructionSet) (t : Run b) : Prop :=
  ∀ e ∈ t.log, ∀ stream, Extends stream e.job.instruction →
    (e.response.boundaryFetchFault p = true ↔ e.job.instruction.length < cpu.length stream)

/-- What will run is not longer than the instruction it begins. -/
def Within (cpu : InstructionSet) (s : State b) : Prop :=
  ∀ stream, Extends stream s.currentInstruction → s.curInstructionLength ≤ cpu.length stream

theorem Extends.string {stream : Nat → UInt8} {x : Buffer} {n : Nat}
    (h : Extends stream (x.string n)) (bound : n ≤ 15) : ∀ i < n, stream i = x.get i := by
  intro i inside
  rw [h i (by rw [x.string_length n bound]; exact inside), Buffer.string, byteAt_take _ _ _ inside]
  rfl

theorem extends_string {stream : Nat → UInt8} {x : Buffer} {n : Nat} (bound : n ≤ 15)
    (h : ∀ i < n, stream i = x.get i) : Extends stream (x.string n) := by
  intro i inside
  rw [x.string_length n bound] at inside
  rw [h i inside, Buffer.string, byteAt_take _ _ _ inside]
  rfl

theorem Within.candidate {cpu : InstructionSet} {s s' : State b} (h : Within cpu s)
    (searching : Searching s) {l : PointerLoop}
    (next : NextCandidate b.cpuMode s.instructionBytes (firstIndex s) l)
    (bytes : s'.instructionBytes = l.instructionBytes)
    (length : s'.curInstructionLength = l.curInstructionLength) : Within cpu s' := by
  intro stream extends_
  have bound := searching.length
  have first := searching.first_index_lt
  have index := next.index
  have size := next.length
  rw [State.currentInstruction, bytes, length] at extends_
  have agrees := extends_.string (by omega)
  rw [length, size]
  by_contra short
  -- what runs already would decode to the same shorter instruction
  have same : ∀ i < cpu.length stream, stream i = s.instructionBytes.get i := by
    intro i inside
    rw [agrees i (by omega)]
    exact Buffer.get_eq_of_string next.before (by omega)
  have equal := cpu.prefixFree stream s.instructionBytes.get same
  have within := h s.instructionBytes.get (extends_string bound fun _ _ => rfl)
  omega

theorem Within.step {p : Platform} {cpu : InstructionSet} {s s' : State b} (h : Within cpu s)
    (searching : Searching s) {r : Response b} {i : List UInt8}
    (run : handleException p s r = .execute i s')
    (conforms : ∀ stream, Extends stream s.currentInstruction →
      (r.boundaryFetchFault p = true ↔ s.curInstructionLength < cpu.length stream)) :
    Within cpu s' := by
  cases (searching.executes run).1 with
  | grown fault short =>
    intro stream longer
    have agrees := Extends.string longer short
    have shorter : Extends stream s.currentInstruction :=
      extends_string searching.length fun k inside => agrees k (Nat.lt_succ_of_lt inside)
    exact (conforms stream shorter).mp fault
  | restarted => exact h
  | moved _ s'' l _ next => exact h.candidate searching next rfl rfl

theorem Conforms.current {p : Platform} {cpu : InstructionSet} {s : State b} {r : Response b}
    {o : Outcome b} {log : List (Entry b)} (searching : Searching s)
    (h : Conforms p cpu ⟨o, ⟨⟨s.currentInstruction, s⟩, r⟩ :: log⟩) (stream : Nat → UInt8)
    (extends_ : Extends stream s.currentInstruction) :
    r.boundaryFetchFault p = true ↔ s.curInstructionLength < cpu.length stream := by
  have iff := h _ List.mem_cons_self stream extends_
  simp only [State.currentInstruction, Buffer.string_length _ _ searching.length] at iff
  exact iff

/-- The invariant of a run against the instruction set. -/
structure WithinRun (cpu : InstructionSet) (t : Run b) : Prop where
  current : ∀ i s, t.outcome = .execute i s → Within cpu s
  log : ∀ e ∈ t.log, Within cpu e.job.state

theorem search_within (p : Platform) (a : Baseline b) (cpu : InstructionSet)
    (rs : List (Response b)) :
    Conforms p cpu (search p a rs) → WithinRun cpu (search p a rs) := by
  apply search_invariant fun t => Conforms p cpu t → WithinRun cpu t
  · intro _
    refine ⟨?_, fun e member => by cases member⟩
    intro i s same
    obtain ⟨rfl, rfl⟩ := Outcome.execute.inj same
    exact fun stream _ => cpu.positive stream
  · intro s log r searching earlier conforms
    have before := earlier fun e member => conforms e (List.mem_cons_of_mem _ member)
    have within := before.current _ s rfl
    refine ⟨fun i s' run => within.step searching run (conforms.current searching), ?_⟩
    intro e member
    rcases List.mem_cons.mp member with rfl | member
    · exact within
    · exact before.log e member

theorem typeBeforeSwitch_mismatch (s : State b) (r : Response b) :
    typeBeforeSwitch s r = .xedLengthMismatch ↔
      r.instructionIsKnown = true ∧ UInt64.ofNat s.curInstructionLength ≠ r.disasmLength := by
  unfold typeBeforeSwitch
  by_cases mismatch : (r.instructionIsKnown &&
      UInt64.ofNat s.curInstructionLength != r.disasmLength) = true
  · simp only [if_pos mismatch, true_iff]
    simpa using mismatch
  · have other : ¬ (r.instructionIsKnown = true ∧
        UInt64.ofNat s.curInstructionLength ≠ r.disasmLength) := by simpa using mismatch
    simp only [if_neg mismatch, other, iff_false]
    cases r.userMode <;> split <;> simp

theorem counted_length_eq {p : Platform} {a : Baseline b} {cpu : InstructionSet}
    {rs : List (Response b)} (conforms : Conforms p cpu (search p a rs)) {e : Entry b}
    (member : e ∈ countedIn p (search p a rs)) {stream : Nat → UInt8}
    (extends_ : Extends stream e.job.state.currentInstruction) :
    e.job.state.curInstructionLength = cpu.length stream := by
  obtain ⟨logged, count⟩ := List.mem_filter.mp member
  obtain ⟨searching, current⟩ := search_log_searching logged
  have lower := (search_within p a cpu rs conforms).log e logged stream extends_
  have fault := conforms e logged stream (current.symm ▸ extends_)
  rw [current, State.currentInstruction, Buffer.string_length _ _ searching.length] at fault
  by_contra different
  have limit := cpu.bounded stream
  have short : e.job.state.curInstructionLength < 15 := by omega
  exact not_counted_of_grown e.job.instruction (fault.mpr (by omega)) short count

/-- The file decodes, behind what the baseline phase has left in it, to the records of the log,
and each of them has the length the processor decodes for its bytes. -/
def LengthsRecorded (p : Platform) (a : Baseline b) (cpu : InstructionSet) (t : Run b) : Prop :=
  ∀ s, t.outcome.globals = some s → s.saveFile.Unfailed → ∃ bytes,
    s.saveFile.content = a.saveFile.content ++ bytes ∧
      (writtenFormat b).decodeAll bytes = some (savedRecords p t.log) ∧
      ∀ record ∈ savedRecords p t.log, ∀ stream, Extends stream record.instruction →
        record.instruction.length = cpu.length stream

theorem search_lengths_recorded {p : Platform} {a : Baseline b} {cpu : InstructionSet}
    {rs : List (Response b)} (conforms : Conforms p cpu (search p a rs))
    (saving : b.noSave = false) (healthy : a.saveFile.Healthy) (unfailed : a.saveFile.Unfailed) :
    LengthsRecorded p a cpu (search p a rs) := by
  intro s here good
  have file := search_file p a saving healthy unfailed rs
  have described : Described p a s (search p a rs).log := by
    cases outcome : (search p a rs).outcome with
    | execute i s' =>
      rw [outcome] at here
      obtain rfl := Option.some.inj here
      exact (file.running i s' outcome).1
    | halt reason s' =>
      rw [outcome] at here
      obtain rfl := Option.some.inj here
      exact (file.halted reason s' outcome).resolve_right fun last => last.not_unfailed good
    | outOfBounds | diverge =>
      rw [outcome] at here
      cases here
  refine ⟨_, described.content, ?_, ?_⟩
  · exact (writtenFormat b).decodeAll_encode (fun r _ => r.encode_ne_nil) _ savedRecords_valid
  · intro record member stream extends_
    obtain ⟨e, kept, rfl⟩ := List.mem_map.mp member
    obtain ⟨logged, both⟩ := List.mem_filter.mp (List.mem_reverse.mp kept)
    have counted : e ∈ countedIn p (search p a rs) :=
      List.mem_filter.mpr ⟨logged, ((Bool.and_eq_true _ _).mp both).1⟩
    have size := Buffer.string_length e.job.state.instructionBytes _
      (search_log_searching logged).1.length
    exact size.trans (counted_length_eq conforms counted extends_)

/-- On a prefix-free processor the pointer never stands beyond the end of an instruction,
and the length of a counted one, the length compared with the disassembler's and the
length in its record are the processor's. -/
theorem measured_length_eq (p : Platform) (a : Baseline b) (cpu : InstructionSet)
    (rs : List (Response b)) (conforms : Conforms p cpu (search p a rs)) :
    (∀ e ∈ countedIn p (search p a rs), ∀ stream,
      Extends stream e.job.state.currentInstruction →
        e.job.state.curInstructionLength = cpu.length stream ∧
        (typeBeforeSwitch e.job.state e.response = .xedLengthMismatch ↔
          e.response.instructionIsKnown = true ∧
            UInt64.ofNat (cpu.length stream) ≠ e.response.disasmLength)) ∧
    (b.noSave = false → a.saveFile.Healthy → a.saveFile.Unfailed →
      LengthsRecorded p a cpu (search p a rs)) ∧
    (∀ e ∈ (search p a rs).log, ∀ stream, Extends stream e.job.state.currentInstruction →
      e.job.state.curByteIndex < cpu.length stream) ∧
    (∀ i s, (search p a rs).outcome = .execute i s → ∀ stream,
      Extends stream s.currentInstruction → s.curByteIndex < cpu.length stream) := by
  have within := search_within p a cpu rs conforms
  refine ⟨?_, search_lengths_recorded conforms, ?_, ?_⟩
  · intro e member stream extends_
    have equal := counted_length_eq conforms member extends_
    exact ⟨equal, equal ▸ typeBeforeSwitch_mismatch _ _⟩
  · intro e member stream extends_
    exact Nat.lt_of_lt_of_le (search_log_searching member).1.index
      (within.log e member stream extends_)
  · intro i s running stream extends_
    exact Nat.lt_of_lt_of_le (search_searching running).1.index
      (within.current i s running stream extends_)

def twoByteInstructions : InstructionSet where
  length _ := 2
  positive _ := by decide
  bounded _ := by decide
  prefixFree _ _ _ := rfl

def twoByteSearch : Run (Build.makefile .mode64) :=
  search Platform.reliable measuredBaseline [instructionFetchFault, generalProtection]

/-- The one record has the length 2 in its type byte, and two bytes behind it. -/
theorem two_byte_length_measured :
    (twoByteSearch.outcome.globals.map fun s => s.saveFile.content) =
        some [13, 7, 5, 6, 0x72, 0, 0] ∧
      (∀ e ∈ countedIn Platform.reliable twoByteSearch, e.job.state.curInstructionLength = 2) ∧
      LengthsRecorded Platform.reliable measuredBaseline twoByteInstructions twoByteSearch := by
  have answers : twoByteSearch.log.all (fun e => e.response.boundaryFetchFault Platform.reliable ==
      decide (e.job.instruction.length < 2)) = true := by decide +kernel
  have conforms : Conforms Platform.reliable twoByteInstructions twoByteSearch := by
    intro e member stream _
    have same := beq_iff_eq.mp (List.all_eq_true.mp answers e member)
    rw [same]
    exact decide_eq_true_iff
  obtain ⟨lengths, recorded, -⟩ := measured_length_eq Platform.reliable measuredBaseline
    twoByteInstructions [instructionFetchFault, generalProtection] conforms
  have unfailed : SaveFile.opened.Unfailed := by simp [SaveFile.Unfailed, SaveFile.opened]
  refine ⟨by decide +kernel, fun e member => ?_, recorded rfl opened_healthy unfailed⟩
  refine (lengths e member e.job.state.instructionBytes.get ?_).1
  exact extends_string (search_log_searching (List.mem_filter.mp member).1).1.length
    fun _ _ => rfl

end PmcBruteforce
