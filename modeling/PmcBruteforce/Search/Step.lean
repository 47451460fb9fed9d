import PmcBruteforce.Search.Handler

/-! One call of the handler in a running search: the invariant of the search globals, and
the five ways in which a call can end. -/
namespace PmcBruteforce

variable {b : Build}

/-- The invariant of a running search. -/
structure Searching (s : State b) : Prop where
  measuringUd : s.measuringUd = false
  measuringNop : s.measuringNop = false
  index : s.curByteIndex < s.curInstructionLength
  length : s.curInstructionLength ≤ 15
  behind : ∀ k, s.curByteIndex < k → s.instructionBytes.get k = 0
  accepted : rejectedByFilter b.cpuMode (s.instructionBytes.string (s.curByteIndex + 1)) = false
  malformed : s.malformedInstructionExpectUd = false

def curByteIsPrefix (s : State b) : Bool :=
  match countPrefixes b.cpuMode s.instructionBytes.bytes s.curInstructionLength with
  | none => false
  | some count => s.curByteIndex < count

/-- Where the pointer stands when its update begins. -/
def firstIndex (s : State b) : Nat :=
  if s.curInstructionLength = s.lastInstructionLength ∧ curByteIsPrefix s = false then
    s.curByteIndex
  else s.curInstructionLength - 1

theorem Searching.first_index_ge {s : State b} (h : Searching s) :
    s.curByteIndex ≤ firstIndex s := by
  have := h.index
  unfold firstIndex
  split <;> omega

theorem Searching.first_index_lt {s : State b} (h : Searching s) :
    firstIndex s < s.curInstructionLength := by
  have := h.index
  unfold firstIndex
  split <;> omega

theorem count_and_save_ok {p : Platform} {r : Response b} {c : Classified b} {s s' : State b}
    (h : countAndSave p r c s = .ok s') :
    s' = { s with stats := s'.stats, flushRequired := s'.flushRequired,
                  saveFile := s'.saveFile } := by
  rcases count_and_save_cases p r c s with ⟨-, run⟩ | ⟨-, -, run⟩ | ⟨-, -, run⟩
  all_goals
    rw [run] at h
    cases h
  all_goals rfl

theorem count_and_save_error {p : Platform} {r : Response b} {c : Classified b} {s : State b}
    {o : Outcome b} (h : countAndSave p r c s = .error o) : ∃ s', o = .halt .saveFailed s' := by
  rcases count_and_save_cases p r c s with ⟨-, run⟩ | ⟨-, -, run⟩ | ⟨-, -, run⟩
  · cases run.symm.trans h
  · cases run.symm.trans h
  · exact ⟨_, (Except.error.inj (run.symm.trans h)).symm⟩

theorem count_and_save_unique {p : Platform} {r : Response b} {c : Classified b} {s : State b} :
    (∀ s', countAndSave p r c s = .ok s' →
      s'.stats.uniqueInstructionsExecuted = s.stats.uniqueInstructionsExecuted) ∧
    (∀ s', countAndSave p r c s = .error (.halt .saveFailed s') →
      s'.stats.uniqueInstructionsExecuted = s.stats.uniqueInstructionsExecuted) := by
  rcases count_and_save_cases p r c s with ⟨-, run⟩ | ⟨-, -, run⟩ | ⟨-, -, run⟩
  all_goals
    rw [run]
    constructor
  all_goals
    intro s' same
    cases same
  all_goals simp

theorem count_unique_fields (p : Platform) (s : State b) :
    countUnique p s = { s with
      stats := { s.stats with
        uniqueInstructionsExecuted := s.stats.uniqueInstructionsExecuted + 1 }
      flushRequired := (countUnique p s).flushRequired
      saveFile := (countUnique p s).saveFile } := by
  unfold countUnique
  simp only
  split
  · split <;> rfl
  · rfl

def pointerStart (s : State b) : PointerLabel × State b :=
  (if s.curInstructionLength = s.lastInstructionLength ∧ curByteIsPrefix s = false then
      .updateByteIndex
    else .doBody,
    { s with
      curByteIndex := firstIndex s
      lastInstructionLength := s.curInstructionLength })

theorem Searching.trying {s : State b} (h : Searching s) :
    Trying b.cpuMode s.instructionBytes (firstIndex s) (pointerStart s).1
      (pointerStart s).2.pointerLoop where
  index := Nat.le_refl _
  before := rfl
  behind k later := h.behind k (Nat.lt_of_le_of_lt h.first_index_ge later)
  here := UInt8.le_refl _
  tried v greater le := absurd greater (UInt8.not_lt.mpr le)
  passed k later high := absurd high (Nat.not_le.mpr later)
  length label := by
    have index := h.index
    simp only [pointerStart, State.pointerLoop, firstIndex] at label ⊢
    split at label
    · cases label
    · rename_i forced
      rw [if_neg forced]
      omega

theorem Searching.counts_prefixes {s : State b} (h : Searching s) :
    ∃ count, countPrefixes b.cpuMode s.instructionBytes.bytes s.curInstructionLength =
      some count := by
  have index := h.index
  have length := h.length
  have size := s.instructionBytes.size
  have accepted : accepts b.cpuMode (s.instructionBytes.bytes.take (s.curByteIndex + 1)) = true := by
    have same := h.accepted
    rw [rejectedByFilter_eq] at same
    simpa [Buffer.string] using same
  obtain ⟨count, counted, -⟩ := count_prefixes_in_bounds b.cpuMode s.instructionBytes.bytes
    (s.curByteIndex + 1) s.curInstructionLength (by omega) (by omega) (by omega) accepted
    (fun k later => h.behind k (by omega))
  exact ⟨count, counted⟩

theorem Searching.update_pointer_eq {s : State b} (h : Searching s) (p : Platform) :
    updatePointer p s = leavePointer p (pointerStart s).2
      (runPointer b.cpuMode pointerFuel (pointerStart s).1 (pointerStart s).2.pointerLoop) := by
  obtain ⟨count, counted⟩ := h.counts_prefixes
  have asPrefix : curByteIsPrefix s = decide (s.curByteIndex < count) := by
    simp only [curByteIsPrefix, counted]
  unfold updatePointer
  simp only [counted, ← asPrefix, pointerStart, firstIndex]
  by_cases stays : s.curInstructionLength = s.lastInstructionLength ∧ curByteIsPrefix s = false
  · have same : { s with lastInstructionLength := s.curInstructionLength } = s :=
      congrArg (fun length => { s with lastInstructionLength := length }) stays.1
    simp only [if_pos stays, same]
  · simp only [if_neg stays]

theorem Searching.update_pointer_cases {s : State b} (h : Searching s) (p : Platform) :
    (∃ l, NextCandidate b.cpuMode s.instructionBytes (firstIndex s) l ∧
      updatePointer p s = .ok ((pointerStart s).2.withPointer l)) ∨
    (∃ l, (∀ k ≤ firstIndex s, NoneGreater b.cpuMode s.instructionBytes k) ∧
      updatePointer p s =
        .error (.halt .done { (pointerStart s).2.withPointer l with
          saveFile := closeSaveFile b p (getSaveFilePosition b p s.saveFile) })) := by
  have inside : firstIndex s < 15 := Nat.lt_of_lt_of_le h.first_index_lt h.length
  have enough : pointerMeasure (pointerStart s).1 (pointerStart s).2.pointerLoop < pointerFuel := by
    have bound := pointerMeasure_lt (pointerStart s).1 (pointerStart s).2.pointerLoop
    have index : (pointerStart s).2.pointerLoop.curByteIndex = firstIndex s := rfl
    rw [index] at bound
    unfold pointerFuel
    omega
  obtain ⟨e, run, correct⟩ := pointer_run b.cpuMode s.instructionBytes (firstIndex s) inside
    pointerFuel _ _ h.trying enough
  rw [h.update_pointer_eq p, run]
  cases e with
  | candidate l => exact .inl ⟨l, correct, rfl⟩
  | done l => exact .inr ⟨l, correct, rfl⟩
  | outOfBounds => exact correct.elim

/-- `t` is `s` but for the statistics, the counters to compare with, and the file. -/
def Booked (s t : State b) : Prop :=
  ∃ counters stats flush file, t = { s with
    lastPerfCountersValues := counters
    stats := stats
    flushRequired := flush
    saveFile := file }

/-- The call neither grows nor restarts the instruction. -/
structure Proceeds (p : Platform) (s : State b) (r : Response b) : Prop where
  notGrown : grows p s r = false
  notRestarted : restarts s r = false

theorem Booked.trans {s t u : State b} (h : Booked s t) (h' : Booked t u) : Booked s u := by
  obtain ⟨_, _, _, _, rfl⟩ := h
  obtain ⟨counters, stats, flush, file, rfl⟩ := h'
  exact ⟨counters, stats, flush, file, rfl⟩

theorem afterSwitch_booked (s : State b) (r : Response b) : Booked s (afterSwitch s r) := by
  unfold afterSwitch
  split
  · exact ⟨_, _, _, _, rfl⟩
  · exact ⟨_, _, _, _, rfl⟩

theorem saved_booked {p : Platform} {s s' : State b} {r : Response b}
    (h : saved p s r = .ok s') : Booked s (countUnique p s') := by
  have stored : Booked (afterSwitch s r) s' := ⟨_, _, _, _, count_and_save_ok h⟩
  have unique : Booked s' (countUnique p s') := ⟨_, _, _, _, count_unique_fields p s'⟩
  exact ((afterSwitch_booked s r).trans stored).trans unique

theorem Booked.searching {s t : State b} (h : Booked s t) (searching : Searching s) :
    Searching t := by
  obtain ⟨_, _, _, _, rfl⟩ := h
  exact ⟨searching.measuringUd, searching.measuringNop, searching.index, searching.length,
    searching.behind, searching.accepted, searching.malformed⟩

/-- What one call of the handler does in a running search. -/
inductive Handled (p : Platform) (s : State b) (r : Response b) : Outcome b → Prop where
  | grown (fault : r.boundaryFetchFault p = true) (short : s.curInstructionLength < 15) :
      Handled p s r (executeCurrentInstruction
        { s with curInstructionLength := s.curInstructionLength + 1 })
  | restarted (notGrown : grows p s r = false) (unstable : restarts s r = true) :
      Handled p s r (executeCurrentInstruction { s with lastPerfCountersValues := r.counters })
  | saveFailed (proceeds : Proceeds p s r) (s' : State b)
      (failed : saved p s r = .error (.halt .saveFailed s')) :
      Handled p s r (.halt .saveFailed s')
  | moved (proceeds : Proceeds p s r) (s' : State b) (l : PointerLoop)
      (success : saved p s r = .ok s')
      (next : NextCandidate b.cpuMode s.instructionBytes (firstIndex s) l) :
      Handled p s r (executeCurrentInstruction ((pointerStart (countUnique p s')).2.withPointer l))
  | done (proceeds : Proceeds p s r) (s' : State b) (l : PointerLoop)
      (success : saved p s r = .ok s')
      (exhausted : ∀ k ≤ firstIndex s, NoneGreater b.cpuMode s.instructionBytes k) :
      Handled p s r (.halt .done { (pointerStart (countUnique p s')).2.withPointer l with
        saveFile := closeSaveFile b p (getSaveFilePosition b p (countUnique p s').saveFile) })

theorem Searching.dispatch_eq {s : State b} (h : Searching s) (p : Platform) (r : Response b) :
    dispatch p s r = checkLastInstruction p s r := by
  unfold dispatch
  simp only [h.measuringUd, h.measuringNop, Bool.false_eq_true, if_false]
  split <;> rfl

theorem Searching.handled {s : State b} (h : Searching s) (p : Platform) (r : Response b) :
    Handled p s r (handleException p s r) := by
  unfold handleException
  rw [h.dispatch_eq p r, check_last_instruction_eq]
  cases grown : grows p s r with
  | true =>
    have both := grown
    simp only [grows, Bool.and_eq_true, decide_eq_true_eq] at both
    exact .grown both.1 both.2
  | false =>
    cases restarted : restarts s r with
    | true => exact .restarted grown restarted
    | false =>
      simp only [Bool.false_eq_true, if_false]
      cases success : saved p s r with
      | error o =>
        obtain ⟨s', rfl⟩ := count_and_save_error success
        exact .saveFailed ⟨grown, restarted⟩ s' success
      | ok s' =>
        have booked := saved_booked success
        have same : (countUnique p s').instructionBytes = s.instructionBytes ∧
            firstIndex (countUnique p s') = firstIndex s := by
          obtain ⟨_, _, _, _, fields⟩ := booked
          rw [fields]
          exact ⟨rfl, rfl⟩
        have cases := (booked.searching h).update_pointer_cases p
        rw [same.1, same.2] at cases
        simp only [Except.bind, resume]
        rcases cases with ⟨l, next, update⟩ | ⟨l, exhausted, update⟩
        · rw [update]
          exact .moved ⟨grown, restarted⟩ s' l success next
        · rw [update]
          exact .done ⟨grown, restarted⟩ s' l success exhausted

/-- The calls among these that hand out an instruction, and the state they leave. -/
inductive Executes (p : Platform) (s : State b) (r : Response b) : State b → Prop where
  | grown (fault : r.boundaryFetchFault p = true) (short : s.curInstructionLength < 15) :
      Executes p s r { s with curInstructionLength := s.curInstructionLength + 1 }
  | restarted (unstable : restarts s r = true) :
      Executes p s r { s with lastPerfCountersValues := r.counters }
  | moved (proceeds : Proceeds p s r) (s' : State b) (l : PointerLoop)
      (success : saved p s r = .ok s')
      (next : NextCandidate b.cpuMode s.instructionBytes (firstIndex s) l) :
      Executes p s r ((pointerStart (countUnique p s')).2.withPointer l)

theorem Searching.executes {s : State b} (h : Searching s) {p : Platform} {r : Response b}
    {i : List UInt8} {s' : State b} (run : handleException p s r = .execute i s') :
    Executes p s r s' ∧ i = s'.currentInstruction := by
  have handled := h.handled p r
  rw [run] at handled
  generalize same : Outcome.execute i s' = o at handled
  cases handled with
  | grown fault short =>
    obtain ⟨rfl, rfl⟩ := Outcome.execute.inj same
    exact ⟨.grown fault short, rfl⟩
  | restarted notGrown unstable =>
    obtain ⟨rfl, rfl⟩ := Outcome.execute.inj same
    exact ⟨.restarted unstable, rfl⟩
  | saveFailed => cases same
  | moved proceeds s'' l success next =>
    obtain ⟨rfl, rfl⟩ := Outcome.execute.inj same
    exact ⟨.moved proceeds s'' l success next, rfl⟩
  | done => cases same

theorem Searching.execute {s : State b} (h : Searching s) {p : Platform} {r : Response b}
    {i : List UInt8} {s' : State b} (run : handleException p s r = .execute i s') :
    Searching s' ∧ i = s'.currentInstruction := by
  obtain ⟨executes, handed⟩ := h.executes run
  refine ⟨?_, handed⟩
  cases executes with
  | grown fault short =>
    exact ⟨h.measuringUd, h.measuringNop, Nat.lt_succ_of_lt h.index, short, h.behind,
      h.accepted, h.malformed⟩
  | restarted unstable =>
    exact ⟨h.measuringUd, h.measuringNop, h.index, h.length, h.behind, h.accepted, h.malformed⟩
  | moved proceeds s'' l success next =>
    have searching := (saved_booked success).searching h
    have inside := Nat.lt_of_lt_of_le h.first_index_lt h.length
    have index := next.index
    have length := next.length
    refine ⟨searching.measuringUd, searching.measuringNop, ?_, ?_, next.behind, next.accepted,
      next.malformed⟩
    · simp only [State.withPointer]
      omega
    · simp only [State.withPointer]
      omega

end PmcBruteforce
