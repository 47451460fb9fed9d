import PmcBruteforce.Library.Ranking
import PmcBruteforce.Search.Main
import PmcBruteforce.Search.Progress

/-! The search comes to an end. Whatever the hardware does, all but a bounded number of the
exceptions of a run make the program measure an instruction again; and on hardware whose
measurements can be reproduced the program reaches Done, or a Write that fails. -/
namespace PmcBruteforce

open Library

variable {b : Build}

/-- What `handle_exception` finds in user mode. -/
def State.handedOut (s : State b) : List UInt8 :=
  if s.measuringUd then [0x0f, 0x0b]
  else if s.measuringNop then [0x90]
  else s.currentInstruction

/-- The instruction runs again because the counters are not those of the time before. -/
def remeasured (p : Platform) (e : Entry b) : Bool :=
  if e.job.state.measuringUd then e.response.counters != e.job.state.udPerfCountersValues
  else if e.job.state.measuringNop then e.response.counters != e.job.state.nopPerfCountersValues
  else !grows p e.job.state e.response && restarts e.job.state e.response

/-- 256^15 values of the array, with up to 15 lengths each, behind the two measurements. -/
def searchSteps : Nat := 2 + 15 * 256 ^ 15

def State.phase (s : State b) : Nat :=
  if s.measuringUd then 0 else if s.measuringNop then 1 else 2

def State.progress (s : State b) : Nat :=
  s.phase + 15 * s.instructionBytes.value + s.curInstructionLength

theorem Consistent.progress_le {s : State b} (h : Consistent s) : s.progress ≤ searchSteps := by
  have value := s.instructionBytes.value_lt
  have length := h.positioned.length
  have phase : s.phase ≤ 2 := by
    unfold State.phase
    split
    · decide
    · split <;> decide
  simp only [State.progress, searchSteps]
  omega

/-- How an instruction is handed out: the same one once more, or with progress. -/
inductive HandedOut (p : Platform) (s : State b) (r : Response b) (s' : State b) : Prop where
  | ud (measuring : s.measuringUd = true) (different : r.counters ≠ s.udPerfCountersValues)
      (again : s' = { s with udPerfCountersValues := r.counters })
  | nop (measured : s.measuringUd = false) (measuring : s.measuringNop = true)
      (different : r.counters ≠ s.nopPerfCountersValues)
      (again : s' = { s with nopPerfCountersValues := r.counters })
  | restarted (searching : searchingState s) (notGrown : grows p s r = false)
      (unstable : restarts s r = true) (again : s' = { s with lastPerfCountersValues := r.counters })
  | advanced (once : remeasured p ⟨⟨s.handedOut, s⟩, r⟩ = false) (progress : s.progress < s'.progress)

section

variable {p : Platform} {s s' : State b} {r : Response b} {i : List UInt8}

theorem SamePosition.progress_lt (same : SamePosition s s') (later : s.phase < s'.phase) :
    s.progress < s'.progress := by
  have pointer := same.pointer
  simp only [State.pointerLoop, PointerLoop.mk.injEq] at pointer
  obtain ⟨bytes, -, length, -⟩ := pointer
  simp only [State.progress, bytes, length]
  omega

theorem ud_measured_again (measuringUd : s.measuringUd = true)
    (exception : r.context.exceptionNumber = exceptionInvalidOpcode)
    (different : r.counters ≠ s.udPerfCountersValues) :
    handleException p s r = executeUd { s with udPerfCountersValues := r.counters } := by
  have run : dispatch p s r = (checkUd2Measurements p s r).bind
      fun s => if b.countNops then .error (executeNop { s with measuringNop := true })
        else .ok s := if_pos measuringUd
  rw [handleException, run, checkUd2Measurements, if_neg (not_not_intro exception), if_pos different]
  rfl

theorem ud_unexpected (measuringUd : s.measuringUd = true)
    (exception : r.context.exceptionNumber ≠ exceptionInvalidOpcode) :
    ∃ reason s', handleException p s r = .halt reason s' := by
  have run : dispatch p s r = (checkUd2Measurements p s r).bind
      fun s => if b.countNops then .error (executeNop { s with measuringNop := true })
        else .ok s := if_pos measuringUd
  rw [handleException, run, checkUd2Measurements, if_pos exception]
  exact ⟨_, _, rfl⟩

/-- The cases of `check_nop_measurements`. -/
theorem nop_dispatched (enabled : b.countNops = true) (measuringUd : s.measuringUd = false)
    (measuringNop : s.measuringNop = true) :
    handleException p s r = resume (checkNopMeasurements p enabled s r) := by
  rw [handleException]
  simp [dispatch, measuringUd, measuringNop, enabled]

theorem Consistent.ud_handed_out (h : Consistent s) (measuringUd : s.measuringUd = true)
    (run : handleException p s r = .execute i s') :
    HandedOut p s r s' ∧ i = s'.handedOut := by
  by_cases exception : r.context.exceptionNumber = exceptionInvalidOpcode
  · by_cases same : r.counters = s.udPerfCountersValues
    · have reproduced : UdReproduced s r := ⟨exception, same⟩
      have position := (h.measured_ud measuringUd run).1
      have measured := ud_measured p measuringUd r
      rw [run] at measured
      generalize outcome : Outcome.execute i s' = o at measured
      cases measured with
      | unexpected other => exact absurd reproduced other
      | again other => exact absurd reproduced other
      | saveFailed => cases outcome
      | nop _ success enabled =>
        obtain ⟨rfl, rfl⟩ := Outcome.execute.inj outcome
        refine ⟨.advanced (by simp [remeasured, measuringUd, same]) (position.progress_lt ?_), ?_⟩
        · simp [State.phase, measuringUd, afterUdHeader]
        · simp [State.handedOut, afterUdHeader]
      | search _ success disabled =>
        obtain ⟨rfl, rfl⟩ := Outcome.execute.inj outcome
        have notNop : s.measuringNop = false := by
          rw [← Bool.not_eq_true]
          intro nop
          rw [h.nop nop] at disabled
          cases disabled
        refine ⟨.advanced (by simp [remeasured, measuringUd, same]) (position.progress_lt ?_), ?_⟩
        · simp [State.phase, measuringUd, afterUdHeader, notNop]
        · simp [State.handedOut, afterUdHeader, notNop]
    · rw [ud_measured_again measuringUd exception same] at run
      obtain ⟨rfl, rfl⟩ := Outcome.execute.inj run
      exact ⟨.ud measuringUd same rfl, by simp [State.handedOut, measuringUd]⟩
  · obtain ⟨reason, s'', halted⟩ := ud_unexpected (p := p) measuringUd exception
    rw [halted] at run
    cases run

theorem Consistent.nop_handed_out (h : Consistent s) (measuringUd : s.measuringUd = false)
    (measuringNop : s.measuringNop = true) (run : handleException p s r = .execute i s') :
    HandedOut p s r s' ∧ i = s'.handedOut := by
  have position := h.measured_nop measuringUd measuringNop run
  have phase : s.phase = 1 := by simp [State.phase, measuringUd, measuringNop]
  rw [nop_dispatched (h.nop measuringNop) measuringUd measuringNop, checkNopMeasurements] at run
  split at run
  · cases run
  · split at run
    · cases run
    · split at run
      · rename_i different
        obtain ⟨rfl, rfl⟩ := Outcome.execute.inj run
        exact ⟨.nop measuringUd measuringNop different rfl,
          by simp [State.handedOut, measuringUd, measuringNop]⟩
      · rename_i same
        simp only at run
        split at run
        · cases run
        · obtain ⟨rfl, rfl⟩ := Outcome.execute.inj run
          refine ⟨.advanced ?_ (position.progress_lt ?_), ?_⟩
          · simpa [remeasured, measuringUd, measuringNop] using same
          · rw [phase]
            simp [State.phase, measuringUd]
          · simp [State.handedOut, measuringUd]

theorem Searching.handed_out (h : Searching s) (run : handleException p s r = .execute i s') :
    HandedOut p s r s' ∧ i = s'.handedOut := by
  obtain ⟨searching, handed⟩ := h.execute run
  have current : i = s'.handedOut := by
    simp [State.handedOut, searching.measuringUd, searching.measuringNop, handed]
  have phases : s.phase = 2 ∧ s'.phase = 2 := by
    simp [State.phase, h.measuringUd, h.measuringNop, searching.measuringUd, searching.measuringNop]
  refine ⟨?_, current⟩
  have handled := h.handled p r
  rw [run] at handled
  generalize outcome : Outcome.execute i s' = o at handled
  cases handled with
  | grown fault short =>
    obtain ⟨rfl, rfl⟩ := Outcome.execute.inj outcome
    apply HandedOut.advanced
    · simp [remeasured, h.measuringUd, h.measuringNop, grows, fault, short]
    · simp only [State.progress, phases]
      omega
  | restarted notGrown unstable =>
    obtain ⟨rfl, rfl⟩ := Outcome.execute.inj outcome
    exact .restarted ⟨h.measuringUd, h.measuringNop⟩ notGrown unstable rfl
  | saveFailed => cases outcome
  | moved proceeds s'' l success next =>
    obtain ⟨rfl, rfl⟩ := Outcome.execute.inj outcome
    have length := h.length
    have positive := searching.index
    have inside := Nat.lt_of_le_of_lt next.index h.first_index_lt
    have value : s.instructionBytes.value < l.instructionBytes.value :=
      next.prefixValue_lt (by omega) (Nat.le_refl _)
    have bytes : ((pointerStart (countUnique p s'')).2.withPointer l).instructionBytes =
        l.instructionBytes := rfl
    apply HandedOut.advanced
    · simp [remeasured, h.measuringUd, h.measuringNop, proceeds.notRestarted]
    · simp only [State.progress, phases, bytes]
      omega
  | done => cases outcome

/-- What one call of the handler hands out. -/
theorem Consistent.handed_out (h : Consistent s) (run : handleException p s r = .execute i s') :
    HandedOut p s r s' ∧ i = s'.handedOut := by
  cases ud : s.measuringUd with
  | true => exact h.ud_handed_out ud run
  | false =>
    cases nop : s.measuringNop with
    | true => exact h.nop_handed_out ud nop run
    | false => exact (h.positioned.searching ⟨ud, nop⟩).handed_out run

end

/-- Where the handler can be: in front of what the state hands out, or at a halt. -/
inductive Accounted : Outcome b → Prop where
  | execute {s : State b} (consistent : Consistent s) : Accounted (.execute s.handedOut s)
  | halt (reason : Halt) (s : State b) : Accounted (.halt reason s)

def Outcome.progress : Outcome b → Nat
  | .execute _ s => s.progress
  | _ => 0

theorem Accounted.job {p : Platform} {o : Outcome b} {j : Job b} (h : Accounted o)
    (running : (program p).job o = some j) :
    Consistent j.state ∧ j.instruction = j.state.handedOut ∧ o.progress = j.state.progress := by
  cases h with
  | execute consistent =>
    obtain rfl := Option.some.inj running
    exact ⟨consistent, rfl, rfl⟩
  | halt => cases running

theorem Consistent.accounted {p : Platform} {s : State b} (h : Consistent s) (r : Response b) :
    Accounted (handleException p s r) := by
  have ends : FileStep p s.saveFile (handleException p s r) := h.file_step
  cases run : handleException p s r with
  | execute i s' =>
    rw [(h.handed_out run).2]
    exact .execute (h.step run)
  | halt reason s' => exact .halt reason s'
  | outOfBounds | diverge =>
    rw [run] at ends
    cases ends

theorem HandedOut.remeasured_or_lt {p : Platform} {s s' : State b} {r : Response b}
    (h : HandedOut p s r s') (i : List UInt8) :
    remeasured p ⟨⟨i, s⟩, r⟩ = true ∧ s.progress ≤ s'.progress ∨ s.progress < s'.progress := by
  cases h with
  | ud measuring different again =>
    subst again
    exact .inl ⟨by simp [remeasured, measuring, different], Nat.le_refl _⟩
  | nop measured measuring different again =>
    subst again
    exact .inl ⟨by simp [remeasured, measured, measuring, different], Nat.le_refl _⟩
  | restarted searching notGrown unstable again =>
    subst again
    exact .inl ⟨by simp [remeasured, searching.1, searching.2, notGrown, unstable], Nat.le_refl _⟩
  | advanced once progress => exact .inr progress

theorem program_ranked (p : Platform) :
    (program (b := b) p).Ranked Accounted Outcome.progress (remeasured p) searchSteps where
  keeps h running r := (h.job running).1.accounted r
  bounded h running := by
    obtain ⟨consistent, -, same⟩ := h.job running
    rw [same]
    exact consistent.progress_le
  moves := by
    rintro o ⟨i, s⟩ j' r h running next
    obtain ⟨consistent, -, same⟩ := h.job running
    change (program p).job (handleException p s r) = some j' at next
    rw [same]
    change _ ∧ _ ≤ (handleException p s r).progress ∨ _ < (handleException p s r).progress
    cases run : handleException p s r with
    | execute i' s' => exact (consistent.handed_out run).1.remeasured_or_lt i
    | halt | outOfBounds | diverge =>
      rw [run] at next
      cases next

/-- Hardware that answers each instruction as it did before, and `ud2` and `nop` as the program
expects it. -/
structure Reproducible (cpu : List UInt8 → Response b) : Prop where
  ud : (cpu [0x0f, 0x0b]).context.exceptionNumber = exceptionInvalidOpcode
  nop : ∀ enabled : b.countNops = true,
    (cpu [0x90]).context.exceptionNumber = exceptionDebug ∧
      nopsRetired (cpu [0x90]).counters enabled = 1

/-- A second measurement agrees with the first. -/
theorem HandedOut.settles {p : Platform} {s s' : State b} {cpu : List UInt8 → Response b}
    (h : HandedOut p s (cpu s.handedOut) s')
    (again : remeasured p ⟨⟨s.handedOut, s⟩, cpu s.handedOut⟩ = true) :
    remeasured p ⟨⟨s'.handedOut, s'⟩, cpu s'.handedOut⟩ = false := by
  cases h with
  | ud measuring different same =>
    subst same
    simp [remeasured, State.handedOut, measuring]
  | nop measured measuring different same =>
    subst same
    simp [remeasured, State.handedOut, measured, measuring]
  | restarted searching notGrown unstable same =>
    subst same
    simp [remeasured, State.handedOut, searching.1, searching.2, restarts, State.currentInstruction]
  | advanced once progress =>
    rw [again] at once
    cases once

/-- Where reproducible hardware lets a call end. -/
inductive Outcome.Completes : Outcome b → Prop where
  | execute (i : List UInt8) (s : State b) : Completes (.execute i s)
  | done (s : State b) : Completes (.halt .done s)
  | saveFailed (s : State b) : Completes (.halt .saveFailed s)

theorem Consistent.completes {p : Platform} {s : State b} {cpu : List UInt8 → Response b}
    (h : Consistent s) (reproducible : Reproducible cpu) :
    (handleException p s (cpu s.handedOut)).Completes := by
  cases ud : s.measuringUd with
  | true =>
    have answer : cpu s.handedOut = cpu [0x0f, 0x0b] := by simp [State.handedOut, ud]
    have exception := reproducible.ud
    rw [← answer] at exception
    by_cases same : (cpu s.handedOut).counters = s.udPerfCountersValues
    · have measured := ud_measured p ud (cpu s.handedOut)
      generalize handleException p s (cpu s.handedOut) = o at measured
      cases measured with
      | unexpected other => exact absurd ⟨exception, same⟩ other
      | again other => exact absurd ⟨exception, same⟩ other
      | saveFailed => exact .saveFailed _
      | nop => exact .execute _ _
      | search => exact .execute _ _
    · rw [ud_measured_again ud exception same]
      exact .execute _ _
  | false =>
    cases nop : s.measuringNop with
    | true =>
      have answer : cpu s.handedOut = cpu [0x90] := by simp [State.handedOut, ud, nop]
      obtain ⟨exception, retired⟩ := reproducible.nop (h.nop nop)
      rw [← answer] at exception retired
      rw [nop_dispatched (h.nop nop) ud nop, checkNopMeasurements, if_neg (not_not_intro exception),
        if_neg (not_not_intro retired)]
      split
      · exact .execute _ _
      · simp only
        split
        · exact .saveFailed _
        · exact .execute _ _
    | false =>
      have handled := (h.positioned.searching ⟨ud, nop⟩).handled p (cpu s.handedOut)
      generalize handleException p s (cpu s.handedOut) = o at handled
      cases handled with
      | grown | restarted | moved => exact .execute _ _
      | saveFailed => exact .saveFailed _
      | done => exact .done _

def steadyCpu (instruction : List UInt8) : Response (Build.makefile .mode64) :=
  if instruction = [0x0f, 0x0b] then ud2Response else generalProtection

end PmcBruteforce
