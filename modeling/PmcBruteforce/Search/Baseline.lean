import PmcBruteforce.Search.Handler

/-! The baseline phase in front of the search: what one call does while `ud2` and `nop` are
measured. -/
namespace PmcBruteforce

variable {b : Build}

def afterUdHeader (p : Platform) (s : State b) : State b :=
  { s with
    measuringUd := false
    saveFile := (saveUint64Array p s.udPerfCountersValues.toList s.saveFile).2 }

def afterNopHeader (p : Platform) (s : State b) : State b :=
  { s with
    measuringNop := false
    saveFile := (saveUint64Array p s.nopPerfCountersValues.toList s.saveFile).2 }

/-- The second of two equal measurements of `ud2`, after which the header is written. -/
structure UdReproduced (s : State b) (r : Response b) : Prop where
  exception : r.context.exceptionNumber = exceptionInvalidOpcode
  same : r.counters = s.udPerfCountersValues

inductive UdMeasured (p : Platform) (s : State b) (r : Response b) : Outcome b → Prop where
  | unexpected (other : ¬ UdReproduced s r) : UdMeasured p s r
      (.halt .unexpectedException { s with saveFile := closeSaveFile b p s.saveFile })
  | again (other : ¬ UdReproduced s r) :
      UdMeasured p s r (executeUd { s with udPerfCountersValues := r.counters })
  | saveFailed (reproduced : UdReproduced s r)
      (failed : (saveUint64Array p s.udPerfCountersValues.toList s.saveFile).1 ≠ efiSuccess) :
      UdMeasured p s r (.halt .saveFailed { afterUdHeader p s with
        saveFile := closeSaveFile b p (afterUdHeader p s).saveFile })
  | nop (reproduced : UdReproduced s r)
      (success : (saveUint64Array p s.udPerfCountersValues.toList s.saveFile).1 = efiSuccess)
      (enabled : b.countNops = true) :
      UdMeasured p s r (executeNop { afterUdHeader p s with measuringNop := true })
  | search (reproduced : UdReproduced s r)
      (success : (saveUint64Array p s.udPerfCountersValues.toList s.saveFile).1 = efiSuccess)
      (disabled : b.countNops = false) :
      UdMeasured p s r (executeCurrentInstruction (afterUdHeader p s))

theorem ud_measured (p : Platform) {s : State b} (measuringUd : s.measuringUd = true)
    (r : Response b) : UdMeasured p s r (handleException p s r) := by
  have run : dispatch p s r = (checkUd2Measurements p s r).bind
      fun s => if b.countNops then .error (executeNop { s with measuringNop := true })
        else .ok s := if_pos measuringUd
  rw [handleException, run]
  unfold checkUd2Measurements
  by_cases exception : r.context.exceptionNumber = exceptionInvalidOpcode
  · rw [if_neg (not_not_intro exception)]
    by_cases same : r.counters = s.udPerfCountersValues
    · rw [if_neg (not_not_intro same)]
      by_cases success : (saveUint64Array p s.udPerfCountersValues.toList s.saveFile).1 = efiSuccess
      · simp only [success, ne_eq, not_true_eq_false, if_false, Except.bind]
        cases enabled : b.countNops with
        | true => exact .nop ⟨exception, same⟩ success enabled
        | false => exact .search ⟨exception, same⟩ success enabled
      · simp only [success, ne_eq, not_false_eq_true, if_true]
        exact .saveFailed ⟨exception, same⟩ success
    · rw [if_pos same]
      exact .again fun reproduced => same reproduced.same
  · rw [if_pos exception]
    exact .unexpected fun reproduced => exception reproduced.exception

theorem ud_reproduced (p : Platform) {s : State b} {r : Response b} (measuringUd : s.measuringUd = true)
    (reproduced : UdReproduced s r)
    (success : (saveUint64Array p s.udPerfCountersValues.toList s.saveFile).1 = efiSuccess)
    (disabled : b.countNops = false) :
    handleException p s r = executeCurrentInstruction (afterUdHeader p s) := by
  have measured := ud_measured p measuringUd r
  generalize handleException p s r = o at measured ⊢
  cases measured with
  | unexpected other => exact absurd reproduced other
  | again other => exact absurd reproduced other
  | saveFailed _ failed => exact absurd success failed
  | nop _ _ enabled =>
    rw [disabled] at enabled
    cases enabled
  | search => rfl

inductive NopMeasured (p : Platform) (s : State b) (r : Response b) : Outcome b → Prop where
  | unexpected (reason : Halt) : NopMeasured p s r
      (.halt reason { s with saveFile := closeSaveFile b p s.saveFile })
  | again : NopMeasured p s r (executeNop { s with nopPerfCountersValues := r.counters })
  | saveFailed
      (failed : (saveUint64Array p s.nopPerfCountersValues.toList s.saveFile).1 ≠ efiSuccess) :
      NopMeasured p s r (.halt .saveFailed { afterNopHeader p s with
        saveFile := closeSaveFile b p (afterNopHeader p s).saveFile })
  | search
      (success : (saveUint64Array p s.nopPerfCountersValues.toList s.saveFile).1 = efiSuccess) :
      NopMeasured p s r (executeCurrentInstruction (afterNopHeader p s))

theorem nop_measured (p : Platform) {s : State b} (enabled : b.countNops = true)
    (measuringUd : s.measuringUd = false) (measuringNop : s.measuringNop = true)
    (r : Response b) : NopMeasured p s r (handleException p s r) := by
  have run : dispatch p s r = checkNopMeasurements p enabled s r := by
    simp [dispatch, measuringUd, measuringNop, enabled]
  rw [handleException, run]
  unfold checkNopMeasurements
  by_cases exception : r.context.exceptionNumber ≠ exceptionDebug
  · rw [if_pos exception]
    exact .unexpected _
  · rw [if_neg exception]
    by_cases miscounted : nopsRetired r.counters enabled ≠ 1
    · rw [if_pos miscounted]
      exact .unexpected _
    · rw [if_neg miscounted]
      by_cases same : r.counters = s.nopPerfCountersValues
      · rw [if_neg (not_not_intro same)]
        by_cases success :
            (saveUint64Array p s.nopPerfCountersValues.toList s.saveFile).1 = efiSuccess
        · simp only [success, ne_eq, not_true_eq_false, if_false]
          exact .search success
        · simp only [success, ne_eq, not_false_eq_true, if_true]
          exact .saveFailed success
      · rw [if_pos same]
        exact .again

end PmcBruteforce
