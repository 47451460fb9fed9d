import PmcBruteforce.Search.Baseline
import PmcBruteforce.Search.FileInvariant

/-! Runs from the start: the header the two measurements leave in the file, the state the
search starts from, and the file of a whole run. -/
namespace PmcBruteforce

variable {b : Build}

/-- The header of the file: the counters of `ud2`, and with COUNT_NOPS those of `nop`. -/
def header (ud nop : Counters b) : List UInt8 :=
  ud.toList.flatMap Library.Base128.word.encode ++
    if b.countNops then nop.toList.flatMap Library.Base128.word.encode else []

/-- A file in which all went well so far. -/
structure WellWritten (f : SaveFile) (content : List UInt8) : Prop where
  healthy : f.Healthy
  unfailed : f.Unfailed
  content : f.content = content

def measuring (s : State b) : Prop := s.measuringUd = true ∨ s.measuringNop = true

def measuringUdState (ud : Counters b) : State b :=
  { State.initial b with udPerfCountersValues := ud }

def measuringNopState (ud nop : Counters b) (f : SaveFile) : State b :=
  { State.initial b with
    measuringUd := false
    udPerfCountersValues := ud
    measuringNop := true
    nopPerfCountersValues := nop
    saveFile := f }

/-- Where a run from the start can be. -/
inductive BootPhase (p : Platform) : Run b → Prop where
  | measuringUd (ud : Counters b) (log : List (Entry b))
      (before : ∀ e ∈ log, measuring e.job.state) :
      BootPhase p ⟨executeUd (measuringUdState ud), log⟩
  | measuringNop (enabled : b.countNops = true) (ud nop : Counters b) (f : SaveFile)
      (log : List (Entry b)) (before : ∀ e ∈ log, measuring e.job.state)
      (file : WellWritten f (ud.toList.flatMap Library.Base128.word.encode)) :
      BootPhase p ⟨executeNop (measuringNopState ud nop f), log⟩
  | searching (a : Baseline b) (rs : List (Response b)) (log : List (Entry b))
      (before : ∀ e ∈ log, measuring e.job.state)
      (file : WellWritten a.saveFile (header a.udPerfCountersValues a.nopPerfCountersValues)) :
      BootPhase p ⟨(search p a rs).outcome, (search p a rs).log ++ log⟩
  | stopped (reason : Halt) (s : State b) (log : List (Entry b))
      (why : measuring s ∧ s.saveFile.Unfailed ∨ s.saveFile.FailedLast) :
      BootPhase p ⟨.halt reason s, log⟩

theorem initial_file (saving : b.noSave = false) : WellWritten (State.initial b).saveFile [] where
  healthy := ⟨by simp [State.initial, saving], by simp [State.initial, SaveFile.opened]⟩
  unfailed := by simp [SaveFile.Unfailed, State.initial, SaveFile.opened]
  content := rfl

theorem WellWritten.close {f : SaveFile} {content : List UInt8} (h : WellWritten f content)
    (b : Build) (p : Platform) : (closeSaveFile b p f).Unfailed :=
  (quiet_closeSaveFile b p f).unfailed h.unfailed

theorem WellWritten.array {f : SaveFile} {content : List UInt8} (h : WellWritten f content)
    (p : Platform) (values : List UInt64) :
    ((saveUint64Array p values f).1 = efiSuccess ∧
      WellWritten (saveUint64Array p values f).2
        (content ++ values.flatMap Library.Base128.word.encode)) ∨
    ((saveUint64Array p values f).1 ≠ efiSuccess ∧
      (saveUint64Array p values f).2.FailedLast) := by
  rcases emits_saveUint64Array p values f h.healthy with ⟨good, appended⟩ | ⟨bad, failed⟩
  · exact .inl ⟨good, appended.healthy, appended.unfailed h.unfailed,
      by rw [appended.content, h.content]⟩
  · exact .inr ⟨bad, failed.failedLast h.unfailed⟩

theorem boot_ud_step (p : Platform) (saving : b.noSave = false) (ud : Counters b)
    (r : Response b) (log : List (Entry b)) (before : ∀ e ∈ log, measuring e.job.state) :
    BootPhase p ⟨handleException p (measuringUdState ud) r, log⟩ := by
  have file := initial_file saving
  have array := file.array p ud.toList
  rw [List.nil_append] at array
  have measured := ud_measured p (rfl : (measuringUdState ud).measuringUd = true) r
  generalize handleException p (measuringUdState ud) r = o at measured
  cases measured with
  | unexpected => exact .stopped _ _ log (.inl ⟨.inl rfl, file.close b p⟩)
  | again => exact .measuringUd r.counters log before
  | saveFailed reproduced failed =>
    rcases array with ⟨good, -⟩ | ⟨-, last⟩
    · exact absurd good failed
    · exact .stopped _ _ log (.inr ((quiet_closeSaveFile b p _).failedLast last))
  | nop reproduced success enabled =>
    rcases array with ⟨-, written⟩ | ⟨bad, -⟩
    · exact .measuringNop enabled ud (Counters.zero b) _ log before written
    · exact absurd success bad
  | search reproduced success disabled =>
    rcases array with ⟨-, written⟩ | ⟨bad, -⟩
    · refine .searching ⟨ud, Counters.zero b, _⟩ [] log before ?_
      rw [header, disabled, if_neg Bool.false_ne_true, List.append_nil]
      exact written
    · exact absurd success bad

theorem boot_nop_step (p : Platform) (enabled : b.countNops = true) (ud nop : Counters b)
    (f : SaveFile) (r : Response b) (log : List (Entry b))
    (before : ∀ e ∈ log, measuring e.job.state)
    (file : WellWritten f (ud.toList.flatMap Library.Base128.word.encode)) :
    BootPhase p ⟨handleException p (measuringNopState ud nop f) r, log⟩ := by
  have array := file.array p nop.toList
  have measured := nop_measured p enabled
    (rfl : (measuringNopState ud nop f).measuringUd = false) rfl r
  generalize handleException p (measuringNopState ud nop f) r = o at measured
  cases measured with
  | unexpected reason => exact .stopped _ _ log (.inl ⟨.inr rfl, file.close b p⟩)
  | again => exact .measuringNop enabled ud r.counters f log before file
  | saveFailed failed =>
    rcases array with ⟨good, -⟩ | ⟨-, last⟩
    · exact absurd good failed
    · exact .stopped _ _ log (.inr ((quiet_closeSaveFile b p _).failedLast last))
  | search success =>
    rcases array with ⟨-, written⟩ | ⟨bad, -⟩
    · refine .searching ⟨ud, nop, _⟩ [] log before ?_
      rw [header, if_pos enabled]
      exact written
    · exact absurd success bad

theorem boot_phase (p : Platform) (saving : b.noSave = false) (rs : List (Response b)) :
    BootPhase p (boot p rs) := by
  apply Library.Reactive.run_invariant (BootPhase p)
  · exact .measuringUd (Counters.zero b) [] (fun e member => by cases member)
  · intro t j r running phase
    have extend : ∀ {log : List (Entry b)}, (∀ e ∈ log, measuring e.job.state) →
        measuring j.state → ∀ e ∈ (⟨j, r⟩ :: log : List (Entry b)), measuring e.job.state := by
      intro log before here e member
      rcases List.mem_cons.mp member with rfl | member
      · exact here
      · exact before e member
    cases phase with
    | measuringUd ud log before =>
      obtain rfl := Option.some.inj running
      exact boot_ud_step p saving ud r _ (extend before (.inl rfl))
    | measuringNop enabled ud nop f log before file =>
      obtain rfl := Option.some.inj running
      exact boot_nop_step p enabled ud nop f r _ (extend before (.inr rfl)) file
    | searching a rs log before file =>
      have next : search p a (rs ++ [r]) =
          ⟨(program p).handle j r, ⟨j, r⟩ :: (search p a rs).log⟩ := by
        rw [search, Library.Reactive.run_append]
        exact Library.Reactive.step_running (t := search p a rs) running r
      have phase : BootPhase p _ := .searching a (rs ++ [r]) log before file
      rw [next] at phase
      exact phase
    | stopped => cases running

theorem not_counted_of_measuring {e : Entry b} (h : measuring e.job.state) (p : Platform) :
    ¬ counted p e = true := by
  rcases h with h | h <;> simp [counted, h]

theorem savedRecords_append (p : Platform) (log : List (Entry b)) {before : List (Entry b)}
    (h : ∀ e ∈ before, measuring e.job.state) :
    savedRecords p (log ++ before) = savedRecords p log := by
  have none : (before.filter fun e => counted p e && interesting e) = [] := by
    rw [List.filter_eq_nil_iff]
    intro e member both
    have count := (Bool.and_eq_true _ _).mp both
    exact not_counted_of_measuring (h e member) p count.1
  rw [savedRecords, List.filter_append, none, List.append_nil]
  rfl

theorem savedRecords_valid {p : Platform} {a : Baseline b} {rs : List (Response b)} :
    ∀ x ∈ savedRecords p (search p a rs).log, (writtenFormat b).valid x := by
  intro x member
  obtain ⟨e, kept, rfl⟩ := List.mem_map.mp member
  have logged := (List.mem_filter.mp (List.mem_reverse.mp kept)).1
  exact savedRecord_valid e (search_log_searching logged).1

theorem length_le_flatMap_encode (records : List SavedRecord) :
    records.length ≤ (records.flatMap SavedRecord.encode).length := by
  induction records with
  | nil => exact Nat.zero_le _
  | cons r records ih =>
    have positive := List.length_pos_iff.mpr r.encode_ne_nil
    rw [List.flatMap_cons, List.length_append, List.length_cons]
    omega

theorem file_content_injective {ud ud' nop nop' : Counters b} {xs ys : List SavedRecord}
    (hx : ∀ x ∈ xs, (writtenFormat b).valid x) (hy : ∀ y ∈ ys, (writtenFormat b).valid y)
    (same : header ud nop ++ xs.flatMap SavedRecord.encode =
      header ud' nop' ++ ys.flatMap SavedRecord.encode) :
    ud = ud' ∧ (b.countNops = true → nop = nop') ∧ xs = ys := by
  have valid : ∀ c : Counters b,
      (Library.Base128.word.replicate b.perfEventsCount).valid c.toList :=
    fun c => ⟨c.length_toList, fun _ _ => trivial⟩
  have records := (writtenFormat b).flatMap_encode_injective (fun r _ => r.encode_ne_nil) hx hy
  simp only [header, List.append_assoc] at same
  obtain ⟨first, rest⟩ :=
    (Library.Base128.word.replicate b.perfEventsCount).encode_append_injective
      (valid ud) (valid ud') same
  refine ⟨Vector.toList_inj.mp first, ?_⟩
  by_cases enabled : b.countNops = true
  · simp only [if_pos enabled] at rest
    obtain ⟨second, rest⟩ :=
      (Library.Base128.word.replicate b.perfEventsCount).encode_append_injective
        (valid nop) (valid nop') rest
    exact ⟨fun _ => Vector.toList_inj.mp second, records rest⟩
  · simp only [if_neg enabled, List.nil_append] at rest
    exact ⟨fun h => absurd h enabled, records rest⟩

theorem search_globals (p : Platform) (a : Baseline b) (rs : List (Response b)) :
    ∃ s, (search p a rs).outcome.globals = some s := by
  apply search_invariant fun t => ∃ s, t.outcome.globals = some s
  · exact ⟨a.start, rfl⟩
  · intro s log r searching _
    have handled := searching.handled p r
    generalize handleException p s r = o at handled
    cases handled <;> exact ⟨_, rfl⟩

def searchingState (s : State b) : Prop := s.measuringUd = false ∧ s.measuringNop = false

theorem not_measuring {s : State b} (h : searchingState s) : ¬ measuring s := by
  rintro (ud | nop)
  · cases h.1.symm.trans ud
  · cases h.2.symm.trans nop

/-- The file, the header and the statistics against the log of a run. -/
structure FileDescribes (p : Platform) (log : List (Entry b)) (s : State b) : Prop where
  content : s.saveFile.content = header s.udPerfCountersValues s.nopPerfCountersValues ++
    (savedRecords p log).flatMap SavedRecord.encode
  saved : s.stats.instructionsSaved.toNat = (savedRecords p log).length
  types : ∀ u : InstructionType b,
    (s.stats.counter u).toNat = recordsOfType (savedRecords p log) u
  baseline : ∀ e ∈ log, searchingState e.job.state →
    e.job.state.udPerfCountersValues = s.udPerfCountersValues
  valid : ∀ x ∈ savedRecords p log, (writtenFormat b).valid x

theorem Described.file {p : Platform} {a : Baseline b} {rs : List (Response b)} {s : State b}
    (h : Described p a s (search p a rs).log) {log : List (Entry b)}
    (before : ∀ e ∈ log, measuring e.job.state)
    (file : WellWritten a.saveFile (header a.udPerfCountersValues a.nopPerfCountersValues))
    (ud : ∀ e ∈ (search p a rs).log, e.job.state.udPerfCountersValues = a.udPerfCountersValues) :
    FileDescribes p ((search p a rs).log ++ log) s := by
  have records := savedRecords_append p (search p a rs).log before
  have size := h.size
  rw [h.content, List.length_append] at size
  have few := length_le_flatMap_encode (savedRecords p (search p a rs).log)
  have count : ∀ n ≤ (savedRecords p (search p a rs).log).length, (UInt64.ofNat n).toNat = n :=
    fun n le => by rw [UInt64.toNat_ofNat']; omega
  refine ⟨?_, ?_, ?_, ?_, ?_⟩
  · rw [records, h.content, file.content, h.ud, h.nop]
  · rw [records, h.count, count _ (Nat.le_refl _)]
  · intro u
    rw [records, h.types u]
    exact count _ List.countP_le_length
  · intro e member searching
    rw [h.ud]
    rcases List.mem_append.mp member with member | member
    · exact ud e member
    · exact absurd (before e member) (not_measuring searching)
  · rw [records]
    exact savedRecords_valid

theorem boot_globals (p : Platform) (saving : b.noSave = false) (rs : List (Response b)) :
    ∃ s, (boot p rs).outcome.globals = some s := by
  have phase := boot_phase p saving rs
  generalize boot p rs = t at phase
  cases phase with
  | searching a rs log before file => exact search_globals p a rs
  | measuringUd | measuringNop | stopped => exact ⟨_, rfl⟩

/-- Once the baseline phase is over, the state of a run is that of a search, whose log is the
newer part of the run's. -/
theorem boot_state (p : Platform) (saving : b.noSave = false) (rs : List (Response b))
    {s : State b} (here : (boot p rs).outcome.globals = some s) (searching : searchingState s) :
    FileDescribes p (boot p rs).log s ∨ s.saveFile.FailedLast := by
  have phase := boot_phase p saving rs
  generalize boot p rs = t at phase here
  cases phase with
  | measuringUd ud log before =>
    obtain rfl := Option.some.inj here
    cases searching.1
  | measuringNop enabled ud nop f log before file =>
    obtain rfl := Option.some.inj here
    cases searching.2
  | searching a rs log before file =>
    have invariant := search_file p a saving file.healthy file.unfailed rs
    simp only at here
    cases running : (search p a rs).outcome with
    | execute i s' =>
      rw [running] at here
      obtain rfl := Option.some.inj here
      exact .inl ((invariant.running i s' running).1.file before file invariant.ud)
    | halt reason s' =>
      rw [running] at here
      obtain rfl := Option.some.inj here
      rcases invariant.halted reason s' running with described | failed
      · exact .inl (described.file before file invariant.ud)
      · exact .inr failed
    | outOfBounds | diverge =>
      rw [running] at here
      cases here
  | stopped reason s' log why =>
    obtain rfl := Option.some.inj here
    exact why.resolve_left (fun h => not_measuring searching h.1) |> .inr

theorem SaveFile.FailedLast.not_unfailed {f : SaveFile} (h : f.FailedLast) : ¬ f.Unfailed := by
  obtain ⟨quiet, c, earlier, calls, -, bad, -⟩ := h
  exact fun unfailed => unfailed c (by rw [calls]; simp) bad

theorem boot_failed (p : Platform) (saving : b.noSave = false) (rs : List (Response b))
    {s : State b} (here : (boot p rs).outcome.globals = some s)
    (failed : ¬ s.saveFile.Unfailed) :
    s.saveFile.FailedLast ∧ (program p).job (boot p rs).outcome = none := by
  have phase := boot_phase p saving rs
  generalize boot p rs = t at phase here
  cases phase with
  | measuringUd ud log before =>
    obtain rfl := Option.some.inj here
    exact absurd (initial_file saving).unfailed failed
  | measuringNop enabled ud nop f log before file =>
    obtain rfl := Option.some.inj here
    exact absurd file.unfailed failed
  | searching a rs log before file =>
    have invariant := search_file p a saving file.healthy file.unfailed rs
    simp only at here ⊢
    cases running : (search p a rs).outcome with
    | execute i s' =>
      rw [running] at here
      obtain rfl := Option.some.inj here
      exact absurd (invariant.running i s' running).1.unfailed failed
    | halt reason s' =>
      rw [running] at here
      obtain rfl := Option.some.inj here
      have described := invariant.halted reason s' running
      exact ⟨described.resolve_left fun h => failed h.unfailed, rfl⟩
    | outOfBounds | diverge =>
      rw [running] at here
      cases here
  | stopped reason s' log why =>
    obtain rfl := Option.some.inj here
    exact ⟨why.resolve_left fun h => failed h.2, rfl⟩

/-- The save file over whole runs. While no Write has failed it is described by the log,
and describes the header and the records uniquely; a failed Write ends the run. -/
theorem save_file_of_run (saving : b.noSave = false) (p : Platform) (rs : List (Response b)) :
    (∃ s, (boot p rs).outcome.globals = some s) ∧
    (∀ s, (boot p rs).outcome.globals = some s → searchingState s → s.saveFile.Unfailed →
      FileDescribes p (boot p rs).log s ∧
        ∀ (p' : Platform) (rs' : List (Response b)) (s' : State b),
          (boot p' rs').outcome.globals = some s' → searchingState s' → s'.saveFile.Unfailed →
          s.saveFile.content = s'.saveFile.content →
            s.udPerfCountersValues = s'.udPerfCountersValues ∧
            (b.countNops = true → s.nopPerfCountersValues = s'.nopPerfCountersValues) ∧
            savedRecords p (boot p rs).log = savedRecords p' (boot p' rs').log) ∧
    (∀ s, (boot p rs).outcome.globals = some s → ¬ s.saveFile.Unfailed →
      s.saveFile.FailedLast ∧ ∀ more, boot p (rs ++ more) = boot p rs) := by
  have described : ∀ (p : Platform) (rs : List (Response b)) (s : State b),
      (boot p rs).outcome.globals = some s → searchingState s → s.saveFile.Unfailed →
        FileDescribes p (boot p rs).log s := fun p rs s here searching unfailed =>
    (boot_state p saving rs here searching).resolve_right fun failed =>
      failed.not_unfailed unfailed
  refine ⟨boot_globals p saving rs, ?_, ?_⟩
  · intro s here searching unfailed
    have file := described p rs s here searching unfailed
    refine ⟨file, fun p' rs' s' here' searching' unfailed' same => ?_⟩
    have file' := described p' rs' s' here' searching' unfailed'
    rw [file.content, file'.content] at same
    exact file_content_injective file.valid file'.valid same
  · intro s here failed
    obtain ⟨last, stopped⟩ := boot_failed p saving rs here failed
    refine ⟨last, fun more => ?_⟩
    rw [boot, Library.Reactive.run_append]
    exact Library.Reactive.run_stopped stopped more

def ud2Response : Response (Build.makefile .mode64) :=
  { generalProtection with
    context := ⟨exceptionInvalidOpcode, userFault 0x201ffe⟩
    counters := measuredBaseline.udPerfCountersValues }

def oneRecordRun : Run (Build.makefile .mode64) :=
  boot Platform.reliable [ud2Response, ud2Response, { generalProtection with disasmLength := 0 }]

theorem one_record_run_state : oneRecordRun.outcome.globals.isSome = true := by decide +kernel

def oneRecordState : State (Build.makefile .mode64) :=
  oneRecordRun.outcome.globals.get one_record_run_state

theorem one_record_file_described :
    FileDescribes Platform.reliable oneRecordRun.log oneRecordState ∧
      oneRecordState.saveFile.content = [7, 0, 0, 13, 7, 5, 6, 0x51, 0x00] := by
  have here : oneRecordRun.outcome.globals = some oneRecordState := (Option.some_get _).symm
  refine ⟨((save_file_of_run rfl Platform.reliable [ud2Response, ud2Response,
    { generalProtection with disasmLength := 0 }]).2.1 oneRecordState here
    ⟨by decide +kernel, by decide +kernel⟩ ?_).1, by decide +kernel⟩
  unfold SaveFile.Unfailed FileCall.WriteFailed
  decide +kernel

end PmcBruteforce
