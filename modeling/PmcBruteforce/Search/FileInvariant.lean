import PmcBruteforce.Search.Progress
import PmcBruteforce.Search.Records

/-! The save file and the statistics of a search: what was there when it began, followed by
one record for each instruction that was counted and found interesting. -/
namespace PmcBruteforce

variable {b : Build}

def interesting (e : Entry b) : Bool :=
  decide ((classified e.job.state e.response).instructionType ≠ .notInteresting)

/-- The records of a log, in the order in which the instructions were processed. -/
def savedRecords (p : Platform) (log : List (Entry b)) : List SavedRecord :=
  ((log.filter fun e => counted p e && interesting e).reverse).map savedRecord

theorem savedRecords_cons_skip {p : Platform} {log : List (Entry b)} {e : Entry b}
    (h : ¬ (counted p e = true ∧ interesting e = true)) :
    savedRecords p (e :: log) = savedRecords p log := by
  have skipped : ¬ (counted p e && interesting e) = true := by simpa using h
  simp only [savedRecords, List.filter_cons, if_neg skipped]

theorem savedRecords_cons_keep {p : Platform} (log : List (Entry b)) {e : Entry b}
    (count : counted p e = true) (kept : interesting e = true) :
    savedRecords p (e :: log) = savedRecords p log ++ [savedRecord e] := by
  have both : (counted p e && interesting e) = true := by simp [count, kept]
  simp only [savedRecords, List.filter_cons, if_pos both, List.reverse_cons, List.map_append,
    List.map_cons, List.map_nil]

def recordsOfType (records : List SavedRecord) (u : InstructionType b) : Nat :=
  records.countP fun r => r.instructionType == u.code

theorem recordsOfType_concat (records : List SavedRecord) (e : Entry b) (u : InstructionType b) :
    recordsOfType (records ++ [savedRecord e]) u = recordsOfType records u +
      if u = (classified e.job.state e.response).instructionType then 1 else 0 := by
  have same : ((savedRecord e).instructionType == u.code) = true ↔
      u = (classified e.job.state e.response).instructionType := by
    rw [beq_iff_eq]
    exact ⟨fun h => (InstructionType.code_injective h).symm, fun h => by rw [h]; rfl⟩
  simp only [recordsOfType, List.countP_append, List.countP_singleton, same]

/-- What the file and the statistics say about a log. -/
structure Described (p : Platform) (a : Baseline b) (s : State b) (log : List (Entry b)) :
    Prop where
  content : s.saveFile.content =
    a.saveFile.content ++ (savedRecords p log).flatMap SavedRecord.encode
  size : s.saveFile.content.length < 2 ^ 64
  unfailed : s.saveFile.Unfailed
  count : s.stats.instructionsSaved = UInt64.ofNat (savedRecords p log).length
  types : ∀ u : InstructionType b,
    s.stats.counter u = UInt64.ofNat (recordsOfType (savedRecords p log) u)
  ud : s.udPerfCountersValues = a.udPerfCountersValues
  nop : s.nopPerfCountersValues = a.nopPerfCountersValues

theorem Described.same {p : Platform} {a : Baseline b} {s s' : State b} {log : List (Entry b)}
    (h : Described p a s log) (file : s.saveFile.Quiet s'.saveFile)
    (count : s'.stats.instructionsSaved = s.stats.instructionsSaved)
    (types : ∀ u : InstructionType b, s'.stats.counter u = s.stats.counter u)
    (ud : s'.udPerfCountersValues = s.udPerfCountersValues)
    (nop : s'.nopPerfCountersValues = s.nopPerfCountersValues) : Described p a s' log where
  content := file.content.trans h.content
  size := by rw [file.content]; exact h.size
  unfailed := file.unfailed h.unfailed
  count := count.trans h.count
  types u := (types u).trans (h.types u)
  ud := ud.trans h.ud
  nop := nop.trans h.nop

theorem Described.skip {p : Platform} {a : Baseline b} {s : State b} {log : List (Entry b)}
    (h : Described p a s log) {e : Entry b}
    (skipped : ¬ (counted p e = true ∧ interesting e = true)) : Described p a s (e :: log) where
  content := by rw [savedRecords_cons_skip skipped]; exact h.content
  size := h.size
  unfailed := h.unfailed
  count := by rw [savedRecords_cons_skip skipped]; exact h.count
  types u := by rw [savedRecords_cons_skip skipped]; exact h.types u
  ud := h.ud
  nop := h.nop

theorem Described.record {p : Platform} {a : Baseline b} {s s' : State b}
    {log : List (Entry b)} (h : Described p a s log) {e : Entry b} (count : counted p e = true)
    (kept : interesting e = true)
    (appended : s.saveFile.Appended s'.saveFile (savedRecord e).encode)
    (saved_ : s'.stats.instructionsSaved = s.stats.instructionsSaved + 1)
    (types : ∀ u : InstructionType b, s'.stats.counter u = s.stats.counter u +
      if u = (classified e.job.state e.response).instructionType then 1 else 0)
    (ud : s'.udPerfCountersValues = s.udPerfCountersValues)
    (nop : s'.nopPerfCountersValues = s.nopPerfCountersValues) : Described p a s' (e :: log) := by
  have grows := savedRecords_cons_keep log count kept
  refine ⟨?_, appended.healthy.size, appended.unfailed h.unfailed, ?_, ?_, ud.trans h.ud,
    nop.trans h.nop⟩
  · simp only [grows, appended.content, h.content, List.flatMap_append, List.flatMap_cons,
      List.flatMap_nil, List.append_nil, List.append_assoc]
  · simp [grows, saved_, h.count]
  · intro u
    rw [types, h.types u, grows, recordsOfType_concat]
    split <;> simp

theorem afterSwitch_books (s : State b) (r : Response b) :
    (afterSwitch s r).saveFile = s.saveFile ∧ (afterSwitch s r).stats = s.stats ∧
      (afterSwitch s r).udPerfCountersValues = s.udPerfCountersValues ∧
      (afterSwitch s r).nopPerfCountersValues = s.nopPerfCountersValues := by
  unfold afterSwitch
  split <;> exact ⟨rfl, rfl, rfl, rfl⟩

theorem Described.save {p : Platform} {a : Baseline b} {s : State b} {log : List (Entry b)}
    (h : Described p a s log) (saving : b.noSave = false) (healthy : s.saveFile.Healthy)
    (searching : Searching s) {r : Response b} (proceeds : Proceeds p s r) (i : List UInt8) :
    (∀ s', saved p s r = .ok s' →
      Described p a s' (⟨⟨i, s⟩, r⟩ :: log) ∧ s'.saveFile.Healthy) ∧
    (∀ s', saved p s r = .error (.halt .saveFailed s') → s'.saveFile.FailedLast) := by
  obtain ⟨file, stats, ud, nop⟩ := afterSwitch_books s r
  have iff := searching.counted_iff p i r
  have emits := emits_saveClassified saving p i s r searching s.saveFile healthy
  have same : { afterSwitch s r with saveFile := s.saveFile } = afterSwitch s r := by
    rw [← file]
  simp only [same] at emits
  rcases count_and_save_cases p r (classified s r) (afterSwitch s r) with
    ⟨skip, run⟩ | ⟨kept, good, run⟩ | ⟨kept, bad, run⟩
  · refine ⟨fun s' success => ?_, fun s' failed => ?_⟩
    · obtain rfl := Except.ok.inj (run.symm.trans success)
      have skipped : ¬ (counted p ⟨⟨i, s⟩, r⟩ = true ∧ interesting ⟨⟨i, s⟩, r⟩ = true) := by
        simp [interesting, skip]
      refine ⟨(h.skip skipped).same ?_ ?_ ?_ ud nop, ?_⟩
      · rw [file]
        exact .refl _
      · rw [stats]
      · intro u
        rw [stats]
      · rw [file]
        exact healthy
    · cases run.symm.trans failed
  · refine ⟨fun s' success => ?_, fun s' failed => ?_⟩
    · have count := iff.mpr ⟨proceeds, s', success⟩
      have keep : interesting (⟨⟨i, s⟩, r⟩ : Entry b) = true := by simpa [interesting] using kept
      obtain rfl := Except.ok.inj (run.symm.trans success)
      rcases emits with ⟨-, appended⟩ | ⟨failed, -⟩
      · refine ⟨h.record count keep appended ?_ (fun u => ?_) ud nop, appended.healthy⟩
        · simp [stats]
        · have other : ∀ (x : Stats) (n : UInt64),
              ({ x with instructionsSaved := n } : Stats).counter u = x.counter u := by
            intro x n
            cases u <;> rfl
          rw [other, stats, Stats.counter_countType s.stats _ u kept]
      · exact absurd good failed
    · cases run.symm.trans failed
  · refine ⟨fun s' success => ?_, fun s' failed => ?_⟩
    · cases run.symm.trans success
    · obtain ⟨-, rfl⟩ := Outcome.halt.inj (Except.error.inj (run.symm.trans failed))
      rcases emits with ⟨fine, -⟩ | ⟨-, failed⟩
      · exact absurd fine bad
      · exact (quiet_closing b p _).failedLast (failed.failedLast h.unfailed)

theorem quiet_countUnique (p : Platform) (s : State b) :
    s.saveFile.Quiet (countUnique p s).saveFile := by
  have position := quiet_getSaveFilePosition b p s.saveFile
  unfold countUnique
  simp only
  split
  · split
    · exact position.trans (quiet_flushSaveFile b p _)
    · exact position
  · exact .refl _

theorem healthy_countUnique (p : Platform) {s : State b} (h : s.saveFile.Healthy) :
    (countUnique p s).saveFile.Healthy := by
  have position := healthy_getSaveFilePosition b p h
  unfold countUnique
  simp only
  split
  · split
    · exact healthy_flushSaveFile b p position
    · exact position
  · exact h

theorem Described.countUnique {p : Platform} {a : Baseline b} {s : State b}
    {log : List (Entry b)} (h : Described p a s log) : Described p a (countUnique p s) log := by
  have fields := count_unique_fields p s
  apply h.same (quiet_countUnique p s)
  · rw [fields]
  · intro u
    rw [fields]
    cases u <;> rfl
  · rw [fields]
  · rw [fields]

/-- The file over a search: described while it goes on and at Done, and after a failed Write
the program has halted. -/
structure SearchFile (p : Platform) (a : Baseline b) (t : Run b) : Prop where
  running : ∀ i s, t.outcome = .execute i s → Described p a s t.log ∧ s.saveFile.Healthy
  halted : ∀ reason s, t.outcome = .halt reason s →
    Described p a s t.log ∨ s.saveFile.FailedLast
  ud : ∀ e ∈ t.log, e.job.state.udPerfCountersValues = a.udPerfCountersValues

theorem search_file (p : Platform) (a : Baseline b) (saving : b.noSave = false)
    (healthy : a.saveFile.Healthy) (unfailed : a.saveFile.Unfailed) (rs : List (Response b)) :
    SearchFile p a (search p a rs) := by
  apply search_invariant (SearchFile p a)
  · refine ⟨?_, fun reason s same => (by cases same), fun e member => by cases member⟩
    intro i s same
    obtain ⟨rfl, rfl⟩ := Outcome.execute.inj same
    refine ⟨⟨?_, healthy.size, unfailed, rfl, ?_, rfl, rfl⟩, healthy⟩
    · exact (List.append_nil _).symm
    · intro u
      cases u <;> rfl
  · intro s log r searching file
    obtain ⟨described, healthy⟩ := file.running _ s rfl
    have handled := searching.handled p r
    have skip : ∀ {s' : State b}, Described p a s' log →
        ¬ counted p ⟨⟨s.currentInstruction, s⟩, r⟩ = true →
        Described p a s' (⟨⟨s.currentInstruction, s⟩, r⟩ :: log) :=
      fun h skipped => h.skip fun both => skipped both.1
    have step : ∀ {s'' : State b}, Proceeds p s r → saved p s r = .ok s'' →
        Described p a (countUnique p s'') (⟨⟨s.currentInstruction, s⟩, r⟩ :: log) ∧
          (countUnique p s'').saveFile.Healthy := by
      intro s'' proceeds success
      obtain ⟨after, healthy'⟩ :=
        (described.save saving healthy searching proceeds s.currentInstruction).1 s'' success
      exact ⟨after.countUnique, healthy_countUnique p healthy'⟩
    generalize handleException p s r = o at handled
    refine ⟨?_, ?_, ?_⟩
    · intro i s' same
      cases handled with
      | grown fault short =>
        obtain ⟨rfl, rfl⟩ := Outcome.execute.inj same
        exact ⟨(skip described (not_counted_of_grown _ fault short)).same (.refl _) rfl
          (fun _ => rfl) rfl rfl, healthy⟩
      | restarted notGrown unstable =>
        obtain ⟨rfl, rfl⟩ := Outcome.execute.inj same
        exact ⟨(skip described (not_counted_of_restarted _ unstable)).same (.refl _) rfl
          (fun _ => rfl) rfl rfl, healthy⟩
      | saveFailed => cases same
      | moved proceeds s'' l success next =>
        obtain ⟨rfl, rfl⟩ := Outcome.execute.inj same
        obtain ⟨after, healthy'⟩ := step proceeds success
        exact ⟨after.same (.refl _) rfl (fun _ => rfl) rfl rfl, healthy'⟩
      | done => cases same
    · intro reason s' same
      cases handled with
      | grown | restarted | moved => cases same
      | saveFailed proceeds s'' failed =>
        obtain ⟨-, rfl⟩ := Outcome.halt.inj same
        exact .inr ((described.save saving healthy searching proceeds []).2 _ failed)
      | done proceeds s'' l success =>
        obtain ⟨-, rfl⟩ := Outcome.halt.inj same
        obtain ⟨after, -⟩ := step proceeds success
        exact .inl (after.same (quiet_closing b p _) rfl (fun _ => rfl) rfl rfl)
    · intro e member
      rcases List.mem_cons.mp member with rfl | member
      · exact described.ud
      · exact file.ud e member

end PmcBruteforce
