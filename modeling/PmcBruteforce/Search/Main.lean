import PmcBruteforce.Remap.Others
import PmcBruteforce.SaveFile.Open
import PmcBruteforce.Search.Invariant

/-! The end of `efi_main`: the save file is opened, the page of the user is remapped, and the
search runs until it stops. The handle of the file over all of it. -/
namespace PmcBruteforce

variable {b : Build}

def State.initialWith (b : Build) (f : SaveFile) : State b :=
  { State.initial b with saveFile := f }

/-- The run from `execute_ud` on with the file that `open_save_file` left. -/
def bootFrom (p : Platform) (f : SaveFile) (rs : List (Response b)) : Run b :=
  (program p).run ⟨executeUd (State.initialWith b f), []⟩ rs

/-- `run` is none when `efi_main` stops before it calls `execute_ud`. -/
structure MainRun (b : Build) where
  opened : Opened
  run : Option (Run b)

def efiMain (p : Platform) (fw : Firmware) (a : PageAllocator) (paging : Paging)
    (rs : List (Response b)) : MainRun b :=
  let opened := openSaveFile b p fw
  if opened.status ≠ efiSuccess then ⟨opened, none⟩
  else
    match remapUserCodePage a (p.userCodePageForExec - 0x1000).toBitVec paging with
    | none => ⟨opened, none⟩
    | some (status, _) =>
      if status ≠ efiSuccess then ⟨opened, none⟩
      else ⟨opened, some (bootFrom p opened.saveFile rs)⟩

/-- The file with the log of the calls made through it. -/
def MainRun.file (m : MainRun b) : Option SaveFile :=
  match m.run with
  | none => some m.opened.saveFile
  | some t => t.outcome.globals.map State.saveFile

def MainRun.HandleValid (m : MainRun b) : Prop := ∃ f, m.file = some f ∧ f.HandleValid

instance (m : MainRun b) : Decidable m.HandleValid :=
  inferInstanceAs (Decidable (∃ f ∈ m.file, f.HandleValid))

/-- What the program owes its save file. -/
structure MainRun.UsesFileWell (m : MainRun b) (p : Platform) (fw : Firmware) : Prop where
  handle : m.HandleValid
  reported : b.noSave = false → m.opened.Reported p fw

theorem initialWith_consistent (b : Build) (f : SaveFile) : Consistent (State.initialWith b f) where
  positioned := (initial_consistent b).positioned.of_pointer rfl
  nop := (initial_consistent b).nop

/-- A call uses the handle and keeps it, unless it stops the run, which closes the file. -/
inductive FileStep (p : Platform) (f : SaveFile) : Outcome b → Prop where
  | keeps (i : List UInt8) (s : State b) (through : f.Through s.saveFile) :
      FileStep p f (.execute i s)
  | closes (reason : Halt) (s : State b) (g : SaveFile) (through : f.Through g)
      (closed : s.saveFile = closeSaveFile b p g) : FileStep p f (.halt reason s)

section

variable {p : Platform} {s : State b} {r : Response b}

theorem through_saved :
    (∀ s', saved p s r = .ok s' → s.saveFile.Through s'.saveFile) ∧
    ∀ s', saved p s r = .error (.halt .saveFailed s') →
      ∃ g, s.saveFile.Through g ∧ s'.saveFile = closeSaveFile b p g := by
  have same : (afterSwitch s r).saveFile = s.saveFile := (afterSwitch_books s r).1
  have used : s.saveFile.Through (saveClassified p r (classified s r) (afterSwitch s r)).2 := by
    rw [← same]
    exact uses_saveInstructionData b p _ _ _ _ _ _ _ _
  unfold saved
  rcases count_and_save_cases p r (classified s r) (afterSwitch s r) with
    ⟨-, run⟩ | ⟨-, -, run⟩ | ⟨-, -, run⟩
  · rw [run]
    constructor
    · intro s' success
      obtain rfl := Except.ok.inj success
      rw [same]
      exact .refl _
    · intro s' failed
      cases failed
  · rw [run]
    constructor
    · intro s' success
      obtain rfl := Except.ok.inj success
      exact used
    · intro s' failed
      cases failed
  · rw [run]
    constructor
    · intro s' success
      cases success
    · intro s' failed
      cases failed
      exact ⟨_, used.trans (through_getSaveFilePosition b p _), rfl⟩

theorem through_countUnique (s : State b) : s.saveFile.Through (countUnique p s).saveFile := by
  have position := through_getSaveFilePosition b p s.saveFile
  simp only [countUnique]
  split
  · split
    · exact position.trans (through_flushSaveFile b p _)
    · exact position
  · exact .refl _

theorem Searching.file_step (h : Searching s) : FileStep p s.saveFile (handleException p s r) := by
  have handled := h.handled p r
  generalize handleException p s r = o at handled
  cases handled with
  | grown => exact .keeps _ _ (.refl _)
  | restarted => exact .keeps _ _ (.refl _)
  | saveFailed proceeds s' failed =>
    obtain ⟨g, through, closed⟩ := through_saved.2 s' failed
    exact .closes _ _ g through closed
  | moved proceeds s' l success next =>
    exact .keeps _ _ ((through_saved.1 s' success).trans (through_countUnique s'))
  | done proceeds s' l success exhausted =>
    have used := (through_saved.1 s' success).trans (through_countUnique (p := p) s')
    exact .closes _ _ _ (used.trans (through_getSaveFilePosition b p _)) rfl

theorem Consistent.file_step (h : Consistent s) :
    FileStep p s.saveFile (handleException p s r) := by
  cases ud : s.measuringUd with
  | true =>
    have measured := ud_measured p ud r
    have header := uses_saveUint64Array p s.udPerfCountersValues.toList s.saveFile
    generalize handleException p s r = o at measured
    cases measured with
    | unexpected => exact .closes _ _ s.saveFile (.refl _) rfl
    | again => exact .keeps _ _ (.refl _)
    | saveFailed => exact .closes _ _ _ header rfl
    | nop => exact .keeps _ _ header
    | search => exact .keeps _ _ header
  | false =>
    cases nop : s.measuringNop with
    | true =>
      have measured := nop_measured p (h.nop nop) ud nop r
      have header := uses_saveUint64Array p s.nopPerfCountersValues.toList s.saveFile
      generalize handleException p s r = o at measured
      cases measured with
      | unexpected => exact .closes _ _ s.saveFile (.refl _) rfl
      | again => exact .keeps _ _ (.refl _)
      | saveFailed => exact .closes _ _ _ header rfl
      | search => exact .keeps _ _ header
    | false => exact (h.positioned.searching ⟨ud, nop⟩).file_step

end

/-- The second of two equal measurements of `ud2` is in the log: the header was written. -/
def HeaderMeasured (log : List (Entry b)) : Prop :=
  ∃ e ∈ log, e.job.state.measuringUd = true ∧ UdReproduced e.job.state e.response

theorem headerMeasured_cons {e : Entry b} {log : List (Entry b)} :
    HeaderMeasured (e :: log) ↔
      (e.job.state.measuringUd = true ∧ UdReproduced e.job.state e.response) ∨
        HeaderMeasured log := List.exists_mem_cons_iff _ _ _

theorem FileStep.open {p : Platform} {f : SaveFile} {o : Outcome b} (h : FileStep p f o)
    (isOpen : f.isOpen = true) (valid : f.HandleValid) :
    (∃ s, o.globals = some s ∧ s.saveFile.HandleValid) ∧
      ∀ i s, o = .execute i s → s.saveFile.isOpen = true := by
  cases h with
  | keeps i s through =>
    refine ⟨⟨s, rfl, through.valid isOpen valid⟩, ?_⟩
    intro i' s' same
    obtain ⟨-, rfl⟩ := Outcome.execute.inj same
    exact through.isOpen.trans isOpen
  | closes reason s g through closed =>
    refine ⟨⟨s, rfl, ?_⟩, fun i' s' same => by cases same⟩
    rw [closed]
    exact closeSaveFile_valid b p (through.valid isOpen valid) fun _ => through.isOpen.trans isOpen

theorem FileStep.invalid {p : Platform} {f : SaveFile} {o : Outcome b} (h : FileStep p f o)
    (invalid : ¬ f.HandleValid) : ∃ s, o.globals = some s ∧ ¬ s.saveFile.HandleValid := by
  cases h with
  | keeps i s through => exact ⟨s, rfl, through.invalid invalid⟩
  | closes reason s g through closed =>
    refine ⟨s, rfl, ?_⟩
    rw [closed]
    exact closeSaveFile_invalid b p (through.invalid invalid)

/-- A run that starts with the file open uses it only while it is. -/
theorem open_run_valid (p : Platform) {f : SaveFile} (isOpen : f.isOpen = true)
    (valid : f.HandleValid) (rs : List (Response b)) :
    ∃ s, (bootFrom p f rs).outcome.globals = some s ∧ s.saveFile.HandleValid := by
  let open_ : Run b → Prop := fun t =>
    (∃ s, t.outcome.globals = some s ∧ s.saveFile.HandleValid) ∧
      ∀ i s, t.outcome = .execute i s → s.saveFile.isOpen = true
  have all : open_ (bootFrom p f rs) := by
    apply consistent_invariant open_ (initialWith_consistent b f)
    · refine ⟨⟨_, rfl, valid⟩, ?_⟩
      intro i s same
      obtain ⟨-, rfl⟩ := Outcome.execute.inj same
      exact isOpen
    · rintro ⟨i, s⟩ log r consistent ⟨⟨s', here, valid⟩, stays⟩
      obtain rfl := Option.some.inj here
      exact consistent.file_step.open (stays i s rfl) valid
  exact all.1

/-- A wrong call stays in the log. -/
theorem invalid_run (p : Platform) {f : SaveFile} (invalid : ¬ f.HandleValid)
    (rs : List (Response b)) :
    ∃ s, (bootFrom p f rs).outcome.globals = some s ∧ ¬ s.saveFile.HandleValid := by
  let invalid_ : Run b → Prop := fun t =>
    ∃ s, t.outcome.globals = some s ∧ ¬ s.saveFile.HandleValid
  apply consistent_invariant invalid_ (initialWith_consistent b f)
  · exact ⟨_, rfl, invalid⟩
  · rintro ⟨i, s⟩ log r consistent ⟨s', here, invalid⟩
    obtain rfl := Option.some.inj here
    exact consistent.file_step.invalid invalid

theorem counters_cons (c : Counters b) : ∃ value values, c.toList = value :: values := by
  have some_ : 0 < c.toList.length := by
    rw [c.length_toList, Build.perfEventsCount]
    omega
  exact List.exists_cons_of_length_pos some_

theorem header_invalid (p : Platform) (c : Counters b) {f : SaveFile} (closed : f.isOpen = false) :
    ¬ (saveUint64Array p c.toList f).2.HandleValid := by
  obtain ⟨value, values, counters⟩ := counters_cons c
  obtain ⟨call, member, through⟩ := saveUint64Array_writes p value values f
  rw [counters]
  intro valid
  rw [valid call member, closed] at through
  cases through

/-- With NO_SAVE nothing is called until the header, which goes through NULL. -/
structure Unsaved (log : List (Entry b)) (s : State b) : Prop where
  valid : s.saveFile.HandleValid ↔ ¬ HeaderMeasured log
  before : ¬ HeaderMeasured log → s.saveFile = SaveFile.closed

theorem closed_valid : SaveFile.closed.HandleValid := by
  intro c member
  cases member

theorem closeSaveFile_of_noSave (skipping : b.noSave = true) (p : Platform) (f : SaveFile) :
    closeSaveFile b p f = f := if_pos skipping

section

variable {log : List (Entry b)} {j : Job b} {r : Response b}

theorem headerMeasured_here (log : List (Entry b)) (ud : j.state.measuringUd = true)
    (reproduced : UdReproduced j.state r) :
    HeaderMeasured (⟨j, r⟩ :: log : List (Entry b)) :=
  headerMeasured_cons.mpr (.inl ⟨ud, reproduced⟩)

theorem Unsaved.written (header : HeaderMeasured log) {s : State b}
    (invalid : ¬ s.saveFile.HandleValid) : Unsaved log s where
  valid := iff_of_false invalid (not_not_intro header)
  before none_ := absurd header none_

theorem Unsaved.quiet (none_ : ¬ HeaderMeasured log) {s : State b}
    (file : s.saveFile = SaveFile.closed) : Unsaved log s where
  valid := iff_of_true (file ▸ closed_valid) none_
  before _ := file

theorem unsaved_ud_step (skipping : b.noSave = true) (p : Platform)
    (ud : j.state.measuringUd = true) (closed : j.state.saveFile = SaveFile.closed)
    (none_ : ¬ HeaderMeasured log) :
    (∃ s, (handleException p j.state r).globals = some s ∧ Unsaved (⟨j, r⟩ :: log) s) ∧
      ∀ i s, handleException p j.state r = .execute i s →
        ¬ HeaderMeasured (⟨j, r⟩ :: log) → s.measuringUd = true := by
  have measured := ud_measured p ud r
  have invalid : ¬ (afterUdHeader p j.state).saveFile.HandleValid := by
    apply header_invalid
    rw [closed]
    rfl
  have absent : ¬ UdReproduced j.state r → ¬ HeaderMeasured (⟨j, r⟩ :: log : List (Entry b)) := by
    intro other header
    rcases headerMeasured_cons.mp header with ⟨-, reproduced⟩ | earlier
    · exact other reproduced
    · exact none_ earlier
  generalize handleException p j.state r = o at measured
  cases measured with
  | unexpected other =>
    refine ⟨⟨_, rfl, .quiet (absent other) ?_⟩, fun i s same => by cases same⟩
    rw [closeSaveFile_of_noSave skipping]
    exact closed
  | again other =>
    refine ⟨⟨_, rfl, .quiet (absent other) closed⟩, ?_⟩
    intro i s same _
    obtain ⟨-, rfl⟩ := Outcome.execute.inj same
    exact ud
  | saveFailed reproduced =>
    have header := headerMeasured_here log ud reproduced
    exact ⟨⟨_, rfl, .written header (closeSaveFile_invalid b p invalid)⟩,
      fun i s same => by cases same⟩
  | nop reproduced =>
    have header := headerMeasured_here log ud reproduced
    exact ⟨⟨_, rfl, .written header invalid⟩, fun i s _ before => absurd header before⟩
  | search reproduced =>
    have header := headerMeasured_here log ud reproduced
    exact ⟨⟨_, rfl, .written header invalid⟩, fun i s _ before => absurd header before⟩

end

/-- A run of a NO_SAVE build is without a wrong call as long as the header is not written. -/
theorem unsaved_run (skipping : b.noSave = true) (p : Platform) (rs : List (Response b)) :
    ∃ s, (bootFrom p SaveFile.closed rs).outcome.globals = some s ∧
      (s.saveFile.HandleValid ↔ ¬ HeaderMeasured (bootFrom p SaveFile.closed rs).log) := by
  let unsaved : Run b → Prop := fun t =>
    (∃ s, t.outcome.globals = some s ∧ Unsaved t.log s) ∧
      ∀ i s, t.outcome = .execute i s → ¬ HeaderMeasured t.log → s.measuringUd = true
  have all : unsaved (bootFrom p SaveFile.closed rs) := by
    apply consistent_invariant unsaved (initialWith_consistent b SaveFile.closed)
    · have none_ : ¬ HeaderMeasured ([] : List (Entry b)) := by simp [HeaderMeasured]
      refine ⟨⟨_, rfl, .quiet none_ rfl⟩, ?_⟩
      intro i s same _
      obtain ⟨-, rfl⟩ := Outcome.execute.inj same
      rfl
    · rintro ⟨i, s⟩ log r consistent ⟨⟨s', here, unsaved⟩, stays⟩
      obtain rfl := Option.some.inj here
      by_cases header : HeaderMeasured log
      · have later : HeaderMeasured (⟨⟨i, s⟩, r⟩ :: log : List (Entry b)) :=
          headerMeasured_cons.mpr (.inr header)
        have invalid : ¬ s.saveFile.HandleValid := fun valid => unsaved.valid.mp valid header
        obtain ⟨s', next, still⟩ := (consistent.file_step (p := p) (r := r)).invalid invalid
        exact ⟨⟨s', next, .written later still⟩, fun i' s'' _ before => absurd later before⟩
      · exact unsaved_ud_step skipping p (stays i s rfl header) (unsaved.before header) header
  obtain ⟨⟨s, here, unsaved⟩, -⟩ := all
  exact ⟨s, here, unsaved.valid⟩

theorem handle_valid_of_stopped {m : MainRun b} (stopped : m.run = none) :
    m.HandleValid ↔ m.opened.saveFile.HandleValid := by
  simp [MainRun.HandleValid, MainRun.file, stopped]

theorem handle_valid_of_run {m : MainRun b} {t : Run b} {s : State b} (run : m.run = some t)
    (here : t.outcome.globals = some s) : m.HandleValid ↔ s.saveFile.HandleValid := by
  simp [MainRun.HandleValid, MainRun.file, run, here]

section

variable (p : Platform) (fw : Firmware) (a : PageAllocator) (paging : Paging)
  (rs : List (Response b))

theorem efiMain_cases :
    (efiMain p fw a paging rs).opened = openSaveFile b p fw ∧
      ((efiMain p fw a paging rs).run = none ∨
        (openSaveFile b p fw).status = efiSuccess ∧
          (efiMain p fw a paging rs).run =
            some (bootFrom p (openSaveFile b p fw).saveFile rs)) := by
  simp only [efiMain]
  split
  · exact ⟨rfl, .inl rfl⟩
  · rename_i success
    split
    · exact ⟨rfl, .inl rfl⟩
    · split
      · exact ⟨rfl, .inl rfl⟩
      · exact ⟨rfl, .inr ⟨not_not.mp success, rfl⟩⟩

/-- What decides about the handle: with saving, whether a failing Open is passed over; with
NO_SAVE, whether the header is written. -/
theorem main_handle_valid_iff :
    (efiMain p fw a paging rs).HandleValid ↔
      (b.noSave = false → ¬ OpenFails fw) ∧
      (b.noSave = true → ∀ t, (efiMain p fw a paging rs).run = some t →
        ¬ HeaderMeasured t.log) := by
  obtain ⟨opened, run⟩ := efiMain_cases (b := b) p fw a paging rs
  cases skipping : b.noSave with
  | false =>
    have valid := open_valid_iff b p fw skipping
    simp only [forall_const, reduceCtorEq, false_implies, and_true]
    rcases run with stopped | ⟨success, run⟩
    · rw [handle_valid_of_stopped stopped, opened, valid]
    · by_cases fails : OpenFails fw
      · obtain ⟨s, here, invalid⟩ := invalid_run (b := b) p (mt valid.mp (not_not_intro fails)) rs
        rw [handle_valid_of_run run here]
        exact ⟨fun valid => absurd valid invalid, fun opens => absurd fails opens⟩
      · have isOpen := open_success_isOpen b p fw skipping fails success
        obtain ⟨s, here, stays⟩ := open_run_valid (b := b) p isOpen (valid.mpr fails) rs
        rw [handle_valid_of_run run here]
        exact ⟨fun _ => fails, fun _ => stays⟩
  | true =>
    have file : (openSaveFile b p fw).saveFile = SaveFile.closed := by
      simp [openSaveFile, skipping]
    simp only [forall_const, reduceCtorEq, false_implies, true_and]
    rcases run with stopped | ⟨-, run⟩
    · rw [handle_valid_of_stopped stopped, opened, file]
      simp [stopped, closed_valid]
    · rw [file] at run
      obtain ⟨s, here, iff⟩ := unsaved_run skipping p rs
      rw [handle_valid_of_run run here, iff]
      simp [run]

end

def workingFirmware : Firmware where
  openLoadedImage := efiSuccess
  closeLoadedImage := efiSuccess
  openSimpleFs := efiSuccess
  openVolume := efiSuccess
  openFile := efiSuccess
  allocatePool := efiSuccess
  fileSize := 0

def noSaveBuild : Build := { Build.makefile .mode64 with noSave := true }

def steadyUd2 : Response noSaveBuild where
  context := ⟨exceptionInvalidOpcode, userFault 0x201ffe⟩
  counters := threeCounters 7 0 0
  cr2 := 0
  disasmLength := 0
  mcgCap := 0
  mcStatus := fun _ => 0

end PmcBruteforce
