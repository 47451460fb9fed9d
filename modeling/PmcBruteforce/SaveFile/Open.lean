import PmcBruteforce.SaveFile.Handle

/-! `open_save_file`: the chain of firmware calls in front of a run, and what its status says
about the file. -/
namespace PmcBruteforce

def efiBufferTooSmall : EfiStatus := 0x8000000000000005

/-- What the firmware answers to the calls that do not go through `output_file`, and the size
of the file it finds. The statuses nobody looks at are not here: those of the second
CloseProtocol, of `root_dir->Close` and of FreePool. -/
structure Firmware where
  openLoadedImage : EfiStatus
  closeLoadedImage : EfiStatus
  openSimpleFs : EfiStatus
  openVolume : EfiStatus
  openFile : EfiStatus
  allocatePool : EfiStatus
  fileSize : UInt64

/-- What `open_save_file` leaves. `fileSize` is the size of the file as the function returns. -/
structure Opened where
  status : EfiStatus
  saveFile : SaveFile
  fileSize : UInt64

def SaveFile.closed : SaveFile := ⟨false, [], []⟩

/-- `output_file->GetInfo` and `output_file->SetInfo`. -/
def SaveFile.call (p : Platform) (method : FileMethod) (f : SaveFile) : EfiStatus × SaveFile :=
  let status := p.fileStatus f.calls.length
  (status, f.logCall method status)

/-- From the first GetInfo on. A failing Open only prints, so its file is NULL here. -/
def resetSaveFile (p : Platform) (fw : Firmware) (f : SaveFile) : Opened :=
  let (status, f) := f.call p .getInfo
  if status ≠ efiBufferTooSmall then ⟨status, f, fw.fileSize⟩
  else if fw.allocatePool ≠ efiSuccess then ⟨fw.allocatePool, f, fw.fileSize⟩
  else
    let (status, f) := f.call p .getInfo
    if status ≠ efiSuccess then ⟨status, f, fw.fileSize⟩
    else if fw.fileSize ≠ 0 then
      let (status, f) := f.call p .setInfo
      ⟨status, f, if status ≠ efiSuccess then fw.fileSize else 0⟩
    else ⟨status, f, fw.fileSize⟩

def openSaveFile (b : Build) (p : Platform) (fw : Firmware) : Opened :=
  let f := SaveFile.closed
  if b.noSave then ⟨efiSuccess, f, fw.fileSize⟩
  else if fw.openLoadedImage ≠ efiSuccess then ⟨fw.openLoadedImage, f, fw.fileSize⟩
  else if fw.closeLoadedImage ≠ efiSuccess then ⟨fw.closeLoadedImage, f, fw.fileSize⟩
  else if fw.openSimpleFs ≠ efiSuccess then ⟨fw.openSimpleFs, f, fw.fileSize⟩
  else if fw.openVolume ≠ efiSuccess then ⟨fw.openVolume, f, fw.fileSize⟩
  else resetSaveFile p fw { f with isOpen := decide (fw.openFile = efiSuccess) }

/-- The status of the first call that did not answer what is expected of it. -/
def firstUnexpected : List (EfiStatus × EfiStatus) → EfiStatus
  | [] => efiSuccess
  | (expected, status) :: calls => if status ≠ expected then status else firstUnexpected calls

/-- The calls in front of `root_dir->Open`. -/
def volumeCalls (fw : Firmware) : List (EfiStatus × EfiStatus) :=
  [fw.openLoadedImage, fw.closeLoadedImage, fw.openSimpleFs, fw.openVolume].map (efiSuccess, ·)

/-- The calls behind it, each with the status that lets the function go on. -/
def fileCalls (p : Platform) (fw : Firmware) : List (EfiStatus × EfiStatus) :=
  (efiBufferTooSmall, p.fileStatus 0) :: (efiSuccess, fw.allocatePool) ::
    (efiSuccess, p.fileStatus 1) ::
    if fw.fileSize ≠ 0 then [(efiSuccess, p.fileStatus 2)] else []

def checkedCalls (p : Platform) (fw : Firmware) : List (EfiStatus × EfiStatus) :=
  volumeCalls fw ++ (efiSuccess, fw.openFile) :: fileCalls p fw

/-- `root_dir->Open` is called. -/
def OpenReached (fw : Firmware) : Prop := ∀ call ∈ volumeCalls fw, call.2 = efiSuccess

/-- What the returned status tells. -/
structure Opened.Reported (o : Opened) (p : Platform) (fw : Firmware) : Prop where
  success : o.status = efiSuccess → o.saveFile.isOpen = true ∧ o.fileSize = 0
  failure : o.status ≠ efiSuccess → o.status = firstUnexpected (checkedCalls p fw)

/-- Open fails, and the function goes on with a NULL file. -/
def OpenFails (fw : Firmware) : Prop := OpenReached fw ∧ fw.openFile ≠ efiSuccess

/-- The query for the size of the file information succeeds, which the function takes for a
failure whose status it returns. -/
def QuerySucceeds (p : Platform) (fw : Firmware) : Prop :=
  OpenReached fw ∧ p.fileStatus 0 = efiSuccess ∧ fw.fileSize ≠ 0

instance (fw : Firmware) : Decidable (OpenReached fw) :=
  inferInstanceAs (Decidable (∀ call ∈ volumeCalls fw, call.2 = efiSuccess))

instance (fw : Firmware) : Decidable (OpenFails fw) := inferInstanceAs (Decidable (_ ∧ _))

instance (p : Platform) (fw : Firmware) : Decidable (QuerySucceeds p fw) :=
  inferInstanceAs (Decidable (_ ∧ _))

theorem firstUnexpected_append_of_expected {calls more : List (EfiStatus × EfiStatus)}
    (expected : ∀ call ∈ calls, call.2 = call.1) :
    firstUnexpected (calls ++ more) = firstUnexpected more := by
  induction calls with
  | nil => rfl
  | cons call calls ih =>
    have here : call.2 = call.1 := expected call List.mem_cons_self
    have later := ih fun c member => expected c (List.mem_cons_of_mem _ member)
    rw [List.cons_append, firstUnexpected, if_neg (not_not_intro here), later]

theorem firstUnexpected_append_of_unexpected {calls more : List (EfiStatus × EfiStatus)}
    (unexpected : ∃ call ∈ calls, call.2 ≠ call.1) :
    firstUnexpected (calls ++ more) = firstUnexpected calls := by
  induction calls with
  | nil => simp at unexpected
  | cons call calls ih =>
    rw [List.cons_append, firstUnexpected, firstUnexpected]
    by_cases here : call.2 = call.1
    · rw [if_neg (not_not_intro here), if_neg (not_not_intro here)]
      apply ih
      obtain ⟨c, member, other⟩ := unexpected
      rcases List.mem_cons.mp member with rfl | member
      · exact absurd here other
      · exact ⟨c, member, other⟩
    · rw [if_pos here, if_pos here]

theorem firstUnexpected_of_unexpected {calls : List (EfiStatus × EfiStatus)}
    (unexpected : ∃ call ∈ calls, call.2 ≠ call.1) :
    ∃ call ∈ calls, call.2 ≠ call.1 ∧ firstUnexpected calls = call.2 := by
  induction calls with
  | nil => simp at unexpected
  | cons call calls ih =>
    rw [firstUnexpected]
    by_cases here : call.2 = call.1
    · rw [if_neg (not_not_intro here)]
      obtain ⟨c, member, other⟩ := unexpected
      have later : ∃ call ∈ calls, call.2 ≠ call.1 := by
        rcases List.mem_cons.mp member with rfl | member
        · exact absurd here other
        · exact ⟨c, member, other⟩
      obtain ⟨d, member, found⟩ := ih later
      exact ⟨d, List.mem_cons_of_mem _ member, found⟩
    · rw [if_pos here]
      exact ⟨call, List.mem_cons_self, here, rfl⟩

theorem volume_calls_expect_success (fw : Firmware) :
    ∀ call ∈ volumeCalls fw, call.1 = efiSuccess := by
  intro call member
  obtain ⟨status, -, rfl⟩ := List.mem_map.mp member
  rfl

section

variable (b : Build) (p : Platform) (fw : Firmware)

theorem openSaveFile_unreached (saving : b.noSave = false) (unreached : ¬ OpenReached fw) :
    openSaveFile b p fw = ⟨firstUnexpected (volumeCalls fw), SaveFile.closed, fw.fileSize⟩ := by
  simp only [OpenReached, volumeCalls, List.map_cons, List.map_nil, List.forall_mem_cons,
    List.not_mem_nil, false_implies, implies_true, and_true] at unreached
  simp only [openSaveFile, saving, Bool.false_eq_true, if_false, volumeCalls, List.map_cons,
    List.map_nil, firstUnexpected]
  by_cases first : fw.openLoadedImage = efiSuccess
  · by_cases second : fw.closeLoadedImage = efiSuccess
    · by_cases third : fw.openSimpleFs = efiSuccess
      · have fourth : fw.openVolume ≠ efiSuccess := fun last =>
          unreached ⟨first, second, third, last⟩
        simp [first, second, third, fourth]
      · simp [first, second, third]
    · simp [first, second]
  · simp [first]

theorem openSaveFile_reached (saving : b.noSave = false) (reached : OpenReached fw) :
    openSaveFile b p fw =
      resetSaveFile p fw ⟨decide (fw.openFile = efiSuccess), [], []⟩ := by
  simp only [OpenReached, volumeCalls, List.map_cons, List.map_nil, List.forall_mem_cons,
    List.not_mem_nil, false_implies, implies_true, and_true] at reached
  obtain ⟨first, second, third, fourth⟩ := reached
  simp [openSaveFile, saving, first, second, third, fourth, SaveFile.closed]

theorem through_call (method : FileMethod) (f : SaveFile) : f.Through (f.call p method).2 :=
  f.through_logCall method _

/-- GetInfo is called, and every call is made through the file of Open. -/
theorem resetSaveFile_through (f : SaveFile) :
    (f.call p .getInfo).2.Through (resetSaveFile p fw f).saveFile := by
  simp only [resetSaveFile]
  split
  · exact .refl _
  · split
    · exact .refl _
    · split
      · exact through_call p _ _
      · split
        · exact (through_call p _ _).trans (through_call p _ _)
        · exact through_call p _ _

theorem resetSaveFile_isOpen (f : SaveFile) :
    (resetSaveFile p fw f).saveFile.isOpen = f.isOpen :=
  (resetSaveFile_through p fw f).isOpen

theorem resetSaveFile_valid_iff (f : SaveFile) (fresh : f.calls = []) :
    (resetSaveFile p fw f).saveFile.HandleValid ↔ f.isOpen = true := by
  have through := resetSaveFile_through p fw f
  have first : (f.call p .getInfo).2.calls = [⟨.getInfo, p.fileStatus 0, f.isOpen⟩] := by
    simp [SaveFile.call, SaveFile.logCall, fresh]
  have once : (f.call p .getInfo).2.HandleValid ↔ f.isOpen = true := by
    simp [SaveFile.HandleValid, first]
  constructor
  · intro valid
    by_contra closed
    exact through.invalid (mt once.mp closed) valid
  · intro isOpen
    exact through.valid isOpen (once.mpr isOpen)

theorem resetSaveFile_status (f : SaveFile) (fresh : f.calls = []) :
    (resetSaveFile p fw f).status = firstUnexpected (fileCalls p fw) := by
  simp only [resetSaveFile, SaveFile.call, SaveFile.logCall, fresh, fileCalls, firstUnexpected,
    List.length_nil, List.length_cons, Nat.zero_add]
  split
  · rfl
  · split
    · rfl
    · split
      · rfl
      · split
        · simp only [firstUnexpected]
          split
          · rfl
          · rename_i success
            exact not_not.mp success
        · rename_i success _
          exact not_not.mp success

/-- With EFI_SUCCESS the file is empty, unless it was the size query that answered so. -/
theorem resetSaveFile_size (f : SaveFile) (fresh : f.calls = [])
    (success : (resetSaveFile p fw f).status = efiSuccess) :
    (resetSaveFile p fw f).fileSize = 0 ↔ ¬ (p.fileStatus 0 = efiSuccess ∧ fw.fileSize ≠ 0) := by
  simp only [resetSaveFile, SaveFile.call, SaveFile.logCall, fresh, List.length_nil,
    List.length_cons, Nat.zero_add] at success ⊢
  by_cases query : p.fileStatus 0 = efiBufferTooSmall
  · have failed : p.fileStatus 0 ≠ efiSuccess := by
      rw [query]
      decide
    rw [if_neg (not_not_intro query)] at success ⊢
    by_cases pool : fw.allocatePool = efiSuccess
    · rw [if_neg (not_not_intro pool)] at success ⊢
      by_cases info : p.fileStatus 1 = efiSuccess
      · rw [if_neg (not_not_intro info)] at success ⊢
        by_cases empty : fw.fileSize = 0
        · simp [empty]
        · rw [if_pos empty] at success ⊢
          have set : p.fileStatus 2 = efiSuccess := success
          simp [set, failed]
      · rw [if_pos info] at success
        exact absurd success info
    · rw [if_pos pool] at success
      exact absurd success pool
  · rw [if_pos query] at success ⊢
    have answer : p.fileStatus 0 = efiSuccess := success
    simp [answer]

theorem checkedCalls_of_opened (reached : OpenReached fw) (opened : fw.openFile = efiSuccess) :
    firstUnexpected (checkedCalls p fw) = firstUnexpected (fileCalls p fw) := by
  have volume : ∀ call ∈ volumeCalls fw, call.2 = call.1 := fun call member =>
    (reached call member).trans (volume_calls_expect_success fw call member).symm
  rw [checkedCalls, firstUnexpected_append_of_expected volume, firstUnexpected,
    if_neg (not_not_intro opened)]

theorem checkedCalls_of_unreached (unreached : ¬ OpenReached fw) :
    firstUnexpected (checkedCalls p fw) = firstUnexpected (volumeCalls fw) ∧
      firstUnexpected (volumeCalls fw) ≠ efiSuccess := by
  simp only [OpenReached, not_forall] at unreached
  obtain ⟨call, member, failed⟩ := unreached
  have unexpected : ∃ call ∈ volumeCalls fw, call.2 ≠ call.1 := by
    refine ⟨call, member, ?_⟩
    rw [volume_calls_expect_success fw call member]
    exact failed
  refine ⟨firstUnexpected_append_of_unexpected unexpected, ?_⟩
  obtain ⟨c, member, other, found⟩ := firstUnexpected_of_unexpected unexpected
  rw [volume_calls_expect_success fw c member] at other
  rw [found]
  exact other

/-- Without NO_SAVE a failing Open is the one way to call through a file that is not open. -/
theorem open_valid_iff (saving : b.noSave = false) :
    (openSaveFile b p fw).saveFile.HandleValid ↔ ¬ OpenFails fw := by
  by_cases reached : OpenReached fw
  · rw [openSaveFile_reached b p fw saving reached, resetSaveFile_valid_iff p fw _ rfl]
    simp [OpenFails, reached]
  · rw [openSaveFile_unreached b p fw saving reached]
    simp [OpenFails, reached, SaveFile.HandleValid, SaveFile.closed]

theorem open_success_isOpen (saving : b.noSave = false) (opens : ¬ OpenFails fw)
    (success : (openSaveFile b p fw).status = efiSuccess) :
    (openSaveFile b p fw).saveFile.isOpen = true := by
  by_cases reached : OpenReached fw
  · have opened : fw.openFile = efiSuccess := by
      by_contra failed
      exact opens ⟨reached, failed⟩
    rw [openSaveFile_reached b p fw saving reached, resetSaveFile_isOpen]
    exact decide_eq_true opened
  · rw [openSaveFile_unreached b p fw saving reached] at success
    exact absurd success (checkedCalls_of_unreached p fw reached).2

/-- And then a size query that succeeds is the one way to return a wrong status. -/
theorem open_reported_iff (saving : b.noSave = false) (opens : ¬ OpenFails fw) :
    (openSaveFile b p fw).Reported p fw ↔ ¬ QuerySucceeds p fw := by
  have isOpen := open_success_isOpen b p fw saving opens
  by_cases reached : OpenReached fw
  · have opened : fw.openFile = efiSuccess := by
      by_contra failed
      exact opens ⟨reached, failed⟩
    have status := checkedCalls_of_opened p fw reached opened
    rw [openSaveFile_reached b p fw saving reached] at isOpen ⊢
    have size := resetSaveFile_size p fw ⟨decide (fw.openFile = efiSuccess), [], []⟩ rfl
    have returned := resetSaveFile_status p fw ⟨decide (fw.openFile = efiSuccess), [], []⟩ rfl
    constructor
    · rintro reported ⟨-, query, kept⟩
      have success : firstUnexpected (fileCalls p fw) = efiSuccess := by
        rw [fileCalls, firstUnexpected, query, if_pos (by decide)]
      rw [← returned] at success
      exact (size success).mp (reported.success success).2 ⟨query, kept⟩
    · intro quiet
      constructor
      · intro success
        exact ⟨isOpen success, (size success).mpr fun ⟨query, kept⟩ =>
          quiet ⟨reached, query, kept⟩⟩
      · intro _
        rw [returned, status]
  · have unexpected := checkedCalls_of_unreached p fw reached
    rw [openSaveFile_unreached b p fw saving reached]
    constructor
    · intro _ query
      exact reached query.1
    · intro _
      exact ⟨fun success => absurd success unexpected.2, fun _ => unexpected.1.symm⟩

end

end PmcBruteforce
