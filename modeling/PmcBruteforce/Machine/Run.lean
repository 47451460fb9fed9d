import PmcBruteforce.Machine.StartUp

/-! A run from `efi_main` on: the search that goes on beside it, what the fetch of user mode
finds through the page tables, and a processor and a firmware on which all this happens. -/
namespace PmcBruteforce

open Library

variable {b : Build}

/-- The fetch of an instruction that ends with the code page: each byte of it is read and
executed through the user's address, and the next byte is out of reach. -/
structure Fetched (s : Paging) (k : Kernel b) (instruction : List UInt8) (m : Machine) : Prop where
  bytes : ∀ (i : Nat) (inside : i < instruction.length),
    let virt := (k.platform.userCodePageForExec + instructionStartOffset instruction.length +
      UInt64.ofNat i).toBitVec
    (∃ phys, s.translate virt = some phys ∧
      m.cpu.memory (UInt64.ofBitVec phys) = instruction.get ⟨i, inside⟩) ∧
      s.hasRight virt .user = true ∧ s.hasRight virt .execute = true
  behind : s.hasRight (k.platform.userCodePageForExec + 0x1000).toBitVec .user = false

theorem samePage_of_frame (s : Paging) {w virt : BitVec 64}
    (frame : w.toNat / 2 ^ 12 = virt.toNat / 2 ^ 12) : s.SamePage w virt := by
  intro l _
  apply Fin.ext
  have split : ∀ x : BitVec 64, (x >>> (12 + 9 * l)).toNat = x.toNat / 2 ^ 12 / 2 ^ (9 * l) := by
    intro x
    rw [BitVec.toNat_ushiftRight, Nat.shiftRight_eq_div_pow, Nat.pow_add, Nat.div_div_eq_div_mul]
  simp only [ptIndex, Fin.ofNat, split, frame]

theorem page_or_offset {page w : UInt64} {n : Nat} (aligned : page.toNat % 2 ^ 12 = 0)
    (offset : w.toNat % 2 ^ 12 = n) :
    UInt64.ofBitVec (page.toBitVec ||| w.toBitVec &&& 0xfff#64) = page + UInt64.ofNat n := by
  apply UInt64.toNat_inj.mp
  have bound := page.toNat_lt
  have low : w.toNat &&& 0xfff = n := (Nat.and_two_pow_sub_one_eq_mod w.toNat 12).trans offset
  have small : n < 2 ^ 12 := by omega
  have high : page.toNat = 2 ^ 12 * (page.toNat / 2 ^ 12) := by omega
  have joined := or_field small (page.toNat / 2 ^ 12)
  rw [← high] at joined
  have number : (UInt64.ofBitVec (page.toBitVec ||| w.toBitVec &&& 0xfff#64)).toNat =
      page.toNat ||| (w.toNat &&& 0xfff) := rfl
  rw [number, low, Nat.or_comm, joined, UInt64.toNat_add, UInt64.toNat_ofNat']
  omega

theorem page_multiple {a : UInt64} (aligned : a &&& 0xfff = 0) : a.toNat % 2 ^ 12 = 0 := by
  have masked : a.toNat &&& 0xfff = a.toNat % 2 ^ 12 := Nat.and_two_pow_sub_one_eq_mod _ 12
  rw [← masked]
  exact congrArg UInt64.toNat aligned

section

variable {hw : Cpuid} {answers : BootAnswers} {image : Image} {p : Platform} {m m' : MainState}
  {k : Kernel b} {f : SaveFile}

theorem stay_fetched (promises : Promises b hw answers image m)
    (page : UserCodePage m.paging m'.paging k.userCodePageRw.toBitVec)
    (place : k.userCodePageRw = answers.userCodePage.2)
    (exec : k.platform.userCodePageForExec = k.userCodePageRw + 0x1000)
    {instruction : List UInt8} (short : instruction.length ≤ 15) {u : Machine}
    (start : UserStart k instruction u) : Fetched m'.paging k instruction u := by
  have low := promises.low
  have limit : addressLimit b.cpuMode ≤ 2 ^ 47 := by
    cases b.cpuMode <;> simp [addressLimit]
  have multiple := page_multiple promises.pageAligned
  rw [← place] at low multiple
  have next : (k.userCodePageRw.toBitVec + 0x1000#64).toNat = k.userCodePageRw.toNat + 0x1000 := by
    rw [BitVec.toNat_add, UInt64.toNat_toBitVec]
    simp only [BitVec.reduceToNat]
    omega
  constructor
  · intro i inside virt
    have number : (k.platform.userCodePageForExec + instructionStartOffset instruction.length +
        UInt64.ofNat i).toNat = k.userCodePageRw.toNat + 0x1000 + (0x1000 - instruction.length + i) := by
      rw [exec, instruction_offset (by omega)]
      simp only [UInt64.toNat_add, UInt64.toNat_ofNat', UInt64.reduceToNat]
      omega
    have same : m.paging.SamePage virt (k.userCodePageRw.toBitVec + 0x1000#64) := by
      apply samePage_of_frame
      rw [next, UInt64.toNat_toBitVec, number]
      omega
    obtain ⟨address, executable, -⟩ := page.fetched virt same
    refine ⟨⟨_, address, ?_⟩, (page.user virt).mpr same, executable⟩
    have byte : u.cpu.memory (k.userCodePageRw + instructionStartOffset instruction.length +
        UInt64.ofNat i) = instruction.get ⟨i, inside⟩ := by
      have read := List.getElem_of_eq start.page (i := i) (by simpa using inside)
      simp only [ByteMemory.readBytes, List.getElem_map, List.getElem_range] at read
      exact read
    rw [← byte, page_or_offset (n := 0x1000 - instruction.length + i) multiple (by rw [number]; omega),
      instruction_offset (by omega), UInt64.add_assoc, ← UInt64.ofNat_add]
  · rw [← Bool.not_eq_true, page.user]
    intro same
    have number : (k.userCodePageRw + 0x1000).toNat = k.userCodePageRw.toNat + 0x1000 := next
    have aligned : PageAddress (k.userCodePageRw + 0x1000).toBitVec := by
      apply page_address _ (by omega)
      have masked : (k.userCodePageRw + 0x1000).toNat &&& 0xfff =
          (k.userCodePageRw + 0x1000).toNat % 2 ^ 12 := Nat.and_two_pow_sub_one_eq_mod _ 12
      apply UInt64.toNat_inj.mp
      refine masked.trans ?_
      rw [number]
      exact (by omega : (k.userCodePageRw.toNat + 0x1000) % 2 ^ 12 = 0)
    rw [exec] at same
    exact ptIndex_alias aligned (same 0 (Nat.zero_le _)).symm

theorem ready_of_call (promises : Promises b hw answers image m)
    (call : efiMainToExecuteUd b hw answers image p m = .executesUd k f m') :
    Ready hw answers image p m k f m' := by
  have result := main_result promises p
  rw [call] at result
  generalize same : MainOutcome.executesUd k f m' = o at result
  cases result with
  | returned failed why back => cases same
  | halted supported failed tables => cases same
  | executesUd supported ready =>
    obtain ⟨rfl, rfl, rfl⟩ := MainOutcome.executesUd.inj same
    exact ready

theorem ready_run (promises : Promises b hw answers image m)
    (ready : Ready hw answers image p m k f m') {trips : List (Trip b)}
    (fit : ∀ e ∈ trips, Fits k e) :
    let machine := (system k).run ⟨bootSystem k f m'.cpu m'.msrs, []⟩ trips
    ∃ rs : List (Response b), Related k machine.outcome (bootFrom k.platform f rs).outcome ∧
      List.Forall₂ (Matched k) machine.log (bootFrom k.platform f rs).log ∧
      ∀ x ∈ machine.log, Fetched m'.paging k x.job.instruction x.job.machine := by
  intro machine
  obtain ⟨rs, outcomes, logs⟩ := run_simulated ready.setUp (boot_related ready.setUp f ready.call) fit
  refine ⟨rs, outcomes, logs, ?_⟩
  intro x member
  obtain ⟨y, -, matched⟩ := forall₂_exists logs member
  exact stay_fetched promises ready.page ready.kernel.page ready.setUp.executable matched.short
    matched.start

end

structure FetchFault (e : Trip b) (address : UInt64) : Prop where
  vector : e.vector = exceptionPageFault
  errorCode : e.errorCode &&& pfInstructionFetch ≠ 0
  user : e.frame.cs &&& 3 = 3
  cr2 : e.cr2 = address
  rip : e.frame.rip ≠ address

theorem boundary_fault_iff {p : Platform} {e : Trip b} {r : Response b} (answers : Answers e r) :
    r.boundaryFetchFault p = true ↔ FetchFault e (p.userCodePageForExec + 0x1000) := by
  have number := answers.number
  have code : e.vector = exceptionPageFault → r.context.errorCode = e.errorCode := by
    intro vector
    apply answers.errorCode
    rw [vector]
    decide
  simp only [Response.boundaryFetchFault, Response.userMode, Bool.and_eq_true, beq_iff_eq,
    bne_iff_ne, number, answers.frame, answers.cr2]
  constructor
  · rintro ⟨⟨user, vector, fetch⟩, cr2, rip⟩
    exact ⟨vector, code vector ▸ fetch, user, cr2, cr2 ▸ rip⟩
  · rintro ⟨vector, fetch, user, cr2, rip⟩
    refine ⟨⟨user, vector, ?_⟩, cr2, ?_⟩
    · rw [code vector]
      exact fetch
    · rw [cr2]
      exact rip

section

variable {k : Kernel b} {mode : CpuMode} {tssBase : UInt64} {exceptionHandlers : Fin 22 → UInt64}

/-- A trip from user mode fits the stack of the program, while the C functions leave it room. -/
theorem user_trip_fits (setUp : SetUp k mode tssBase exceptionHandlers) {e : Trip b}
    (user : rpl e.frame.cs ≠ 0) (shallow : e.depth ≤ 995) : Fits k e := by
  have stack : (deliveryStack k.processor e.frame - k.kernelStackPages).toNat = 0x2000 := by
    have bound := k.kernelStackPages.toNat_lt
    rw [user_stack setUp user]
    simp only [UInt64.toNat_sub, UInt64.toNat_add, UInt64.reduceToNat]
    omega
  constructor
  · rw [stack]
    decide
  · rw [stack]
    omega

/-- From related outcomes on, a machine that runs goes on when the program does. -/
theorem Related.running {o : SystemOutcome b} {instruction : List UInt8} {s : State b}
    (related : Related k o (.execute instruction s)) :
    ∃ m, o = .user m instruction s ∧ UserStart k instruction m ∧ instruction.length ≤ 15 ∧
      Consistent s := by
  generalize same : Outcome.execute instruction s = o' at related
  cases related with
  | @user m i t start short consistent =>
    obtain ⟨rfl, rfl⟩ := Outcome.execute.inj same
    exact ⟨m, rfl, start, short, consistent⟩
  | stopped stops =>
    rw [← same] at stops
    cases stops

def Trip.counters (e : Trip b) : Counters b := Vector.ofFn fun i => e.msrs (msrIa32Pmc i)

theorem Answers.counters_eq {e : Trip b} {r : Response b} (h : Answers e r) :
    r.counters = e.counters := by
  apply Vector.ext
  intro i within
  have same := h.counters ⟨i, within⟩
  simpa [Trip.counters] using same

/-- One trip of a machine beside the program: the stay in user mode is the one the program has
asked for, and the program goes on with an answer that the trip has left. -/
theorem Related.trip (setUp : SetUp k mode tssBase exceptionHandlers) {o : SystemOutcome b}
    {instruction : List UInt8} {s : State b} (related : Related k o (.execute instruction s))
    {e : Trip b} (fits : Fits k e) :
    ∃ m o' r, Answers e r ∧ Related k o' (handleException k.platform s r) ∧
      ∀ log, (system k).step ⟨o, log⟩ e = ⟨o', ⟨⟨m, instruction, s⟩, e⟩ :: log⟩ := by
  obtain ⟨m, rfl, start, short, consistent⟩ := related.running
  obtain ⟨j, r, running, matched, next⟩ := trip_related setUp (j := ⟨m, instruction, s⟩)
    (.user start short consistent) rfl fits
  obtain rfl := Option.some.inj running
  exact ⟨m, _, r, matched.answers, next, fun log => Reactive.step_running rfl e⟩

/-- The first `ud2` has counts other than zero, the second has the same ones, and the search
begins. -/
theorem baseline_stays (setUp : SetUp k mode tssBase exceptionHandlers)
    (disabled : b.countNops = false) (f : SaveFile) {c : Cpu} {msrs : Msrs} {base : UInt64} {size : Nat}
    (call : BootCall k c msrs base size) {e : Trip b} (fits : Fits k e)
    (vector : e.vector = exceptionInvalidOpcode) (counted : e.counters ≠ Counters.zero b)
    (success : (saveUint64Array k.platform e.counters.toList f).1 = efiSuccess) :
    let s := { State.initialWith b f with udPerfCountersValues := e.counters }
    ∃ m m' o, (system k).run ⟨bootSystem k f c msrs, []⟩ [e, e] =
        ⟨o, [⟨⟨m', [0x0f, 0x0b], s⟩, e⟩, ⟨⟨m, [0x0f, 0x0b], State.initialWith b f⟩, e⟩]⟩ ∧
      Related k o (executeCurrentInstruction (afterUdHeader k.platform s)) := by
  intro s
  obtain ⟨m, o, r, answers, related, first⟩ := (boot_related setUp f call).trip setUp fits
  have different : r.counters ≠ (State.initialWith b f).udPerfCountersValues := by
    rw [answers.counters_eq]
    exact counted
  rw [ud_measured_again rfl (answers.number.trans vector) different, answers.counters_eq] at related
  obtain ⟨m', o', r', answers', related', second⟩ := related.trip setUp fits
  rw [ud_reproduced k.platform rfl ⟨answers'.number.trans vector, answers'.counters_eq⟩ success
    disabled] at related'
  refine ⟨m, m', o', ?_, related'⟩
  rw [Reactive.run, List.foldl_cons, List.foldl_cons, List.foldl_nil, first, second]

end

namespace skylake

def ud : Trip (Build.makefile .mode64) where
  vector := exceptionInvalidOpcode
  errorCode := 0
  frame := ⟨0x201ffe, 0x1b, 0x102, 0, 0x23⟩
  register := fun _ => 0
  xstate := fun _ => some [1]
  msrs := fun msr => if msr = msrIa32Pmc 0 then 7 else 0
  cr2 := 0
  disasmLength := 0
  stackBytes := fun _ => 0
  depth := 10

/-- The byte 00 goes on behind the page. -/
def fetchFault : Trip (Build.makefile .mode64) :=
  { ud with
    vector := exceptionPageFault
    errorCode := 0x14
    frame := ⟨0x201fff, 0x1b, 0x102, 0, 0x23⟩
    cr2 := 0x202000 }

/-- The bytes 00 00 are an instruction of two bytes, which the disassembler knows too. -/
def generalProtection : Trip (Build.makefile .mode64) :=
  { ud with
    vector := 13
    disasmLength := 2 }

def trips : List (Trip (Build.makefile .mode64)) := [ud, ud, fetchFault, generalProtection]

theorem ready : ∃ k f m', efiMainToExecuteUd (Build.makefile .mode64) skylake answers image platform
      start = .executesUd k f m' ∧ Ready skylake answers image platform start k f m' ∧
    ∀ e ∈ trips, Fits k e := by
  obtain ⟨k, f, m', call, ready⟩ := executes_ud_ready (p := platform) promises not_early not_late
  refine ⟨k, f, m', call, ready, ?_⟩
  intro e member
  have user : ∀ e ∈ trips, rpl e.frame.cs ≠ 0 ∧ e.depth ≤ 995 := by
    simp only [trips, List.forall_mem_cons]
    decide
  exact user_trip_fits ready.setUp (user e member).1 (user e member).2

def measured (f : SaveFile) : State (Build.makefile .mode64) :=
  { State.initialWith _ f with udPerfCountersValues := ud.counters }

/-- The search begins behind the two measurements of `ud2`. -/
def searching (k : Kernel (Build.makefile .mode64)) (f : SaveFile) : State (Build.makefile .mode64) :=
  afterUdHeader k.platform (measured f)

def grown (k : Kernel (Build.makefile .mode64)) (f : SaveFile) : State (Build.makefile .mode64) :=
  { searching k f with curInstructionLength := 2 }

section

variable {k : Kernel (Build.makefile .mode64)} {f : SaveFile} {m' : MainState}

theorem file (ready : Ready skylake answers image platform start k f m') :
    f = (openSaveFile (Build.makefile .mode64) k.platform workingFirmware).saveFile := by
  have run := ready.searches []
  rcases (efiMain_cases k.platform answers.saveFile answers.tablePages _ []).2 with
    stopped | ⟨-, opened⟩
  · rw [stopped] at run
    cases run
  · have same := Option.some.inj (run.symm.trans opened)
    have state := (Outcome.execute.inj (congrArg Reactive.Trace.outcome same)).2
    exact congrArg State.saveFile state

theorem header_saved (ready : Ready skylake answers image platform start k f m') :
    (saveUint64Array k.platform ud.counters.toList f).1 = efiSuccess := by
  rw [file ready, ready.kernel.platform]
  decide +kernel

theorem searching_begins (k : Kernel (Build.makefile .mode64)) (f : SaveFile) :
    Searching (searching k f) :=
  Baseline.start_searching
    ⟨ud.counters, Counters.zero _, (saveUint64Array k.platform ud.counters.toList f).2⟩

theorem fetch_fault (ready : Ready skylake answers image platform start k f m') :
    FetchFault fetchFault (k.platform.userCodePageForExec + 0x1000) := by
  rw [ready.kernel.platform]
  constructor <;> decide

theorem log (ready : Ready skylake answers image platform start k f m')
    (fit : ∀ e ∈ trips, Fits k e) :
    ∃ m₁ m₂ m₃ m₄, ((system k).run ⟨bootSystem k f m'.cpu m'.msrs, []⟩ trips).log =
      [⟨⟨m₄, [0, 0], grown k f⟩, generalProtection⟩,
        ⟨⟨m₃, [0], searching k f⟩, fetchFault⟩,
        ⟨⟨m₂, [0x0f, 0x0b], measured f⟩, ud⟩,
        ⟨⟨m₁, [0x0f, 0x0b], State.initialWith _ f⟩, ud⟩] := by
  simp only [trips, List.forall_mem_cons] at fit
  obtain ⟨fits, -, faultFits, lastFits, -⟩ := fit
  obtain ⟨m₁, m₂, o, baseline, related⟩ := baseline_stays ready.setUp rfl f ready.call fits rfl
    (by decide) (header_saved ready)
  obtain ⟨m₃, o', r, answers, related', third⟩ := related.trip ready.setUp faultFits
  have grows : grows k.platform (searching k f) r = true := by
    have fault := (boundary_fault_iff answers).mpr (fetch_fault ready)
    rw [PmcBruteforce.grows, fault]
    rfl
  have again : handleException k.platform (searching k f) r =
      executeCurrentInstruction (grown k f) := by
    rw [handleException, (searching_begins k f).dispatch_eq, check_last_instruction_eq,
      if_pos grows]
    rfl
  change Related k o' (handleException k.platform (searching k f) r) at related'
  rw [again] at related'
  obtain ⟨m₄, o'', -, -, -, fourth⟩ := related'.trip ready.setUp lastFits
  refine ⟨m₁, m₂, m₃, m₄, ?_⟩
  have split : trips = [ud, ud] ++ [fetchFault, generalProtection] := rfl
  rw [split, Reactive.run_append, baseline]
  simp only [Reactive.run, List.foldl_cons, List.foldl_nil, third, fourth]
  rfl

end

end skylake

end PmcBruteforce
