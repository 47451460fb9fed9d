import PmcBruteforce.Machine.System
import PmcBruteforce.Search.Completion

/-! Runs of the machine. Beside every run of it there is a run of the program of the search,
with the contexts the stubs have built, and every stay in user mode starts as
`execute_instruction` promises. Between two stays the machine-check banks are cleared, and
most of the XSAVE state is not. -/
namespace PmcBruteforce

open Library

variable {b : Build}

/-- The outcomes that belong together. The machine never faults on its own. -/
inductive Related (k : Kernel b) : SystemOutcome b → Outcome b → Prop where
  | user {m : Machine} {instruction : List UInt8} {s : State b} (start : UserStart k instruction m)
      (short : instruction.length ≤ 15) (consistent : Consistent s) :
      Related k (.user m instruction s) (.execute instruction s)
  | stopped {o : Outcome b} (stops : (program k.platform).job o = none) : Related k (.stopped o) o

structure Matched (k : Kernel b) (x : Reactive.Event (UserJob b) (Trip b)) (e : Entry b) :
    Prop where
  instruction : e.job.instruction = x.job.instruction
  state : e.job.state = x.job.state
  start : UserStart k x.job.instruction x.job.machine
  short : x.job.instruction.length ≤ 15
  consistent : Consistent x.job.state
  fits : Fits k x.response
  answers : Answers x.response e.response

theorem current_instruction_short (s : State b) : s.currentInstruction.length ≤ 15 := by
  have size := s.instructionBytes.size
  have taken := List.length_take_le' s.curInstructionLength s.instructionBytes.bytes
  rw [size] at taken
  exact taken

theorem Consistent.handed_short {s s' : State b} (h : Consistent s) {p : Platform} {r : Response b}
    {i : List UInt8} (run : handleException p s r = .execute i s') : i.length ≤ 15 := by
  rw [(h.handed_out run).2, State.handedOut]
  split
  · decide
  · split
    · decide
    · exact current_instruction_short s'

theorem forall₂_exists {α β : Type} {R : α → β → Prop} {xs : List α} {ys : List β}
    (all : List.Forall₂ R xs ys) {x : α} (member : x ∈ xs) : ∃ y ∈ ys, R x y := by
  induction all with
  | nil => cases member
  | cons here _ ih =>
    rcases List.mem_cons.mp member with rfl | member
    · exact ⟨_, List.mem_cons_self, here⟩
    · obtain ⟨y, inside, related⟩ := ih member
      exact ⟨y, List.mem_cons_of_mem _ inside, related⟩

section

variable {k : Kernel b} {mode : CpuMode} {tssBase : UInt64} {exceptionHandlers : Fin 22 → UInt64}

theorem after_handler_related (setUp : SetUp k mode tssBase exceptionHandlers) {j : UserJob b}
    (start : UserStart k j.instruction j.machine) (consistent : Consistent j.state) {e : Trip b}
    {r : Response b} {c : Cpu} {msrs : Msrs} (call : HandlerCall k j e r c msrs) :
    Related k (trip k j e) (handleException k.platform j.state r) := by
  have counting : Counting k.selectors msrs := by
    rw [call.msrs]
    exact counting_after_handler (configuration_kept start.counters.counting) j.state r
  rw [call.trip]
  cases run : handleException k.platform j.state r with
  | execute i s =>
    have short := consistent.handed_short run
    obtain ⟨m, entered, next, -, -⟩ := execute_instruction_starts setUp i (by omega)
      setUp.pageApart setUp.areaApart call.room call.inside counting call.area
    simp only [afterHandler, entered]
    exact .user next short (consistent.step run)
  | halt reason s => exact .stopped rfl
  | outOfBounds => exact .stopped rfl
  | diverge => exact .stopped rfl

theorem trip_related (setUp : SetUp k mode tssBase exceptionHandlers) {o : SystemOutcome b}
    {o' : Outcome b} {j : UserJob b} {e : Trip b} (related : Related k o o')
    (running : (system k).job o = some j) (fits : Fits k e) :
    ∃ j' r, (program k.platform).job o' = some j' ∧ Matched k ⟨j, e⟩ ⟨j', r⟩ ∧
      Related k ((system k).handle j e) ((program k.platform).handle j' r) := by
  cases related with
  | stopped stops => cases running
  | @user m instruction s start short consistent =>
    obtain rfl := Option.some.inj running
    obtain ⟨r, c, msrs, call⟩ := handler_called setUp (j := ⟨m, instruction, s⟩) start fits
    have next := after_handler_related setUp (j := ⟨m, instruction, s⟩) start consistent call
    exact ⟨⟨instruction, s⟩, r, rfl, ⟨rfl, rfl, start, short, consistent, fits, call.answers⟩, next⟩

/-- The call of `execute_ud` from efi_main, which still runs on the firmware's stack. -/
structure BootCall (k : Kernel b) (c : Cpu) (msrs : Msrs) (base : UInt64) (size : Nat) : Prop where
  pageApart : ByteMemory.Apart k.userCodePageRw 0x1000 base size
  areaApart : ByteMemory.Apart k.xsaveStateAreaPtr 536 base size
  room : 8 * 5 ≤ (c.rsp - base).toNat
  inside : (c.rsp - base).toNat ≤ size
  counting : Counting k.selectors msrs
  area : EmptyXsaveArea c.memory k.xsaveStateAreaPtr

def bootSystem (k : Kernel b) (f : SaveFile) (c : Cpu) (msrs : Msrs) : SystemOutcome b :=
  afterHandler k c msrs (executeUd (State.initialWith b f))

theorem boot_related (setUp : SetUp k mode tssBase exceptionHandlers) (f : SaveFile) {c : Cpu}
    {msrs : Msrs} {base : UInt64} {size : Nat} (call : BootCall k c msrs base size) :
    Related k (bootSystem k f c msrs) (executeUd (State.initialWith b f)) := by
  obtain ⟨m, entered, start, -, -⟩ := execute_instruction_starts setUp
    [0x0f, 0x0b] (by decide) call.pageApart call.areaApart call.room call.inside
    call.counting call.area
  simp only [bootSystem, executeUd, afterHandler, entered]
  exact .user start (by decide) (initialWith_consistent b f)

/-- From related outcomes on, whatever the processor does in user mode, the machine runs the
program of the search. -/
theorem run_simulated (setUp : SetUp k mode tssBase exceptionHandlers) {o : SystemOutcome b}
    {o' : Outcome b} (related : Related k o o') {trips : List (Trip b)}
    (fit : ∀ e ∈ trips, Fits k e) :
    ∃ rs : List (Response b),
      Related k ((system k).run ⟨o, []⟩ trips).outcome ((program k.platform).run ⟨o', []⟩ rs).outcome ∧
      List.Forall₂ (Matched k) ((system k).run ⟨o, []⟩ trips).log
        ((program k.platform).run ⟨o', []⟩ rs).log :=
  Reactive.simulated (Related k) (Matched k) (Fits k)
    (fun _ _ _ _ related running fits => trip_related setUp related running fits)
    related .nil fit

/-- The low components are never in the mask of `enter_user`: an aligned pointer has no bit
below 6, and the user's rsp, which gives the upper half, is NULL. -/
theorem low_components_unrestored {area : UInt64} (aligned : area &&& 0x3f = 0) (xcr0 : UInt64) :
    ∀ n < 6, componentBit (restoredInEnterUser xcr0 area 0) n = false := by
  intro n low
  have mask : restoredInEnterUser xcr0 area 0 = area &&& (0xffffffff &&& xcr0) := by
    have upper : ((0 : UInt64) &&& 0xffffffff) <<< 32 = 0 := by decide
    rw [restoredInEnterUser, upper, UInt64.zero_or, UInt64.and_assoc]
  have number : area.toNat % 64 = 0 := by
    have masked : area.toNat &&& 63 = area.toNat % 64 := Nat.and_two_pow_sub_one_eq_mod _ 6
    rw [← masked]
    exact congrArg UInt64.toNat aligned
  have unset : area.toNat.testBit n = false := by
    have quotient : area.toNat = 64 * (area.toNat / 64) := by omega
    rw [quotient, show 64 = 2 ^ 6 from rfl, Nat.testBit_two_pow_mul]
    simp [Nat.not_le.mpr low]
  have none : (restoredInEnterUser xcr0 area 0).toNat.testBit n = false := by
    rw [mask, UInt64.toNat_and, Nat.testBit_and, unset, Bool.false_and]
  rw [componentBit, bitField, Nat.pow_one, ← Nat.shiftRight_eq_div_pow]
  rw [Nat.testBit, Nat.and_comm] at none
  simpa [Nat.and_one_is_mod] using none

structure PassedOn (e : Trip b) (s : State b) (next : Machine) : Prop where
  components : ∀ n < 6, next.cpu.xstate n = e.xstate n
  banks : s.measuringUd = false → s.measuringNop = false → e.vector = exceptionMachineCheck →
    (∀ i < (e.msrs msrIa32McgCap &&& mcgCapReportingBanksCountMask).toNat,
      next.msrs (msrBank 0x401 i) = 0) ∧ next.msrs msrIa32McgStatus &&& mcgStatusMcip = 0

theorem trip_passes_on (setUp : SetUp k mode tssBase exceptionHandlers) {j j' : UserJob b}
    (start : UserStart k j.instruction j.machine) (consistent : Consistent j.state) {e : Trip b}
    (fits : Fits k e) (next : (system k).job (trip k j e) = some j') :
    PassedOn e j.state j'.machine := by
  obtain ⟨r, c, msrs, call⟩ := handler_called setUp start fits
  have counting : Counting k.selectors msrs := by
    rw [call.msrs]
    exact counting_after_handler (configuration_kept start.counters.counting) j.state r
  rw [call.trip] at next
  cases run : handleException k.platform j.state r with
  | execute i s =>
    have short := consistent.handed_short run
    obtain ⟨m, entered, user, written, xstate⟩ := execute_instruction_starts setUp i
      (by omega) setUp.pageApart setUp.areaApart call.room call.inside counting call.area
    rw [run, afterHandler, entered] at next
    obtain rfl := Option.some.inj next
    constructor
    · intro n low
      have kept := low_components_unrestored user.area.aligned c.xcr0 n low
      rw [xstate n, kept, call.xstate]
      rfl
    · intro ud nop vector
      have cap : msrsAfterUser b j.machine.msrs e.msrs msrIa32McgCap = e.msrs msrIa32McgCap :=
        msrs_after_user (n := 0x179) _ _ (by decide) (by decide) (by decide) (by decide)
      have cleared := clear_machine_check (msrsAfterUser b j.machine.msrs e.msrs)
      have few := machine_check_banks_le (msrsAfterUser b j.machine.msrs e.msrs)
      have after : msrs = clearMachineCheck (msrsAfterUser b j.machine.msrs e.msrs) := by
        rw [call.msrs, msrsAfterHandler]
        simp [ud, nop, call.answers.number, vector]
      rw [machineCheckBanks, cap] at cleared few
      simp only [written, after]
      constructor
      · intro i inside
        have kept := start_counters_kept (b := b)
          (clearMachineCheck (msrsAfterUser b j.machine.msrs e.msrs)) (n := 0x401 + i * 4)
          (by omega) (by omega) (by omega)
        exact kept.trans (cleared.1 i inside)
      · have kept := start_counters_kept (b := b)
          (clearMachineCheck (msrsAfterUser b j.machine.msrs e.msrs)) (n := 0x17a)
          (by decide) (by decide) (by decide)
        exact (congrArg (· &&& mcgStatusMcip) kept).trans cleared.2.1
  | halt reason s =>
    rw [run] at next
    cases next
  | outOfBounds =>
    rw [run] at next
    cases next
  | diverge =>
    rw [run] at next
    cases next

end

end PmcBruteforce
