import PmcBruteforce.Machine.Run
import PmcBruteforce.Search.Length

/-! The trick the program is built on, end to end: a processor that fetches the bytes of an
instruction through the page tables faults behind the code page, and `check_last_instruction`
finds the length of each instruction by that fault. -/
namespace PmcBruteforce

open Library

variable {b : Build}

def Paging.fetch (s : Paging) (m : ByteMemory) (address : UInt64) : Option UInt8 :=
  if s.hasRight address.toBitVec .user && s.hasRight address.toBitVec .execute then
    (s.translate address.toBitVec).map fun phys => m (UInt64.ofBitVec phys)
  else none

structure Code (s : Paging) (m : ByteMemory) (address : UInt64) (stream : Nat → UInt8) (n : Nat) :
    Prop where
  bytes : ∀ i < n, s.fetch m (address + UInt64.ofNat i) = some (stream i)
  ends : s.fetch m (address + UInt64.ofNat n) = none

/-- A processor that decodes `cpu`: an instruction that goes on behind the code faults there, and
one that ends with it does not. -/
structure Decodes (cpu : InstructionSet) (s : Paging)
    (x : Reactive.Event (UserJob b) (Trip b)) : Prop where
  longer : ∀ stream n, Code s x.job.machine.cpu.memory x.job.machine.cpu.rip stream n →
    n < cpu.length stream → FetchFault x.response (x.job.machine.cpu.rip + UInt64.ofNat n)
  whole : ∀ stream n, Code s x.job.machine.cpu.memory x.job.machine.cpu.rip stream n →
    n = cpu.length stream → ¬ FetchFault x.response (x.job.machine.cpu.rip + UInt64.ofNat n)

section

variable {cpu : InstructionSet} {s : Paging} {k : Kernel b} {f : SaveFile}

theorem code_of_fetched {instruction : List UInt8} {u : Machine}
    (start : UserStart k instruction u) (fetched : Fetched s k instruction u)
    (stream : Nat → UInt8) (extends_ : Extends stream instruction) :
    Code s u.cpu.memory u.cpu.rip stream instruction.length ∧
      u.cpu.rip + UInt64.ofNat instruction.length = k.platform.userCodePageForExec + 0x1000 := by
  have rip := start.entry.rip
  have behind : u.cpu.rip + UInt64.ofNat instruction.length =
      k.platform.userCodePageForExec + 0x1000 := by
    rw [rip, instructionStartOffset, UInt64.add_assoc, UInt64.sub_add_cancel]
  refine ⟨⟨?_, ?_⟩, behind⟩
  · intro i inside
    obtain ⟨⟨phys, address, byte⟩, user, execute⟩ := fetched.bytes i inside
    rw [rip, Paging.fetch, user, execute, Bool.and_self, if_pos rfl, address, Option.map_some, byte,
      extends_ i inside]
    exact congrArg some (by simp [byteAt, inside])
  · rw [behind, Paging.fetch, fetched.behind, Bool.false_and]
    exact if_neg Bool.false_ne_true

theorem fault_of_longer {x : Reactive.Event (UserJob b) (Trip b)} {e : Entry b}
    (matched : Matched k x e) (fetched : Fetched s k x.job.instruction x.job.machine)
    (decodes : Decodes cpu s x) {stream : Nat → UInt8}
    (extends_ : Extends stream e.job.instruction)
    (within : e.job.instruction.length ≤ cpu.length stream) :
    e.response.boundaryFetchFault k.platform = true ↔
      e.job.instruction.length < cpu.length stream := by
  rw [matched.instruction] at extends_ within ⊢
  obtain ⟨code, behind⟩ := code_of_fetched matched.start fetched stream extends_
  rw [boundary_fault_iff matched.answers, ← behind]
  constructor
  · intro fault
    by_contra reached
    exact decodes.whole stream _ code (Nat.le_antisymm within (Nat.not_lt.mp reached)) fault
  · exact decodes.longer stream _ code

/-- The responses of a run are those of a processor, as far as the bytes are its own. -/
def Faithful (p : Platform) (cpu : InstructionSet) (t : Run b) : Prop :=
  ∀ e ∈ t.log, ∀ stream, Extends stream e.job.instruction →
    e.job.instruction.length ≤ cpu.length stream →
      (e.response.boundaryFetchFault p = true ↔ e.job.instruction.length < cpu.length stream)

theorem SamePosition.within {t t' : State b} (same : SamePosition t t') (h : Within cpu t) :
    Within cpu t' := by
  have pointer := same.pointer
  simp only [State.pointerLoop, PointerLoop.mk.injEq] at pointer
  obtain ⟨bytes, -, length, -⟩ := pointer
  intro stream longer
  rw [State.currentInstruction, bytes, length] at longer
  rw [length]
  exact h stream longer

theorem Consistent.within_step {p : Platform} {t t' : State b} (h : Consistent t)
    (within : Within cpu t) {r : Response b} {i : List UInt8}
    (run : handleException p t r = .execute i t')
    (faithful : searchingState t → ∀ stream, Extends stream t.currentInstruction →
      t.curInstructionLength ≤ cpu.length stream →
        (r.boundaryFetchFault p = true ↔ t.curInstructionLength < cpu.length stream)) :
    Within cpu t' := by
  cases ud : t.measuringUd with
  | true => exact (h.measured_ud ud run).1.within within
  | false =>
    cases nop : t.measuringNop with
    | true => exact (h.measured_nop ud nop run).within within
    | false =>
      have searching := h.positioned.searching ⟨ud, nop⟩
      exact within.step searching run fun stream extends_ =>
        faithful ⟨ud, nop⟩ stream extends_ (within stream extends_)

structure BootWithin (cpu : InstructionSet) (t : Run b) : Prop where
  accounted : Accounted t.outcome
  current : ∀ i t', t.outcome = .execute i t' → Within cpu t'
  log : ∀ e ∈ t.log, Consistent e.job.state ∧ e.job.instruction = e.job.state.handedOut ∧
    Within cpu e.job.state

theorem boot_within (p : Platform) (cpu : InstructionSet) (f : SaveFile) (rs : List (Response b)) :
    Faithful p cpu (bootFrom p f rs) → BootWithin cpu (bootFrom p f rs) := by
  apply Reactive.run_invariant fun t : Run b => Faithful p cpu t → BootWithin cpu t
  · intro _
    refine ⟨.execute (initialWith_consistent b f), ?_, fun e member => by cases member⟩
    intro i t' same
    obtain ⟨rfl, rfl⟩ := Outcome.execute.inj same
    exact fun stream _ => cpu.positive stream
  · rintro ⟨o, log⟩ ⟨i, t⟩ r running earlier faithful
    have before := earlier fun e member => faithful e (List.mem_cons_of_mem _ member)
    obtain ⟨consistent, handed, -⟩ := before.accounted.job running
    change i = t.handedOut at handed
    have within : Within cpu t := by
      cases o with
      | execute i' t' =>
        obtain ⟨rfl, rfl⟩ := Job.mk.inj (Option.some.inj running)
        exact before.current _ _ rfl
      | halt | outOfBounds | diverge => cases running
    refine ⟨consistent.accounted r, ?_, ?_⟩
    · intro i' t' run
      apply consistent.within_step within run
      rintro ⟨ud, nop⟩ stream extends_ le
      have current : t.handedOut = t.currentInstruction := by
        rw [State.handedOut, if_neg (Bool.eq_false_iff.mp ud), if_neg (Bool.eq_false_iff.mp nop)]
      have here := faithful ⟨⟨i, t⟩, r⟩ List.mem_cons_self stream
      simp only [handed, current, State.currentInstruction,
        Buffer.string_length _ _ consistent.positioned.length] at here
      exact here extends_ le
    · intro e member
      rcases List.mem_cons.mp member with rfl | member
      · exact ⟨consistent, handed, within⟩
      · exact before.log e member

theorem counted_length {p : Platform} {f : SaveFile} {rs : List (Response b)}
    (faithful : Faithful p cpu (bootFrom p f rs)) {e : Entry b}
    (member : e ∈ countedIn p (bootFrom p f rs)) {stream : Nat → UInt8}
    (extends_ : Extends stream e.job.instruction) :
    e.job.instruction.length = cpu.length stream := by
  obtain ⟨logged, count⟩ := List.mem_filter.mp member
  obtain ⟨consistent, handed, within⟩ := (boot_within p cpu f rs faithful).log e logged
  have counts := count
  simp only [counted, Bool.and_eq_true, Bool.not_eq_true'] at counts
  obtain ⟨⟨⟨⟨ud, nop⟩, notGrown⟩, -⟩, -⟩ := counts
  have current : e.job.instruction = e.job.state.currentInstruction := by
    rw [handed]
    simp [State.handedOut, ud, nop]
  have size : e.job.instruction.length = e.job.state.curInstructionLength := by
    rw [current, State.currentInstruction, Buffer.string_length _ _ consistent.positioned.length]
  have le := within stream (current ▸ extends_)
  have limit := cpu.bounded stream
  by_contra different
  have fault := (faithful e logged stream extends_ (by omega)).mpr (by omega)
  rw [grows, fault, Bool.true_and, decide_eq_false_iff_not] at notGrown
  omega

end

theorem Code.length_unique {s : Paging} {m : ByteMemory} {address : UInt64}
    {stream stream' : Nat → UInt8} {n n' : Nat} (code : Code s m address stream n) (code' : Code s m address stream' n') : n = n' := by
  have le : ∀ {stream stream' : Nat → UInt8} {n n' : Nat}, Code s m address stream n →
      Code s m address stream' n' → n ≤ n' := by
    intro stream stream' n n' code code'
    by_contra longer
    have byte := code.bytes n' (Nat.not_le.mp longer)
    rw [code'.ends] at byte
    cases byte
  exact Nat.le_antisymm (le code code') (le code' code)

/-- The only code at the address of the stay is its instruction, which ends with the page. -/
theorem decodes_of_fetched (cpu : InstructionSet) {s : Paging} {k : Kernel b}
    {x : Reactive.Event (UserJob b) (Trip b)} (start : UserStart k x.job.instruction x.job.machine)
    (fetched : Fetched s k x.job.instruction x.job.machine)
    (longer : ∀ stream, x.job.instruction.length < cpu.length stream →
      FetchFault x.response (k.platform.userCodePageForExec + 0x1000))
    (whole : ∀ stream, x.job.instruction.length = cpu.length stream →
      ¬ FetchFault x.response (k.platform.userCodePageForExec + 0x1000)) : Decodes cpu s x := by
  obtain ⟨here, behind⟩ := code_of_fetched start fetched (byteAt x.job.instruction) fun _ _ => rfl
  constructor
  · intro stream n code short
    obtain rfl := code.length_unique here
    rw [behind]
    exact longer stream short
  · intro stream n code exact_
    obtain rfl := code.length_unique here
    rw [behind]
    exact whole stream exact_

/-- An instruction the disassembler knows with its length is counted and not saved, when it
raises an exception of user mode other than #PF, #UD and #MC. -/
theorem counted_ordinary (nops : b.countNops = false) (p : Platform) {e : Entry b}
    (searching : searchingState e.job.state)
    (malformed : e.job.state.malformedInstructionExpectUd = false)
    (user : e.response.userMode = true)
    (notPf : e.response.context.exceptionNumber ≠ exceptionPageFault)
    (notUd : e.response.context.exceptionNumber ≠ exceptionInvalidOpcode)
    (notMc : e.response.context.exceptionNumber ≠ exceptionMachineCheck)
    (known : e.response.instructionIsKnown = true)
    (length : UInt64.ofNat e.job.state.curInstructionLength = e.response.disasmLength) :
    counted p e = true := by
  have notGrown : grows p e.job.state e.response = false := by
    simp [grows, Response.boundaryFetchFault, notPf]
  have stable : restarts e.job.state e.response = false := by
    simp [restarts, notUd]
  have skip : (classified e.job.state e.response).instructionType = .notInteresting := by
    simp [classified, typeBeforeSwitch, defaultCase, notPf, notUd, notMc, known, length, malformed,
      user, nops]
  have done : saved p e.job.state e.response = .ok (afterSwitch e.job.state e.response) := by
    rw [saved, countAndSave, if_pos skip]
  simp only [counted, searching.1, searching.2, notGrown, stable, done]
  rfl

namespace skylake

theorem decodes {k : Kernel (Build.makefile .mode64)} {f : SaveFile} {m' : MainState}
    (ready : Ready skylake answers image platform start k f m') (fit : ∀ e ∈ trips, Fits k e) :
    ∀ x ∈ ((system k).run ⟨bootSystem k f m'.cpu m'.msrs, []⟩ trips).log,
      Decodes twoByteInstructions m'.paging x := by
  intro x member
  obtain ⟨rs, -, stays, fetched⟩ := ready_run promises ready fit
  obtain ⟨e, -, matched⟩ := forall₂_exists stays member
  obtain ⟨m₁, m₂, m₃, m₄, log⟩ := log ready fit
  have user := fetched x member
  have decoded := decodes_of_fetched twoByteInstructions matched.start user
  have ends : x.job.instruction.length = 2 → x.response.vector ≠ exceptionPageFault →
      Decodes twoByteInstructions m'.paging x := by
    intro two other
    apply decoded
    · intro _ short
      exact absurd two (Nat.ne_of_lt short)
    · intro _ _ fault
      exact other fault.vector
  have noFault : exceptionInvalidOpcode ≠ exceptionPageFault ∧
      generalProtection.vector ≠ exceptionPageFault := by decide
  rw [log] at member
  simp only [List.mem_cons, List.not_mem_nil, or_false] at member
  rcases member with rfl | rfl | rfl | rfl
  · exact ends rfl noFault.2
  · apply decoded
    · exact fun _ _ => fetch_fault ready
    · exact fun _ same => absurd same (Nat.ne_of_lt Nat.one_lt_two)
  · exact ends rfl noFault.1
  · exact ends rfl noFault.1

theorem general_protection_counted {k : Kernel (Build.makefile .mode64)} {f : SaveFile}
    {m : Machine} {e : Entry (Build.makefile .mode64)}
    (matched : Matched k ⟨⟨m, [0, 0], grown k f⟩, generalProtection⟩ e) :
    counted k.platform e = true := by
  have state : e.job.state = grown k f := matched.state
  have number : e.response.context.exceptionNumber = generalProtection.vector := matched.answers.number
  have frame : e.response.context.frame = generalProtection.frame := matched.answers.frame
  have disasm : e.response.disasmLength = 2 := matched.answers.disasmLength
  have user : (generalProtection.frame.cs &&& 3 == 3) = true := by decide
  have other : generalProtection.vector ≠ exceptionPageFault ∧
      generalProtection.vector ≠ exceptionInvalidOpcode ∧
      generalProtection.vector ≠ exceptionMachineCheck := by decide
  rw [← number] at other
  rw [← frame] at user
  obtain ⟨notPf, notUd, notMc⟩ := other
  apply counted_ordinary rfl k.platform _ _ user notPf notUd notMc
  · rw [Response.instructionIsKnown, disasm]
    rfl
  · rw [state, disasm]
    rfl
  · rw [state]
    exact ⟨rfl, rfl⟩
  · rw [state]
    rfl

end skylake

end PmcBruteforce
