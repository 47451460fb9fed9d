import PmcBruteforce.Library.Reactive
import PmcBruteforce.Search.Step

/-! Runs of the program against any sequence of responses: from the first `ud2`, and from
the state in which the baseline phase ends. -/
namespace PmcBruteforce

variable {b : Build}

structure Job (b : Build) where
  instruction : List UInt8
  state : State b

/-- The handler as a program that hands out instructions. -/
def program (p : Platform) : Library.Reactive (Job b) (Response b) (Outcome b) where
  handle j r := handleException p j.state r
  job
    | .execute instruction s => some ⟨instruction, s⟩
    | _ => none

abbrev Run (b : Build) := Library.Reactive.Trace (Job b) (Response b) (Outcome b)
abbrev Entry (b : Build) := Library.Reactive.Event (Job b) (Response b)

/-- The globals before the first instruction, with the file `open_save_file` leaves. -/
def State.initial (b : Build) : State b where
  instructionBytes := Buffer.zero
  curInstructionLength := 1
  curByteIndex := 0
  lastInstructionLength := 0
  stats := Stats.zero
  malformedInstructionExpectUd := false
  measuringUd := true
  udPerfCountersValues := Counters.zero b
  measuringNop := false
  nopPerfCountersValues := Counters.zero b
  lastPerfCountersValues := Counters.zero b
  flushRequired := false
  saveFile := { SaveFile.opened with isOpen := !b.noSave }

/-- The run of `efi_main` from its call of `execute_ud`. -/
def boot (p : Platform) (rs : List (Response b)) : Run b :=
  (program p).run ⟨executeUd (State.initial b), []⟩ rs

/-- What the baseline phase leaves: the two measurements and the file. -/
structure Baseline (b : Build) where
  udPerfCountersValues : Counters b
  nopPerfCountersValues : Counters b
  saveFile : SaveFile

def Baseline.start (a : Baseline b) : State b :=
  { State.initial b with
    measuringUd := false
    udPerfCountersValues := a.udPerfCountersValues
    nopPerfCountersValues := a.nopPerfCountersValues
    saveFile := a.saveFile }

def search (p : Platform) (a : Baseline b) (rs : List (Response b)) : Run b :=
  (program p).run ⟨executeCurrentInstruction a.start, []⟩ rs

def handed (p : Platform) (t : Run b) : List (List UInt8) :=
  ((program p).jobs t).map Job.instruction

/-- `check_last_instruction` counted the instruction of this entry. -/
def counted (p : Platform) (e : Entry b) : Bool :=
  !e.job.state.measuringUd && !e.job.state.measuringNop && !grows p e.job.state e.response &&
    !restarts e.job.state e.response && (saved p e.job.state e.response).isOk

theorem not_counted_of_grown {p : Platform} {s : State b} {r : Response b} (i : List UInt8)
    (fault : r.boundaryFetchFault p = true) (short : s.curInstructionLength < 15) :
    ¬ counted p ⟨⟨i, s⟩, r⟩ = true := by
  simp [counted, grows, fault, short]

theorem not_counted_of_restarted {p : Platform} {s : State b} {r : Response b} (i : List UInt8)
    (unstable : restarts s r = true) : ¬ counted p ⟨⟨i, s⟩, r⟩ = true := by
  simp [counted, unstable]

/-- The counted entries. `unique_instructions_executed` is their number, in a search by
`search_unique_count` and in a whole run by `boot_unique_count`. -/
def countedIn (p : Platform) (t : Run b) : List (Entry b) := t.log.filter (counted p)

theorem countedIn_length_cons (p : Platform) (e : Entry b) (log : List (Entry b))
    (o o' : Outcome b) :
    UInt64.ofNat (countedIn p ⟨o', e :: log⟩).length =
      UInt64.ofNat (countedIn p ⟨o, log⟩).length + if counted p e = true then 1 else 0 := by
  simp only [countedIn, List.filter_cons]
  split
  · simp
  · simp

def Outcome.globals : Outcome b → Option (State b)
  | .execute _ s => some s
  | .halt _ s => some s
  | _ => none

def Outcome.isDone : Outcome b → Bool
  | .halt .done _ => true
  | _ => false

theorem Baseline.start_searching (a : Baseline b) : Searching a.start where
  measuringUd := rfl
  measuringNop := rfl
  index := Nat.zero_lt_one
  length := show 1 ≤ 15 by decide
  behind k _ := Buffer.get_zero k
  accepted := by
    have first : ∀ mode, rejectedByFilter mode [0] = false := by
      intro mode
      cases mode <;> decide +kernel
    exact first b.cpuMode
  malformed := rfl

/-- The invariant rule of a search: the handler is always found in a searching state,
with the current instruction in user mode. -/
theorem search_invariant {p : Platform} {a : Baseline b} (P : Run b → Prop)
    (start : P ⟨executeCurrentInstruction a.start, []⟩)
    (keeps : ∀ s log r, Searching s → P ⟨executeCurrentInstruction s, log⟩ →
      P ⟨handleException p s r, ⟨⟨s.currentInstruction, s⟩, r⟩ :: log⟩)
    (rs : List (Response b)) : P (search p a rs) := by
  let sound : Run b → Prop := fun t => P t ∧
    ∀ i s, t.outcome = .execute i s → Searching s ∧ i = s.currentInstruction
  have all : sound (search p a rs) := by
    apply Library.Reactive.run_invariant sound
    · refine ⟨start, ?_⟩
      intro i s same
      obtain ⟨rfl, rfl⟩ := Outcome.execute.inj same
      exact ⟨a.start_searching, rfl⟩
    · rintro ⟨o, log⟩ j r running ⟨holds, current⟩
      cases o with
      | execute i s =>
        obtain rfl := Option.some.inj running
        obtain ⟨searching, rfl⟩ := current i s rfl
        exact ⟨keeps s log r searching holds, fun i s same => searching.execute same⟩
      | halt | outOfBounds | diverge => cases running
  exact all.1

theorem search_searching {p : Platform} {a : Baseline b} {rs : List (Response b)}
    {i : List UInt8} {s : State b} (h : (search p a rs).outcome = .execute i s) :
    Searching s ∧ i = s.currentInstruction := by
  have all := search_invariant (p := p) (a := a)
    (fun t => ∀ i s, t.outcome = .execute i s → Searching s ∧ i = s.currentInstruction) ?_ ?_ rs
  · exact all i s h
  · intro i s same
    obtain ⟨rfl, rfl⟩ := Outcome.execute.inj same
    exact ⟨a.start_searching, rfl⟩
  · intro s log r searching _ i s' same
    exact searching.execute same

theorem search_log_searching {p : Platform} {a : Baseline b} {rs : List (Response b)}
    {e : Entry b} (h : e ∈ (search p a rs).log) :
    Searching e.job.state ∧ e.job.instruction = e.job.state.currentInstruction := by
  have all := search_invariant (p := p) (a := a)
    (fun t => ∀ e ∈ t.log, Searching e.job.state ∧
      e.job.instruction = e.job.state.currentInstruction) ?_ ?_ rs
  · exact all e h
  · simp
  · intro s log r searching earlier e member
    rcases List.mem_cons.mp member with rfl | member
    · exact ⟨searching, rfl⟩
    · exact earlier e member

def generalProtection : Response (Build.makefile .mode64) where
  context := ⟨13, #v[0, 0x201fff, 0x1b, 0x102, 0, 0x23]⟩
  counters := threeCounters 7 5 6
  cr2 := 0
  disasmLength := 1
  mcgCap := 0
  mcStatus := fun _ => 0

def measuredBaseline : Baseline (Build.makefile .mode64) where
  udPerfCountersValues := #v[7, 0, 0]
  nopPerfCountersValues := #v[0, 0, 0]
  saveFile := SaveFile.opened

def instructionFetchFault : Response (Build.makefile .mode64) where
  context := ⟨exceptionPageFault, #v[0x14, 0x201fff, 0x1b, 0x102, 0, 0x23]⟩
  counters := threeCounters 7 5 6
  cr2 := 0x202000
  disasmLength := 0
  mcgCap := 0
  mcStatus := fun _ => 0

end PmcBruteforce
