import PmcBruteforce.Machine.Entry

/-! The way to user mode: the model-specific registers `init_perf_counters` and
`execute_instruction` write, the XSAVE area, and what `enter_user` leaves behind. -/
namespace PmcBruteforce

open Library

abbrev Msrs := UInt32 → UInt64

/-- The address of a machine-check bank register, given that of bank 0. -/
def msrBank (msr0 i : Nat) : UInt32 := UInt32.ofNat (msr0 + i * 4)

def wrmsr (msr : UInt32) (value : UInt64) (m : Msrs) : Msrs :=
  fun x => if x = msr then value else m x

def msrIa32Pmc (i : Nat) : UInt32 := UInt32.ofNat (0xc1 + i)
def msrIa32Perfevtsel (i : Nat) : UInt32 := UInt32.ofNat (0x186 + i)
def msrIa32FixedCtrCtrl : UInt32 := 0x38d
def msrIa32PerfGlobalCtrl : UInt32 := 0x38f
def msrIa32McgCap : UInt32 := 0x179
def msrIa32McgStatus : UInt32 := 0x17a

def perfevtselEnable : UInt64 := bit 22
def perfevtselUser : UInt64 := bit 16

def efiUnsupported : EfiStatus := 0x8000000000000003

variable {b : Build}

/-- `event_selector` of each counter of the build, in the order of `enum perf_counters_ids`. -/
abbrev EventSelectors (b : Build) := Fin b.perfEventsCount → UInt16

def perfevtselValue (selector : UInt16) : UInt64 :=
  perfevtselEnable ||| perfevtselUser ||| selector.toUInt64

/-- `perf_global_ctrl_enable_all |= 1ULL << i`, for the counters below `n`. -/
def perfGlobalCtrlEnableAll (n : Nat) : UInt64 :=
  (List.range n).foldl (fun all i => all ||| (1 : UInt64) <<< UInt64.ofNat i) 0

/-- A loop that writes one register for each `i`. -/
def wrmsrAll (msr : Nat → UInt32) (value : Nat → UInt64) (is : List Nat) (m : Msrs) : Msrs :=
  is.foldl (fun m i => wrmsr (msr i) (value i) m) m

def selectorValue (selectors : EventSelectors b) (i : Nat) : UInt64 :=
  if inside : i < b.perfEventsCount then perfevtselValue (selectors ⟨i, inside⟩) else 0

/-- `init_perf_counters` for a known microarchitecture. `eax` is what CPUID leaf 0xa returns. -/
def initPerfCounters (selectors : EventSelectors b) (eax : UInt32) (m : Msrs) :
    EfiStatus × Msrs :=
  let countersAvailable := bitField eax.toNat 8 8
  if b.perfEventsCount > countersAvailable then (efiUnsupported, m)
  else (efiSuccess, wrmsrAll msrIa32Perfevtsel (selectorValue selectors)
    (List.range b.perfEventsCount) (wrmsr msrIa32PerfGlobalCtrl 0 (wrmsr msrIa32FixedCtrCtrl 0 m)))

/-- The writes of `execute_instruction`: the counters are stopped, cleared and started. -/
def startCounters (b : Build) (m : Msrs) : Msrs :=
  wrmsr msrIa32PerfGlobalCtrl (perfGlobalCtrlEnableAll b.perfEventsCount)
    (wrmsrAll msrIa32Pmc (fun _ => 0) (List.range b.perfEventsCount)
      (wrmsr msrIa32PerfGlobalCtrl 0 m))

structure Counting (selectors : EventSelectors b) (m : Msrs) : Prop where
  fixed : m msrIa32FixedCtrCtrl = 0
  selected : ∀ i : Fin b.perfEventsCount,
    m (msrIa32Perfevtsel i) = perfevtselValue (selectors i)

structure Started (selectors : EventSelectors b) (m : Msrs) : Prop where
  counting : Counting selectors m
  zero : ∀ i : Fin b.perfEventsCount, m (msrIa32Pmc i) = 0
  enabled : ∀ i < 64,
    componentBit (m msrIa32PerfGlobalCtrl) i = decide (i < b.perfEventsCount)

theorem Build.perf_events_count_le (b : Build) : b.perfEventsCount ≤ 7 := by
  unfold perfEventsCount
  split <;> split <;> split <;> omega

theorem enable_all_bit (b : Build) : ∀ i < 64,
    componentBit (perfGlobalCtrlEnableAll b.perfEventsCount) i = decide (i < b.perfEventsCount) := by
  have few := b.perf_events_count_le
  have all : ∀ n : Fin 8, ∀ i : Fin 64,
      componentBit (perfGlobalCtrlEnableAll n) i = decide (i.val < n.val) := by decide +kernel
  intro i small
  exact all ⟨b.perfEventsCount, by omega⟩ ⟨i, small⟩

/-- A loop of writes to different registers. -/
theorem wrmsrAll_apply (value : Nat → UInt64) {msr : Nat → UInt32} {is : List Nat}
    (different : ∀ i ∈ is, ∀ k ∈ is, msr i = msr k → i = k) (m : Msrs) :
    (∀ i ∈ is, wrmsrAll msr value is m (msr i) = value i) ∧
      ∀ x, (∀ i ∈ is, x ≠ msr i) → wrmsrAll msr value is m x = m x := by
  induction is using List.reverseRecOn with
  | nil => exact ⟨fun i member => by simp at member, fun _ _ => rfl⟩
  | append_singleton is k ih =>
    have earlier := ih fun i hi j hj => different i (List.mem_append_left _ hi) j
      (List.mem_append_left _ hj)
    have last : wrmsrAll msr value (is ++ [k]) m = wrmsr (msr k) (value k) (wrmsrAll msr value is m) :=
      by simp [wrmsrAll]
    rw [last]
    constructor
    · intro i member
      by_cases same : msr i = msr k
      · have here : i = k := different i member k (by simp) same
        rw [here, wrmsr, if_pos rfl]
      · have before : i ∈ is := by
          rcases List.mem_append.mp member with member | member
          · exact member
          · exact absurd (congrArg msr (List.mem_singleton.mp member)) same
        rw [wrmsr, if_neg same]
        exact earlier.1 i before
    · intro x other
      rw [wrmsr, if_neg (other k (by simp))]
      exact earlier.2 x fun i member => other i (List.mem_append_left _ member)

theorem msr_ne {m n : Nat} (hm : m < 2 ^ 32) (hn : n < 2 ^ 32) (different : m ≠ n) :
    UInt32.ofNat m ≠ UInt32.ofNat n := by
  intro same
  have numbers := congrArg UInt32.toNat same
  rw [UInt32.toNat_ofNat', UInt32.toNat_ofNat'] at numbers
  omega

theorem pmcs_different (b : Build) : ∀ i ∈ List.range b.perfEventsCount,
    ∀ k ∈ List.range b.perfEventsCount, msrIa32Pmc i = msrIa32Pmc k → i = k := by
  have few := b.perf_events_count_le
  intro i hi k hk same
  rw [List.mem_range] at hi hk
  by_contra different
  exact msr_ne (by omega) (by omega) (by omega : 0xc1 + i ≠ 0xc1 + k) same

theorem perfevtsels_different (b : Build) : ∀ i ∈ List.range b.perfEventsCount,
    ∀ k ∈ List.range b.perfEventsCount, msrIa32Perfevtsel i = msrIa32Perfevtsel k → i = k := by
  have few := b.perf_events_count_le
  intro i hi k hk same
  rw [List.mem_range] at hi hk
  by_contra different
  exact msr_ne (by omega) (by omega) (by omega : 0x186 + i ≠ 0x186 + k) same

/-- The counting is set up when `init_perf_counters` succeeds. -/
theorem init_perf_counters_counting {selectors : EventSelectors b} {eax : UInt32} {m : Msrs}
    (success : (initPerfCounters selectors eax m).1 = efiSuccess) :
    Counting selectors (initPerfCounters selectors eax m).2 := by
  have few := b.perf_events_count_le
  unfold initPerfCounters at success ⊢
  by_cases enough : b.perfEventsCount > bitField eax.toNat 8 8
  · have failed : efiUnsupported = efiSuccess := by simpa only [if_pos enough] using success
    exact absurd failed (by decide)
  · simp only [if_neg enough]
    obtain ⟨written, others⟩ := wrmsrAll_apply (selectorValue selectors)
      (perfevtsels_different b) (wrmsr msrIa32PerfGlobalCtrl 0 (wrmsr msrIa32FixedCtrCtrl 0 m))
    constructor
    · rw [others msrIa32FixedCtrCtrl]
      · rfl
      · intro i inside
        rw [List.mem_range] at inside
        exact msr_ne (m := 0x38d) (by omega) (by omega) (by omega)
    · intro i
      rw [written i (List.mem_range.mpr i.isLt), selectorValue, dif_pos i.isLt]

theorem start_counters_kept (m : Msrs) {n : Nat} (small : n < 2 ^ 32) (outside : n < 0xc1 ∨ 0xc8 ≤ n)
    (other : n ≠ 0x38f) : startCounters b m (UInt32.ofNat n) = m (UInt32.ofNat n) := by
  have few := b.perf_events_count_le
  have others := (wrmsrAll_apply (fun _ => 0) (pmcs_different b)
    (wrmsr msrIa32PerfGlobalCtrl 0 m)).2
  have global : UInt32.ofNat n ≠ msrIa32PerfGlobalCtrl := msr_ne (n := 0x38f) small (by omega) other
  rw [startCounters, wrmsr, if_neg global, others, wrmsr, if_neg global]
  intro i inside
  rw [List.mem_range] at inside
  exact msr_ne small (by omega) (by omega)

/-- Whatever the counters held, they start at zero, the selected ones and no other. -/
theorem start_counters_started {selectors : EventSelectors b} {m : Msrs}
    (counting : Counting selectors m) : Started selectors (startCounters b m) := by
  have few := b.perf_events_count_le
  have written := (wrmsrAll_apply (fun _ => 0) (pmcs_different b)
    (wrmsr msrIa32PerfGlobalCtrl 0 m)).1
  refine ⟨⟨?_, ?_⟩, ?_, ?_⟩
  · rw [← counting.fixed]
    exact start_counters_kept m (n := 0x38d) (by decide) (by decide) (by decide)
  · intro i
    have inside := i.isLt
    rw [← counting.selected i]
    exact start_counters_kept m (n := 0x186 + i) (by omega) (by omega) (by omega)
  · intro i
    have inside := i.isLt
    have other : msrIa32Pmc i ≠ msrIa32PerfGlobalCtrl :=
      msr_ne (n := 0x38f) (by omega) (by omega) (by omega)
    rw [startCounters, wrmsr, if_neg other, written i (List.mem_range.mpr inside)]
  · rw [startCounters, wrmsr, if_pos rfl]
    exact enable_all_bit b

/-! `enter_user` -/

/-- The XSAVE area as `main.c` leaves it: aligned, with nothing marked as saved. -/
structure EmptyXsaveArea (m : ByteMemory) (area : UInt64) : Prop where
  aligned : area &&& 0x3f = 0
  bitmap : m.load64 (area + 512) = 0
  compaction : m.load64 (area + 520) = 0
  reserved : m.load64 (area + 528) = 0

structure UserEntry (rip rsp : UInt64) (c : Cpu) : Prop where
  rip : c.rip = rip
  rsp : c.rsp = rsp
  cs : c.cs = 0x1b
  ss : c.ss = 0x23
  rflags : c.rflags = flagTf ||| flagsAlwaysSet
  registers : ∀ r, r ≠ .rsp → c.register r = 0

def userFrame (rip rsp : UInt64) : List UInt64 :=
  [0x23, rsp, ((1 : UInt64) <<< 8) ||| 2, 0x1b, rip]

def cleared : List Register :=
  [.rax, .rcx, .rdx, .rbx, .rbp, .rsi, .rdi, .r8, .r9, .r10, .r11, .r12, .r13, .r14, .r15]

theorem run_clears (p : Processor) (rs : List Register) (c : Cpu) :
    runBlock p (rs.map .clear) c =
      some { c with register := fun x => if x ∈ rs then 0 else c.register x } := by
  induction rs generalizing c with
  | nil => simp [runBlock]
  | cons r rs ih =>
    rw [List.map_cons, runBlock, exec, Option.bind_some, ih]
    congr 2
    funext x
    by_cases same : x = r
    · simp [same]
    · simp [same]

theorem frameAt_words {m : ByteMemory} {a w0 w1 w2 w3 w4 : UInt64}
    (words : m.words a 5 = [w0, w1, w2, w3, w4]) : frameAt m a = ⟨w0, w1, w2, w3, w4⟩ := by
  have next : ∀ x y : UInt64, a + x + y = a + (x + y) := UInt64.add_assoc a
  simp only [ByteMemory.words, List.cons.injEq, and_true, next] at words
  obtain ⟨rfl, rfl, rfl, rfl, rfl⟩ := words
  rfl

/-- The components that `xrstor` is asked for in `enter_user`: the mask is the user's rsp and
the pointer itself. -/
def restoredInEnterUser (xcr0 area rsp : UInt64) : UInt64 :=
  (((rsp &&& 0xffffffff) <<< 32) ||| (area &&& 0xffffffff)) &&& xcr0

theorem xrstor_empty (p : Processor) {c : Cpu} {area : UInt64} (empty : EmptyXsaveArea c.memory area) :
    xrstorArea p c area = some { c with
      xstate := fun i => if componentBit c.requestedComponents i then none else c.xstate i } := by
  have none : ∀ i, restoredComponent p c.memory area 0 i = none := by
    intro i
    have unset : componentBit 0 i = false := by simp [componentBit, bitField]
    rw [restoredComponent, unset]
    rfl
  simp only [xrstorArea, empty.aligned, empty.bitmap, empty.compaction, empty.reserved,
    UInt64.zero_and, and_self, if_true, none]

/-- What `enter_user` does: the user starts at `rip` with a cleared register file and single
steps, and of the XSAVE components those in the mask are reset. -/
theorem enter_user_runs (p : Processor) {c : Cpu} (area rip rsp : UInt64)
    (arguments : c.register .rcx = rip ∧ c.register .rdx = rsp)
    (empty : EmptyXsaveArea (c.memory.pushAll c.rsp (userFrame rip rsp)) area)
    (segments : p.tables.returnsTo 0 0x1b = true ∧ p.tables.loadsStack 3 0x23 = true)
    (target : reachable p 0x1b rip = true) :
    ∃ c', runBlock p (enterUser area) c = some c' ∧ UserEntry rip rsp c' ∧
      c'.memory = c.memory.pushAll c.rsp (userFrame rip rsp) ∧ c'.xcr0 = c.xcr0 ∧
      ∀ i, c'.xstate i =
        if componentBit (restoredInEnterUser c.xcr0 area rsp) i then none else c.xstate i := by
  let ops : List Operand := [.immediate 0x23, .register .rdx, .immediate (((1 : UInt64) <<< 8) ||| 2),
    .immediate 0x1b, .register .rcx]
  have values : ops.map c.value = userFrame rip rsp := by
    simp [ops, Cpu.value, userFrame, arguments]
  have text : enterUser area = ops.map .push ++ (.mov .rax (.immediate area) :: .xrstor .rax ::
      (cleared.map .clear ++ [.iretq])) := rfl
  have pushes := run_pushes p (show .register .rsp ∉ ops by simp [ops]) c
  rw [values] at pushes
  let pushed : Cpu := { c.set .rsp (ByteMemory.slot c.rsp ops.length) with
    memory := c.memory.pushAll c.rsp (userFrame rip rsp) }
  let loaded := pushed.set .rax area
  let restored : Cpu := { loaded with
    xstate := fun i => if componentBit loaded.requestedComponents i then none else loaded.xstate i }
  have xrstor : exec p (.xrstor .rax) loaded = some restored :=
    xrstor_empty p (c := loaded) empty
  have mask : loaded.requestedComponents = restoredInEnterUser c.xcr0 area rsp := by
    have low : loaded.register .rax = area := rfl
    have high : loaded.register .rdx = rsp := arguments.2
    rw [Cpu.requestedComponents, low, high]
    rfl
  have frame : frameAt (c.memory.pushAll c.rsp (userFrame rip rsp)) (ByteMemory.slot c.rsp 5) =
      ⟨rip, 0x1b, ((1 : UInt64) <<< 8) ||| 2, rsp, 0x23⟩ :=
    frameAt_words (ByteMemory.words_pushAll c.memory c.rsp (userFrame rip rsp) (by simp [userFrame]))
  let zeroed : Cpu := { restored with
    register := fun x => if x ∈ cleared then 0 else restored.register x }
  have iretq : exec p .iretq zeroed = iretqFrame p zeroed
      ⟨rip, 0x1b, ((1 : UInt64) <<< 8) ||| 2, rsp, 0x23⟩ := congrArg (iretqFrame p zeroed) frame
  have level : rpl 0x1b = 3 := by decide
  have flags : ((1 : UInt64) <<< 8 ||| 2) &&& definedFlags ||| flagsAlwaysSet =
      flagTf ||| flagsAlwaysSet := by decide
  have run : runBlock p (enterUser area) c = exec p .iretq zeroed := by
    rw [text, run_append, pushes, Option.bind_some, runBlock, exec, Option.bind_some, runBlock]
    have restore : (exec p (.xrstor .rax) loaded).bind
        (runBlock p (cleared.map .clear ++ [.iretq])) = exec p .iretq zeroed := by
      rw [xrstor, Option.bind_some, run_append, run_clears, Option.bind_some, runBlock]
      cases exec p .iretq zeroed <;> rfl
    exact restore
  rw [run, iretq, iretqFrame, if_pos (by simpa only [level] using ⟨segments.1, segments.2, target⟩)]
  refine ⟨_, rfl, ⟨rfl, rfl, rfl, rfl, flags, ?_⟩, rfl, rfl, ?_⟩
  · intro r other
    have zero : r ∈ cleared := by cases r <;> simp [cleared] at other ⊢
    simp [other, zeroed, zero]
  · intro i
    have same : zeroed.xstate i =
        if componentBit loaded.requestedComponents i then none else c.xstate i := rfl
    rw [mask] at same
    exact same

end PmcBruteforce
