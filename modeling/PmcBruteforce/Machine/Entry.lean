import PmcBruteforce.Machine.Cpu
import PmcBruteforce.Machine.Gates

/-! From an exception to the call of `handle_exception`: the context that rcx points to is
what the processor and the stub pushed, for every vector, with and without an error code, and
with and without the saved registers. -/
namespace PmcBruteforce

open Library

/-- The registers in `struct context`, in its order. -/
def contextRegisters : List Register :=
  [.rax, .rcx, .rdx, .rbx, .rbp, .rsi, .rdi, .r8, .r9, .r10, .r11, .r12, .r13, .r14, .r15]

def registersInContext (saveRegsOnException : Bool) : Nat :=
  if saveRegsOnException then contextRegisters.length else 0

/-- What C code reads through a `struct context*`: the members behind the registers. -/
def readContext (saveRegsOnException : Bool) (m : ByteMemory) (context : UInt64) :
    Option Context :=
  match m.words (context + UInt64.ofNat (8 * registersInContext saveRegsOnException)) 7 with
  | [number, w0, w1, w2, w3, w4, w5] =>
    if known : number.toNat < 22 then some ⟨⟨number.toNat, known⟩, #v[w0, w1, w2, w3, w4, w5]⟩
    else none
  | _ => none

@[simp] theorem Cpu.set_register (c : Cpu) (r x : Register) (v : UInt64) :
    (c.set r v).register x = if x = r then v else c.register x := rfl

@[simp] theorem Cpu.set_memory (c : Cpu) (r : Register) (v : UInt64) :
    (c.set r v).memory = c.memory := rfl

theorem Cpu.set_set (c : Cpu) (r : Register) (v w : UInt64) : (c.set r v).set r w = c.set r w := by
  unfold Cpu.set
  congr 1
  funext x
  by_cases same : x = r <;> simp [same]

theorem run_pushes (p : Processor) {ops : List Operand} (others : .register .rsp ∉ ops) (c : Cpu) :
    runBlock p (ops.map .push) c = some { c.set .rsp (ByteMemory.slot c.rsp ops.length) with
      memory := c.memory.pushAll c.rsp (ops.map c.value) } := by
  induction ops generalizing c with
  | nil =>
    have same : c.set .rsp c.rsp = c := by
      unfold Cpu.set
      congr 1
      funext x
      by_cases here : x = .rsp
      · rw [if_pos here, here]
        rfl
      · rw [if_neg here]
    simp only [List.map_nil, runBlock, List.length_nil, ByteMemory.slot_zero, ByteMemory.pushAll, same]
  | cons op ops ih =>
    have rest : .register .rsp ∉ ops := fun member => others (List.mem_cons_of_mem _ member)
    have values : ∀ o ∈ ops, (c.pushed (c.value op)).value o = c.value o := by
      intro o member
      cases o with
      | immediate v => rfl
      | register r =>
        have other : r ≠ .rsp := fun same => rest (same ▸ member)
        exact if_neg other
    have place : (c.pushed (c.value op)).rsp = ByteMemory.slot c.rsp 1 := rfl
    have all : ops.map (c.pushed (c.value op)).value = ops.map c.value := List.map_congr_left values
    have run := ih rest (c.pushed (c.value op))
    rw [place, all, ByteMemory.slot_slot, Nat.add_comm] at run
    rw [List.map_cons, runBlock, exec, Option.bind_some, run]
    exact congrArg (fun d : Cpu => some { d with
      memory := (c.pushed (c.value op)).memory.pushAll (ByteMemory.slot c.rsp 1) (ops.map c.value) })
        (Cpu.set_set c .rsp _ _)

theorem align_toNat (a : UInt64) : (a &&& ~~~0xf).toNat = 16 * (a.toNat / 16) := by
  have mask : (~~~(0xf : UInt64)).toNat = 2 ^ 4 * (2 ^ 60 - 1) := by decide
  have bound := a.toNat_lt
  rw [UInt64.toNat_and, mask, and_mask, bitField]
  omega

/-- A stack pointer some words below an aligned one is aligned by going down one word more
when the number of words is odd. -/
theorem align_slot (a : UInt64) (k : Nat) :
    ByteMemory.slot (a &&& ~~~0xf) k &&& ~~~0xf = ByteMemory.slot (a &&& ~~~0xf) (k + k % 2) := by
  have bound := a.toNat_lt
  apply UInt64.toNat_inj.mp
  rw [align_toNat, ByteMemory.slot, ByteMemory.slot, UInt64.toNat_sub, UInt64.toNat_sub, align_toNat,
    UInt64.toNat_ofNat', UInt64.toNat_ofNat']
  omega

def stubOperands (saveRegsOnException : Bool) (vector : Fin 22) : List Operand :=
  .immediate (UInt64.ofNat vector) ::
    if saveRegsOnException then savedOnException.map .register else []

theorem stub_eq (saveRegsOnException : Bool) (vector : Fin 22) :
    exceptionHandler saveRegsOnException vector =
      (stubOperands saveRegsOnException vector).map .push ++
        [.mov .rcx (.register .rsp), .push (.immediate 0), .popfq, .and .rsp (~~~0xf),
          .push (.immediate 0)] := by
  cases saveRegsOnException <;> rfl

theorem or_and (x y mask : UInt64) : (x ||| y) &&& mask = x &&& mask ||| y &&& mask := by
  apply UInt64.toNat_inj.mp
  simp only [UInt64.toNat_and, UInt64.toNat_or]
  exact Nat.and_or_distrib_right _ _ _

theorem popped_zero (flags : UInt64) :
    ((0 : UInt64) &&& popfqMask ||| flags &&& (definedFlags &&& ~~~(popfqMask ||| bit 16)) |||
      flagsAlwaysSet) &&& popfqMask = 0 := by
  have kept : (definedFlags &&& ~~~(popfqMask ||| bit 16)) &&& popfqMask = 0 := by decide
  have set : flagsAlwaysSet &&& popfqMask = 0 := by decide
  rw [or_and, or_and, UInt64.and_assoc flags, kept, set]
  simp

theorem run_tail (p : Processor) (c : Cpu) :
    ∃ c', runBlock p [.mov .rcx (.register .rsp), .push (.immediate 0), .popfq,
        .and .rsp (~~~0xf), .push (.immediate 0)] c = some c' ∧
      c'.register .rcx = c.rsp ∧ c'.rsp = ByteMemory.slot (c.rsp &&& ~~~0xf) 1 ∧
      c'.memory = (c.memory.store64 (ByteMemory.slot c.rsp 1) 0).store64
        (ByteMemory.slot (c.rsp &&& ~~~0xf) 1) 0 ∧
      c'.rip = c.rip ∧ c'.cs = c.cs ∧ c'.xstate = c.xstate ∧ c'.xcr0 = c.xcr0 ∧
      c'.rflags &&& popfqMask = 0 := by
  have back : ByteMemory.slot c.rsp 1 + 8 = c.rsp := by
    rw [ByteMemory.slot_above c.rsp 0, ByteMemory.slot_zero]
  let moved := c.set .rcx c.rsp
  let flagged : Cpu := { (moved.pushed 0).set .rsp (ByteMemory.slot c.rsp 1 + 8) with
    rflags := (moved.pushed 0).memory.load64 (ByteMemory.slot c.rsp 1) &&& popfqMask |||
      c.rflags &&& (definedFlags &&& ~~~(popfqMask ||| bit 16)) ||| flagsAlwaysSet }
  have rsp : flagged.rsp = c.rsp := back
  have aligned : (flagged.set .rsp (c.rsp &&& ~~~0xf)).rsp = c.rsp &&& ~~~0xf := rfl
  refine ⟨(flagged.set .rsp (flagged.rsp &&& ~~~0xf)).pushed 0, rfl, rfl, ?_, ?_, rfl, rfl, rfl, rfl,
    ?_⟩
  · rw [rsp]
    rfl
  · rw [rsp]
    rfl
  · have read : (moved.pushed 0).memory.load64 (ByteMemory.slot c.rsp 1) = 0 :=
      ByteMemory.load_store_same _ _ _
    have flags : flagged.rflags = (moved.pushed 0).memory.load64 (ByteMemory.slot c.rsp 1) &&&
      popfqMask ||| c.rflags &&& (definedFlags &&& ~~~(popfqMask ||| bit 16)) ||| flagsAlwaysSet := rfl
    rw [read] at flags
    have same : ((flagged.set .rsp (flagged.rsp &&& ~~~0xf)).pushed 0).rflags = flagged.rflags := rfl
    rw [same, flags]
    exact popped_zero c.rflags

/-- Everything that is pushed between the exception and the move of rsp to rcx. -/
def entryWords (saveRegsOnException : Bool) (vector : Fin 22) (errorCode : UInt64) (f : IretqFrame)
    (c : Cpu) : List UInt64 :=
  deliveredWords vector errorCode f ++ UInt64.ofNat vector ::
    if saveRegsOnException then savedOnException.map c.register else []

theorem entryWords_length (saveRegsOnException : Bool) (vector : Fin 22) (errorCode : UInt64)
    (f : IretqFrame) (c : Cpu) :
    (entryWords saveRegsOnException vector errorCode f c).length =
      (deliveredWords vector errorCode f).length + 1 + registersInContext saveRegsOnException := by
  cases saveRegsOnException <;> simp [entryWords, registersInContext, savedOnException,
    contextRegisters]

theorem deliveredWords_length (vector : Fin 22) (errorCode : UInt64) (f : IretqFrame) :
    (deliveredWords vector errorCode f).length = if pushesErrorCode vector then 6 else 5 := by
  cases pushed : pushesErrorCode vector <;> simp [deliveredWords, pushed]

structure Called (stack : UInt64) (ws : List UInt64) (c c' : Cpu) : Prop where
  context : c'.register .rcx = ByteMemory.slot stack ws.length
  rsp : c'.rsp = ByteMemory.slot stack (ws.length + ws.length % 2 + 1)
  memory : c'.memory = ((c.memory.pushAll stack ws).store64
    (ByteMemory.slot stack (ws.length + 1)) 0).store64
      (ByteMemory.slot stack (ws.length + ws.length % 2 + 1)) 0
  flags : c'.rflags &&& popfqMask = 0
  cs : c'.cs = 8
  xstate : c'.xstate = c.xstate
  xcr0 : c'.xcr0 = c.xcr0

theorem stub_called (p : Processor) (saveRegsOnException : Bool) {vector : Fin 22} {target : UInt64}
    (gate : p.tables.exceptionTarget vector = some target) (errorCode : UInt64) (f : IretqFrame)
    (c : Cpu) :
    ∃ d c', deliver p vector errorCode f c = some d ∧ d.rip = target ∧
      runBlock p (exceptionHandler saveRegsOnException vector) d = some c' ∧
      Called (deliveryStack p f)
        (entryWords saveRegsOnException vector errorCode f c) c c' := by
  let stack := deliveryStack p f
  let words := deliveredWords vector errorCode f
  let ops := stubOperands saveRegsOnException vector
  let d : Cpu := { c.set .rsp (ByteMemory.slot stack words.length) with
    rip := target
    cs := 8
    ss := if rpl f.cs = 0 then c.ss else 0
    rflags := c.rflags &&& ~~~exceptionClears
    memory := c.memory.pushAll stack words }
  have delivered : deliver p vector errorCode f c = some d := by
    simp only [deliver, gate]
    rfl
  have others : .register .rsp ∉ ops := by
    cases saveRegsOnException <;> simp [ops, stubOperands, savedOnException]
  have values : words ++ ops.map d.value = entryWords saveRegsOnException vector errorCode f c := by
    cases saveRegsOnException <;> rfl
  have place : d.rsp = ByteMemory.slot stack words.length := rfl
  have length : words.length + ops.length =
      (entryWords saveRegsOnException vector errorCode f c).length := by
    rw [← values, List.length_append, List.length_map]
  have pushes := run_pushes p others d
  let e : Cpu := { d.set .rsp (ByteMemory.slot d.rsp ops.length) with
    memory := d.memory.pushAll d.rsp (ops.map d.value) }
  have memory : e.memory =
      c.memory.pushAll stack (entryWords saveRegsOnException vector errorCode f c) := by
    rw [← values, ByteMemory.pushAll_append]
    rfl
  have rsp : e.rsp =
      ByteMemory.slot stack (entryWords saveRegsOnException vector errorCode f c).length := by
    have here : e.rsp = ByteMemory.slot d.rsp ops.length := rfl
    rw [here, place, ByteMemory.slot_slot, length]
  obtain ⟨c', run, rcx, top, written, -, cs, xstate, xcr0, flags⟩ := run_tail p e
  refine ⟨d, c', delivered, rfl, ?_, ?_⟩
  · rw [stub_eq, run_append, pushes]
    exact run
  · have aligned := align_slot (if rpl f.cs = 0 then f.rsp else p.tables.rsp0)
      (entryWords saveRegsOnException vector errorCode f c).length
    have aligned : e.rsp &&& ~~~0xf = ByteMemory.slot stack
        ((entryWords saveRegsOnException vector errorCode f c).length +
          (entryWords saveRegsOnException vector errorCode f c).length % 2) := by
      rw [rsp]
      exact aligned
    refine ⟨rcx.trans rsp, ?_, ?_, flags, cs, xstate, xcr0⟩
    · rw [top, aligned, ByteMemory.slot_slot]
    · rw [written, aligned, memory, rsp, ByteMemory.slot_slot, ByteMemory.slot_slot]

theorem Called.words {stack : UInt64} {ws : List UInt64} {c c' : Cpu} (called : Called stack ws c c')
    (small : ws.length < 2 ^ 32) {i n : Nat} (le : n ≤ i) (inside : i ≤ ws.length) :
    c'.memory.words (ByteMemory.slot stack i) n =
      (c.memory.pushAll stack ws).words (ByteMemory.slot stack i) n := by
  rw [called.memory, ByteMemory.words_store _ stack le (by omega) (by omega),
    ByteMemory.words_store _ stack le (by omega) (by omega)]

/-- The struct that `handle_exception` gets: the saved registers in the order of the members,
and the members behind them. -/
structure Describes (saveRegsOnException : Bool) (vector : Fin 22) (errorCode : UInt64)
    (f : IretqFrame) (c c' : Cpu) (context : Context) : Prop where
  read : readContext saveRegsOnException c'.memory (c'.register .rcx) = some context
  number : context.exceptionNumber = vector
  frame : context.frame = f
  errorCode : hasErrorCode vector = true → context.errorCode = errorCode
  registers : saveRegsOnException = true →
    c'.memory.words (c'.register .rcx) contextRegisters.length = contextRegisters.map c.register

/-- The mask of the source is the set of vectors for which the processor pushes a code. -/
theorem pushesErrorCode_eq : ∀ vector : Fin 22, pushesErrorCode vector = hasErrorCode vector := by
  decide +kernel

section

variable {vector : Fin 22} {errorCode : UInt64} {f : IretqFrame} {c c' : Cpu} {stack : UInt64}

theorem Called.registers (called : Called stack (entryWords true vector errorCode f c) c c') :
    c'.memory.words (c'.register .rcx) contextRegisters.length = contextRegisters.map c.register := by
  let front := deliveredWords vector errorCode f ++ [UInt64.ofNat vector]
  let saved := savedOnException.map c.register
  have split : entryWords true vector errorCode f c = front ++ saved := by
    simp [entryWords, front, saved]
  have count : saved.length = contextRegisters.length := by
    simp [saved, savedOnException, contextRegisters]
  have few : (entryWords true vector errorCode f c).length < 2 ^ 32 := by
    rw [entryWords_length, deliveredWords_length]
    split <;> simp [registersInContext, contextRegisters]
  have length : (entryWords true vector errorCode f c).length = front.length + saved.length := by
    rw [split, List.length_append]
  have read := called.words few (n := saved.length) (i := (entryWords true vector errorCode f c).length)
    (by omega) (Nat.le_refl _)
  have pushed := ByteMemory.words_pushAll (c.memory.pushAll stack front)
    (ByteMemory.slot stack front.length) saved (by rw [count]; decide)
  rw [ByteMemory.slot_slot, ← length, ← ByteMemory.pushAll_append, ← split] at pushed
  rw [called.context, ← count, read, pushed]
  rfl

/-- The vector and what the processor pushed, read back from the place of the vector on. -/
theorem Called.members {saveRegsOnException : Bool}
    (called : Called stack (entryWords saveRegsOnException vector errorCode f c) c c') :
    c'.memory.words (c'.register .rcx + UInt64.ofNat (8 * registersInContext saveRegsOnException))
      ((deliveredWords vector errorCode f).length + 1) =
        UInt64.ofNat vector :: (deliveredWords vector errorCode f).reverse := by
  let front := deliveredWords vector errorCode f ++ [UInt64.ofNat vector]
  let saved := if saveRegsOnException then savedOnException.map c.register else []
  have split : entryWords saveRegsOnException vector errorCode f c = front ++ saved := by
    simp [entryWords, front, saved]
  have length := entryWords_length saveRegsOnException vector errorCode f c
  have size := deliveredWords_length vector errorCode f
  have registers : registersInContext saveRegsOnException ≤ 15 := by
    cases saveRegsOnException <;> simp [registersInContext, contextRegisters]
  have frontLength : front.length = (deliveredWords vector errorCode f).length + 1 := by
    simp [front]
  have few : (deliveredWords vector errorCode f).length ≤ 6 := by
    rw [size]
    split <;> omega
  have sum : (entryWords saveRegsOnException vector errorCode f c).length =
      front.length + saved.length := by
    rw [split, List.length_append]
  have read := called.words (by omega) (n := front.length) (i := front.length) (Nat.le_refl _)
    (by omega)
  have below := ByteMemory.words_pushAll_below (c.memory.pushAll stack front) stack
    (Nat.le_refl front.length) (Nat.le_refl front.length) saved (by omega)
  have pushed := ByteMemory.words_pushAll c.memory stack front (by omega)
  rw [called.context, length, ByteMemory.slot_add, ← frontLength, read, split,
    ByteMemory.pushAll_append, below, pushed]
  simp [front]

theorem readContext_words {saveRegsOnException : Bool} {m : ByteMemory} {a : UInt64}
    {w0 w1 w2 w3 w4 w5 : UInt64}
    (words : m.words (a + UInt64.ofNat (8 * registersInContext saveRegsOnException)) 7 =
      [UInt64.ofNat vector, w0, w1, w2, w3, w4, w5]) :
    readContext saveRegsOnException m a = some ⟨vector, #v[w0, w1, w2, w3, w4, w5]⟩ := by
  have number : (UInt64.ofNat vector).toNat = vector := by
    rw [UInt64.toNat_ofNat']
    omega
  simp only [readContext, words, number, Fin.is_lt, dif_pos]

theorem Called.describes {saveRegsOnException : Bool}
    (called : Called stack (entryWords saveRegsOnException vector errorCode f c) c c') :
    ∃ context, Describes saveRegsOnException vector errorCode f c c' context := by
  have same := pushesErrorCode_eq vector
  have members := called.members
  have registers : saveRegsOnException = true →
      c'.memory.words (c'.register .rcx) contextRegisters.length =
        contextRegisters.map c.register := by
    rintro rfl
    exact called.registers
  cases coded : pushesErrorCode vector with
  | true =>
    have coded' : hasErrorCode vector = true := same ▸ coded
    have words : deliveredWords vector errorCode f =
        [f.ss, f.rsp, f.rflags, f.cs, f.rip, errorCode] := by
      simp [deliveredWords, coded]
    rw [words] at members
    refine ⟨_, readContext_words members, rfl, ?_, fun _ => rfl, registers⟩
    rw [Context.frame, coded']
    rfl
  | false =>
    have coded' : hasErrorCode vector = false := same ▸ coded
    have words : deliveredWords vector errorCode f = [f.ss, f.rsp, f.rflags, f.cs, f.rip] := by
      simp [deliveredWords, coded]
    rw [words] at members
    -- the last member lies above the stack, and holds whatever is there
    have more := ByteMemory.words_append c'.memory
      (c'.register .rcx + UInt64.ofNat (8 * registersInContext saveRegsOnException)) 6 1
    have six : c'.memory.words (c'.register .rcx +
        UInt64.ofNat (8 * registersInContext saveRegsOnException)) 6 =
          [UInt64.ofNat vector, f.rip, f.cs, f.rflags, f.rsp, f.ss] := members
    rw [six] at more
    refine ⟨_, readContext_words more, rfl, ?_, fun pushed => ?_, registers⟩
    · rw [Context.frame, coded']
      rfl
    · cases coded'.symm.trans pushed

end

theorem Called.home_space {saveRegsOnException : Bool} {vector : Fin 22} {errorCode : UInt64}
    {f : IretqFrame} {c c' : Cpu} {stack : UInt64}
    (called : Called stack (entryWords saveRegsOnException vector errorCode f c) c c') :
    c'.register .rcx = c'.rsp + 8 ∨ c'.register .rcx = c'.rsp + 16 := by
  let k := (entryWords saveRegsOnException vector errorCode f c).length
  have rsp : c'.rsp = ByteMemory.slot stack (k + k % 2 + 1) := called.rsp
  have context : c'.register .rcx = ByteMemory.slot stack k := called.context
  have first : c'.rsp + 8 = ByteMemory.slot stack (k + k % 2) := by
    rw [rsp, ByteMemory.slot_above]
  have second : c'.rsp + 8 + 8 = c'.rsp + 16 := UInt64.add_assoc _ 8 8
  rcases Nat.mod_two_eq_zero_or_one k with even | odd
  · rw [even, Nat.add_zero] at first
    exact .inl (context.trans first.symm)
  · rw [odd] at first
    rw [← second, first, ByteMemory.slot_above]
    exact .inr context

end PmcBruteforce
