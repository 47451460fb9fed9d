import PmcBruteforce.Library.Labelled
import PmcBruteforce.Search.Invariant

/-! The order of the search as a system of its own: a candidate and the final length it turns
out to have fix the next candidate. A run follows that system whatever else it is told. -/
namespace PmcBruteforce

variable {b : Build}

/-- What the update of the pointer goes by, but for the length. -/
structure Candidate where
  instructionBytes : Buffer
  curByteIndex : Nat
  lastInstructionLength : Nat
  deriving DecidableEq

def Candidate.initial : Candidate := ⟨Buffer.zero, 0, 0⟩

def State.candidate (s : State b) : Candidate :=
  ⟨s.instructionBytes, s.curByteIndex, s.lastInstructionLength⟩

/-- The index the update begins at. -/
def Candidate.firstIndex (mode : CpuMode) (c : Candidate) (length : Nat) : Nat :=
  let curByteIsPrefix : Bool :=
    match countPrefixes mode c.instructionBytes.bytes length with
    | none => false
    | some count => c.curByteIndex < count
  if length = c.lastInstructionLength ∧ curByteIsPrefix = false then c.curByteIndex
  else length - 1

/-- The step of the search: the instruction has this final length, and the update leaves that
candidate. -/
def Succeeds (mode : CpuMode) (c : Candidate) (length : Nat) (c' : Candidate) : Prop :=
  c.firstIndex mode length < 15 ∧
    ∃ l, NextCandidate mode c.instructionBytes (c.firstIndex mode length) l ∧
      c' = ⟨l.instructionBytes, l.curByteIndex, length⟩

theorem Buffer.eq_of_get {x y : Buffer} (same : ∀ k < 15, x.get k = y.get k) : x = y := by
  have bytes : x.bytes = y.bytes := by
    apply List.ext_getElem?
    intro k
    rcases Nat.lt_or_ge k 15 with inside | outside
    · rw [x.getElem?_eq k inside, y.getElem?_eq k inside, same k inside]
    · rw [List.getElem?_eq_none (by rw [x.size]; exact outside),
        List.getElem?_eq_none (by rw [y.size]; exact outside)]
  cases x
  cases y
  cases bytes
  rfl

section

variable {mode : CpuMode} {start : Buffer} {first : Nat} {l l' : PointerLoop}

theorem NextCandidate.keeps (h : NextCandidate mode start first l) (bound : first < 15) :
    rejectedByFilter mode
      (start.string l.curByteIndex ++ [l.instructionBytes.get l.curByteIndex]) = false := by
  have inside : l.curByteIndex < 15 := Nat.lt_of_le_of_lt h.index bound
  rw [← h.before, ← Buffer.string_succ _ _ inside]
  exact h.accepted

theorem NextCandidate.index_le (h : NextCandidate mode start first l)
    (h' : NextCandidate mode start first l') (bound : first < 15) :
    l'.curByteIndex ≤ l.curByteIndex := by
  apply Nat.le_of_not_lt
  intro later
  have rejected := h.passed l'.curByteIndex later h'.index _ h'.greater
  rw [h'.keeps bound] at rejected
  cases rejected

theorem NextCandidate.byte_le (h : NextCandidate mode start first l)
    (h' : NextCandidate mode start first l') (bound : first < 15)
    (index : l.curByteIndex = l'.curByteIndex) :
    l'.instructionBytes.get l'.curByteIndex ≤ l.instructionBytes.get l.curByteIndex := by
  apply UInt8.not_lt.mp
  intro less
  have greater := h.greater
  have kept := h.keeps bound
  rw [index] at less greater kept
  rw [h'.skipped _ greater less] at kept
  cases kept

/-- The pointer update has one candidate to leave. -/
theorem NextCandidate.unique (h : NextCandidate mode start first l)
    (h' : NextCandidate mode start first l') (bound : first < 15) :
    l.curByteIndex = l'.curByteIndex ∧ l.instructionBytes = l'.instructionBytes := by
  have index : l.curByteIndex = l'.curByteIndex :=
    Nat.le_antisymm (h'.index_le h bound) (h.index_le h' bound)
  have here := UInt8.le_antisymm (h'.byte_le h bound index.symm) (h.byte_le h' bound index)
  refine ⟨index, Buffer.eq_of_get fun k _ => ?_⟩
  rcases Nat.lt_trichotomy k l.curByteIndex with before | rfl | behind
  · rw [Buffer.get_eq_of_string h.before before,
      Buffer.get_eq_of_string h'.before (index ▸ before)]
  · rw [here, index]
  · rw [h.behind k behind, h'.behind k (index ▸ behind)]

end

theorem succeeds_deterministic (mode : CpuMode) : Library.Deterministic (Succeeds mode) := by
  rintro c length _ _ ⟨bound, l, next, rfl⟩ ⟨-, l', next', rfl⟩
  obtain ⟨index, bytes⟩ := next.unique next' bound
  rw [index, bytes]

/-- The instructions a log has counted, as candidates with their final lengths. -/
def orderOf (p : Platform) (log : List (Entry b)) : List (Candidate × Nat) :=
  (log.filter (counted p)).map fun e => (e.job.state.candidate, e.job.state.curInstructionLength)

section

variable {p : Platform} {s s' : State b} {r : Response b} {i i' : List UInt8}

theorem Searching.succeeds (h : Searching s) (run : handleException p s r = .execute i' s') :
    (counted p ⟨⟨i, s⟩, r⟩ = true ∧
      Succeeds b.cpuMode s.candidate s.curInstructionLength s'.candidate) ∨
    (¬ counted p ⟨⟨i, s⟩, r⟩ = true ∧ s'.candidate = s.candidate) := by
  cases (h.executes run).1 with
  | grown fault short => exact .inr ⟨not_counted_of_grown i fault short, rfl⟩
  | restarted unstable => exact .inr ⟨not_counted_of_restarted i unstable, rfl⟩
  | moved proceeds s'' l success next =>
    refine .inl ⟨(h.counted_iff p i r).mpr ⟨proceeds, s'', success⟩,
      Nat.lt_of_lt_of_le h.first_index_lt h.length, l, next, ?_⟩
    obtain ⟨_, _, _, _, fields⟩ := saved_booked success
    rw [fields]
    rfl

theorem Consistent.succeeds (h : Consistent s) (run : handleException p s r = .execute i' s') :
    (counted p ⟨⟨i, s⟩, r⟩ = true ∧
      Succeeds b.cpuMode s.candidate s.curInstructionLength s'.candidate) ∨
    (¬ counted p ⟨⟨i, s⟩, r⟩ = true ∧ s'.candidate = s.candidate) := by
  rcases h.cases run with ⟨here, same, -⟩ | ⟨searching, -⟩
  · refine .inr ⟨not_counted_of_measuring here p, ?_⟩
    obtain ⟨bytes, index, -, -⟩ := PointerLoop.mk.inj same.pointer
    rw [State.candidate, State.candidate, bytes, index, same.last]
  · exact searching.succeeds run

end

/-- A run follows the order of the search. -/
structure FollowsOrder (p : Platform) (t : Run b) : Prop where
  current : ∀ i s, t.outcome = .execute i s →
    Library.Path (Succeeds b.cpuMode) Candidate.initial (orderOf p t.log) s.candidate
  history : Library.History (Succeeds b.cpuMode) Candidate.initial (orderOf p t.log)

theorem boot_follows_order (p : Platform) (rs : List (Response b)) :
    FollowsOrder p (boot p rs) := by
  apply boot_invariant (FollowsOrder p)
  · refine ⟨?_, trivial⟩
    intro i s same
    obtain ⟨-, rfl⟩ := Outcome.execute.inj same
    exact .nil
  · rintro ⟨i, s⟩ log r consistent ⟨current, history⟩
    have path := current i s rfl
    by_cases count : counted p ⟨⟨i, s⟩, r⟩ = true
    · have order : orderOf p (⟨⟨i, s⟩, r⟩ :: log) =
          (s.candidate, s.curInstructionLength) :: orderOf p log := by
        rw [orderOf, List.filter_cons_of_pos count]
        rfl
      refine ⟨?_, by rw [order]; exact path⟩
      intro i' s' run
      rw [order]
      rcases consistent.succeeds (i := i) run with ⟨-, move⟩ | ⟨skipped, -⟩
      · exact .cons path move
      · exact absurd count skipped
    · have order : orderOf p (⟨⟨i, s⟩, r⟩ :: log) = orderOf p log := by
        rw [orderOf, List.filter_cons_of_neg count]
        rfl
      refine ⟨?_, by rw [order]; exact history⟩
      intro i' s' run
      rw [order]
      rcases consistent.succeeds (i := i) run with ⟨counted_, -⟩ | ⟨-, same⟩
      · exact absurd counted_ count
      · rw [same]
        exact path

def finalLength (e : Entry b) : Nat := e.job.state.curInstructionLength

/-- A processed instruction: the bytes that ran, the whole array and the pointer. -/
def processed (e : Entry b) : List UInt8 × Buffer × Nat :=
  (e.job.state.currentInstruction, e.job.state.instructionBytes, e.job.state.curByteIndex)

/-- Two runs in which the counted instructions have the same lengths count the same
instructions, whatever else the processor, the disassembler and the file answered. -/
theorem search_order_of_lengths (p p' : Platform) (rs rs' : List (Response b))
    (same : (countedIn p (boot p rs)).map finalLength =
      (countedIn p' (boot p' rs')).map finalLength) :
    (countedIn p (boot p rs)).map processed = (countedIn p' (boot p' rs')).map processed := by
  have labels : ∀ (p : Platform) (rs : List (Response b)),
      (orderOf p (boot p rs).log).map Prod.snd = (countedIn p (boot p rs)).map finalLength := by
    intro p rs
    rw [orderOf, List.map_map]
    rfl
  have states : ∀ (p : Platform) (rs : List (Response b)),
      (countedIn p (boot p rs)).map processed = (orderOf p (boot p rs).log).map fun x =>
        (x.1.instructionBytes.string x.2, x.1.instructionBytes, x.1.curByteIndex) := by
    intro p rs
    rw [orderOf, List.map_map]
    rfl
  have order : orderOf p (boot p rs).log = orderOf p' (boot p' rs').log := by
    apply (boot_follows_order p rs).history.unique (succeeds_deterministic _)
      (boot_follows_order p' rs').history
    rw [labels, labels, same]
  rw [states, states, order]

theorem two_runs_one_order :
    (countedIn Platform.reliable (boot Platform.reliable
      [ud2Response, ud2Response, generalProtection, generalProtection])).map processed =
    (countedIn Platform.reliable (boot Platform.reliable
      [ud2Response, ud2Response, ud2Response, ud2Response, generalProtection])).map processed :=
  search_order_of_lengths Platform.reliable Platform.reliable _ _ (by decide +kernel)

end PmcBruteforce
