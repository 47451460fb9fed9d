import PmcBruteforce.Library.BigEndian
import PmcBruteforce.Search.Run

/-! The search moves forward: read as big-endian numbers, the bytes up to any position
never get smaller, and those up to a position the pointer has left get larger. -/
namespace PmcBruteforce

variable {b : Build}

def Buffer.prefixValue (x : Buffer) (n : Nat) : Nat := Library.bigEndian (x.string n)

/-- `instruction_bytes` as a number of 15 digits. -/
def Buffer.value (x : Buffer) : Nat := x.prefixValue 15

theorem Buffer.value_lt (x : Buffer) : x.value < 256 ^ 15 := by
  have bound := Library.bigEndian_lt (x.string 15)
  rw [x.string_length 15 (Nat.le_refl _)] at bound
  exact bound

theorem Buffer.string_split (x : Buffer) {k n : Nat} (inside : k < n) (bound : n ≤ 15) :
    x.string n = x.string k ++ x.get k :: (x.string n).drop (k + 1) := by
  have front : (x.string n).take (k + 1) = x.string k ++ [x.get k] := by
    rw [x.string_take (Nat.succ_le_of_lt inside), x.string_succ k (Nat.lt_of_lt_of_le inside bound)]
  have split := List.take_append_drop (k + 1) (x.string n)
  rw [front, List.append_assoc] at split
  exact split.symm

theorem Buffer.prefixValue_lt {x y : Buffer} {k n : Nat} (before : y.string k = x.string k)
    (greater : x.get k < y.get k) (inside : k < n) (bound : n ≤ 15) :
    x.prefixValue n < y.prefixValue n := by
  unfold prefixValue
  rw [x.string_split inside bound, y.string_split inside bound, before]
  apply Library.bigEndian_lt_of_first_difference _ greater
  simp only [List.length_drop, x.string_length n bound, y.string_length n bound]

theorem NextCandidate.prefixValue_lt {mode : CpuMode} {start : Buffer} {first : Nat}
    {l : PointerLoop} (h : NextCandidate mode start first l) {n : Nat}
    (inside : l.curByteIndex < n) (bound : n ≤ 15) :
    start.prefixValue n < l.instructionBytes.prefixValue n :=
  Buffer.prefixValue_lt h.before h.greater inside bound

theorem NextCandidate.prefixValue_le {mode : CpuMode} {start : Buffer} {first : Nat}
    {l : PointerLoop} (h : NextCandidate mode start first l) {n : Nat} (bound : n ≤ 15) :
    start.prefixValue n ≤ l.instructionBytes.prefixValue n := by
  rcases Nat.lt_or_ge l.curByteIndex n with inside | outside
  · exact Nat.le_of_lt (h.prefixValue_lt inside bound)
  · unfold Buffer.prefixValue
    rw [Buffer.string_eq_of_le h.before outside]

theorem Searching.counted_iff {s : State b} (h : Searching s) (p : Platform) (i : List UInt8)
    (r : Response b) : counted p ⟨⟨i, s⟩, r⟩ = true ↔
      Proceeds p s r ∧ ∃ s', saved p s r = .ok s' := by
  simp only [counted, h.measuringUd, h.measuringNop, Bool.not_false, Bool.true_and,
    Bool.and_eq_true, Bool.not_eq_true']
  constructor
  · rintro ⟨⟨notGrown, notRestarted⟩, ok⟩
    refine ⟨⟨notGrown, notRestarted⟩, ?_⟩
    cases result : saved p s r with
    | ok s' => exact ⟨s', rfl⟩
    | error o => simp [result, Except.isOk, Except.toBool] at ok
  · rintro ⟨proceeds, s', result⟩
    refine ⟨⟨proceeds.notGrown, proceeds.notRestarted⟩, ?_⟩
    rw [result]
    rfl

/-- The bytes `x` come after the entry: no prefix is smaller, and once the entry has been
counted every prefix that holds its pointer is larger. -/
structure Overtaken (p : Platform) (e : Entry b) (x : Buffer) : Prop where
  le : ∀ n ≤ 15, e.job.state.instructionBytes.prefixValue n ≤ x.prefixValue n
  lt : counted p e = true → ∀ n, firstIndex e.job.state < n → n ≤ 15 →
    e.job.state.instructionBytes.prefixValue n < x.prefixValue n

theorem Overtaken.trans {p : Platform} {e f : Entry b} {x : Buffer}
    (h : Overtaken p e f.job.state.instructionBytes) (h' : Overtaken p f x) :
    Overtaken p e x where
  le n bound := Nat.le_trans (h.le n bound) (h'.le n bound)
  lt count n inside bound := Nat.lt_of_lt_of_le (h.lt count n inside bound) (h'.le n bound)

theorem Searching.overtaken {s s' : State b} (h : Searching s) {p : Platform} {r : Response b}
    {i i' : List UInt8} (run : handleException p s r = .execute i' s') :
    Overtaken p ⟨⟨i, s⟩, r⟩ s'.instructionBytes := by
  cases (h.executes run).1 with
  | grown fault short =>
    exact ⟨fun n _ => Nat.le_refl _, fun count =>
      absurd count (not_counted_of_grown i fault short)⟩
  | restarted unstable =>
    exact ⟨fun n _ => Nat.le_refl _, fun count =>
      absurd count (not_counted_of_restarted i unstable)⟩
  | moved _ s'' l _ next =>
    exact ⟨fun n bound => next.prefixValue_le bound, fun _ n inside bound =>
      next.prefixValue_lt (Nat.lt_of_le_of_lt next.index inside) bound⟩

/-- Every entry of the log has been overtaken by each later one and by what runs now. -/
structure Ordered (p : Platform) (t : Run b) : Prop where
  log : t.log.Pairwise fun newer older => Overtaken p older newer.job.state.instructionBytes
  current : ∀ i s, t.outcome = .execute i s → ∀ e ∈ t.log, Overtaken p e s.instructionBytes

theorem search_ordered (p : Platform) (a : Baseline b) (rs : List (Response b)) :
    Ordered p (search p a rs) := by
  apply search_invariant (Ordered p)
  · exact ⟨List.Pairwise.nil, fun _ _ _ e member => by cases member⟩
  · intro s log r searching ordered
    have behind := ordered.current _ s rfl
    refine ⟨List.Pairwise.cons behind ordered.log, ?_⟩
    intro i s' run e member
    have step := searching.overtaken (i := s.currentInstruction) run
    rcases List.mem_cons.mp member with rfl | member
    · exact step
    · exact (behind e member).trans step

theorem Searching.unique_count {s s' : State b} (h : Searching s) {p : Platform}
    {r : Response b} (i : List UInt8) (run : (handleException p s r).globals = some s') :
    s'.stats.uniqueInstructionsExecuted = s.stats.uniqueInstructionsExecuted +
      if counted p ⟨⟨i, s⟩, r⟩ = true then 1 else 0 := by
  have handled := h.handled p r
  have iff := h.counted_iff p i r
  have before : (afterSwitch s r).stats = s.stats := by
    unfold afterSwitch
    split <;> rfl
  have after : ∀ s'', saved p s r = .ok s'' →
      (countUnique p s'').stats.uniqueInstructionsExecuted =
        s.stats.uniqueInstructionsExecuted + 1 := by
    intro s'' success
    rw [count_unique_fields p s'', ← before]
    simp only [count_and_save_unique.1 s'' success]
  generalize same : handleException p s r = o at handled run
  cases handled with
  | grown fault short =>
    obtain rfl := Option.some.inj run
    simp [not_counted_of_grown i fault short]
  | restarted notGrown unstable =>
    obtain rfl := Option.some.inj run
    simp [not_counted_of_restarted i unstable]
  | saveFailed proceeds s'' failed =>
    obtain rfl := Option.some.inj run
    have skipped : ¬ counted p ⟨⟨i, s⟩, r⟩ = true := fun count => by
      obtain ⟨-, _, success⟩ := iff.mp count
      rw [success] at failed
      cases failed
    rw [if_neg skipped, ← before, count_and_save_unique.2 _ failed]
    exact (UInt64.add_zero _).symm
  | moved proceeds s'' l success next =>
    obtain rfl := Option.some.inj run
    rw [if_pos (iff.mpr ⟨proceeds, s'', success⟩)]
    exact after s'' success
  | done proceeds s'' l success =>
    obtain rfl := Option.some.inj run
    rw [if_pos (iff.mpr ⟨proceeds, s'', success⟩)]
    exact after s'' success

theorem search_unique_count (p : Platform) (a : Baseline b) (rs : List (Response b)) {s : State b}
    (h : (search p a rs).outcome.globals = some s) :
    s.stats.uniqueInstructionsExecuted = UInt64.ofNat (countedIn p (search p a rs)).length := by
  have all := search_invariant (p := p) (a := a) (fun t => ∀ s, t.outcome.globals = some s →
    s.stats.uniqueInstructionsExecuted = UInt64.ofNat (countedIn p t).length) ?_ ?_ rs
  · exact all s h
  · intro s same
    obtain rfl := Option.some.inj same
    rfl
  · intro s log r searching counts s' run
    rw [searching.unique_count s.currentInstruction run, counts s rfl, countedIn_length_cons]

theorem length_le_of_decreasing {xs : List Nat} (h : xs.Pairwise (· > ·)) {n : Nat}
    (bound : ∀ x ∈ xs, x < n) : xs.length ≤ n := by
  induction xs generalizing n with
  | nil => exact Nat.zero_le n
  | cons x xs ih =>
    obtain ⟨largest, rest⟩ := List.pairwise_cons.mp h
    have below := ih rest largest
    have top := bound x (List.mem_cons_self)
    rw [List.length_cons]
    omega

theorem counted_overtaken (p : Platform) (a : Baseline b) (rs : List (Response b)) :
    (countedIn p (search p a rs)).Pairwise fun newer older =>
      Overtaken p older newer.job.state.instructionBytes ∧ counted p older = true ∧
        Searching older.job.state := by
  apply List.Pairwise.imp_of_mem _ ((search_ordered p a rs).log.filter _)
  intro newer older _ member overtaken
  obtain ⟨logged, count⟩ := List.mem_filter.mp member
  exact ⟨overtaken, count, (search_log_searching logged).1⟩

theorem Overtaken.instruction_ne {p : Platform} {e : Entry b} {s : State b}
    (h : Overtaken p e s.instructionBytes) (count : counted p e = true)
    (searching : Searching e.job.state) (searching' : Searching s) :
    s.currentInstruction ≠ e.job.state.currentInstruction := by
  intro same
  have lengths := congrArg List.length same
  unfold State.currentInstruction at lengths same
  rw [Buffer.string_length _ _ searching'.length, Buffer.string_length _ _ searching.length]
    at lengths
  rw [lengths] at same
  have inside := searching.first_index_lt
  have less := h.lt count _ (Nat.lt_succ_self _) (Nat.le_trans inside searching.length)
  unfold Buffer.prefixValue at less
  rw [Buffer.string_eq_of_le same inside] at less
  exact Nat.lt_irrefl _ less

theorem counted_nodup (p : Platform) (a : Baseline b) (rs : List (Response b)) :
    ((countedIn p (search p a rs)).map fun e => e.job.instruction).Nodup := by
  rw [List.Nodup, List.pairwise_map]
  apply List.Pairwise.imp_of_mem _ (counted_overtaken p a rs)
  intro newer older newerMember olderMember ⟨overtaken, count, searching⟩
  obtain ⟨searching', current'⟩ := search_log_searching (List.mem_filter.mp newerMember).1
  obtain ⟨-, current⟩ := search_log_searching (List.mem_filter.mp olderMember).1
  rw [current', current]
  exact overtaken.instruction_ne count searching searching'

theorem counted_length_le (p : Platform) (a : Baseline b) (rs : List (Response b)) :
    (countedIn p (search p a rs)).length ≤ 256 ^ 15 := by
  have decreasing : ((countedIn p (search p a rs)).map fun e =>
      e.job.state.instructionBytes.value).Pairwise (· > ·) := by
    rw [List.pairwise_map]
    apply List.Pairwise.imp _ (counted_overtaken p a rs)
    intro newer older ⟨overtaken, count, searching⟩
    exact overtaken.lt count 15 (Nat.lt_of_lt_of_le searching.first_index_lt searching.length)
      (Nat.le_refl _)
  have small : ∀ x ∈ (countedIn p (search p a rs)).map fun e =>
      e.job.state.instructionBytes.value, x < 256 ^ 15 := by
    intro x member
    obtain ⟨e, -, rfl⟩ := List.mem_map.mp member
    exact Buffer.value_lt _
  have bound := length_le_of_decreasing decreasing small
  rw [List.length_map] at bound
  exact bound

theorem Searching.value_lt {s s' : State b} (h : Searching s) {p : Platform} {r : Response b}
    (returns : checkLastInstruction p s r = .ok s') :
    s.instructionBytes.value < s'.instructionBytes.value := by
  have run : handleException p s r = executeCurrentInstruction s' := by
    rw [handleException, h.dispatch_eq p r, returns]
    rfl
  have grown : grows p s r = false := by
    rw [check_last_instruction_eq] at returns
    cases grown : grows p s r with
    | false => rfl
    | true => simp [grown] at returns
  have restarted : restarts s r = false := by
    rw [check_last_instruction_eq] at returns
    cases restarted : restarts s r with
    | false => rfl
    | true => simp [grown, restarted] at returns
  have success : ∃ s'', saved p s r = .ok s'' := by
    rw [check_last_instruction_eq] at returns
    cases success : saved p s r with
    | ok s'' => exact ⟨s'', rfl⟩
    | error o => simp [grown, restarted, success, Except.bind] at returns
  have count := (h.counted_iff p s.currentInstruction r).mpr ⟨⟨grown, restarted⟩, success⟩
  exact (h.overtaken run).lt count 15 (Nat.lt_of_lt_of_le h.first_index_lt h.length)
    (Nat.le_refl _)

/-- Every call of `check_last_instruction` ends, and one that returns makes the bytes larger;
no instruction is counted twice in a run, and the count is that of at most 256^15 entries. -/
theorem search_progresses (p : Platform) (a : Baseline b) (rs : List (Response b)) :
    (∀ i s, (search p a rs).outcome = .execute i s → ∀ r,
      checkLastInstruction p s r ≠ .error .diverge ∧
      checkLastInstruction p s r ≠ .error .outOfBounds ∧
      ∀ s', checkLastInstruction p s r = .ok s' →
        s.instructionBytes.value < s'.instructionBytes.value) ∧
    ((countedIn p (search p a rs)).map fun e => e.job.instruction).Nodup ∧
    (∀ s, (search p a rs).outcome.globals = some s →
      s.stats.uniqueInstructionsExecuted = UInt64.ofNat (countedIn p (search p a rs)).length) ∧
    (countedIn p (search p a rs)).length ≤ 256 ^ 15 := by
  refine ⟨?_, counted_nodup p a rs, fun s => search_unique_count p a rs, counted_length_le p a rs⟩
  intro i s running r
  obtain ⟨searching, -⟩ := search_searching running
  have ends : ∀ o, checkLastInstruction p s r = .error o → Handled p s r o := by
    intro o leaves
    have handled := searching.handled p r
    rw [handleException, searching.dispatch_eq p r, leaves] at handled
    exact handled
  have noDivergence : ¬ Handled p s r .diverge := nofun
  have noOutOfBounds : ¬ Handled p s r .outOfBounds := nofun
  exact ⟨fun leaves => noDivergence (ends _ leaves), fun leaves => noOutOfBounds (ends _ leaves),
    fun s' => searching.value_lt⟩

end PmcBruteforce
