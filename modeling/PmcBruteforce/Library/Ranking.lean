import PmcBruteforce.Library.Reactive

/-! Reactive programs that come to an end. A rank grows with every response but those that
make the program repeat its job; and where the responses depend on the jobs alone, and a
repeated job is not repeated again, the program stops. -/
namespace Library.Reactive

variable {J R O : Type}

/-- Every response raises the rank, or makes the program repeat a job. -/
structure Ranked (m : Reactive J R O) (inv : O → Prop) (rank : O → Nat)
    (repeats : Event J R → Bool) (n : Nat) : Prop where
  keeps : ∀ {o : O} {j : J}, inv o → m.job o = some j → ∀ r, inv (m.handle j r)
  moves : ∀ {o : O} {j j' : J} {r : R}, inv o → m.job o = some j →
    m.job (m.handle j r) = some j' →
      repeats ⟨j, r⟩ = true ∧ rank o ≤ rank (m.handle j r) ∨ rank o < rank (m.handle j r)
  bounded : ∀ {o : O} {j : J}, inv o → m.job o = some j → rank o ≤ n

variable {m : Reactive J R O} {inv : O → Prop} {rank : O → Nat} {repeats : Event J R → Bool}
  {n : Nat}

/-- Only repetition makes a run long. -/
theorem Ranked.log_length_le (ranked : m.Ranked inv rank repeats n) {o : O} (start : inv o)
    (rs : List R) :
    (m.run ⟨o, []⟩ rs).log.length ≤ (m.run ⟨o, []⟩ rs).log.countP repeats + n + 1 := by
  let short : Trace J R O → Prop := fun t => inv t.outcome ∧
    (∀ j, m.job t.outcome = some j → t.log.length ≤ t.log.countP repeats + rank t.outcome) ∧
    t.log.length ≤ t.log.countP repeats + n + 1
  have all : short (m.run ⟨o, []⟩ rs) := by
    apply run_invariant short
    · exact ⟨start, fun _ _ => Nat.zero_le _, Nat.zero_le _⟩
    · rintro t j r running ⟨holds, current, -⟩
      have below := ranked.bounded holds running
      have length := current j running
      refine ⟨ranked.keeps holds running r, ?_, ?_⟩
      · intro j' next
        simp only [List.length_cons, List.countP_cons]
        rcases ranked.moves holds running next with ⟨again, le⟩ | lt
        · rw [if_pos again]
          omega
        · omega
      · rw [List.length_cons, List.countP_cons]
        omega
  exact all.2.2

/-- A run in which each response depends on the job alone. -/
def driven (m : Reactive J R O) (respond : J → R) (t : Trace J R O) : Nat → Trace J R O
  | 0 => t
  | k + 1 =>
    match m.job (m.driven respond t k).outcome with
    | none => m.driven respond t k
    | some j => m.step (m.driven respond t k) (respond j)

variable {respond : J → R}

theorem driven_running {t : Trace J R O} {k : Nat} {j : J}
    (running : m.job (m.driven respond t k).outcome = some j) :
    m.driven respond t (k + 1) =
      ⟨m.handle j (respond j), ⟨j, respond j⟩ :: (m.driven respond t k).log⟩ := by
  simp only [driven, running]
  exact step_running running (respond j)

theorem driven_stopped {t : Trace J R O} {k : Nat}
    (stopped : m.job (m.driven respond t k).outcome = none) :
    m.driven respond t (k + 1) = m.driven respond t k := by
  simp only [driven, stopped]

theorem driven_run (m : Reactive J R O) (respond : J → R) (t : Trace J R O) (k : Nat) :
    ∃ rs, m.driven respond t k = m.run t rs := by
  induction k with
  | zero => exact ⟨[], rfl⟩
  | succ k ih =>
    obtain ⟨rs, same⟩ := ih
    cases running : m.job (m.driven respond t k).outcome with
    | none => exact ⟨rs, (driven_stopped running).trans same⟩
    | some j =>
      refine ⟨rs ++ [respond j], ?_⟩
      rw [run_append, ← same, driven_running running]
      exact (step_running running (respond j)).symm

theorem driven_invariant (P : Trace J R O → Prop) {t : Trace J R O} (start : P t)
    (keeps : ∀ t j, m.job t.outcome = some j → P t →
      P ⟨m.handle j (respond j), ⟨j, respond j⟩ :: t.log⟩) (k : Nat) :
    P (m.driven respond t k) := by
  induction k with
  | zero => exact start
  | succ k ih =>
    cases running : m.job (m.driven respond t k).outcome with
    | none => rwa [driven_stopped running]
    | some j =>
      rw [driven_running running]
      exact keeps _ j running ih

theorem driven_length {t : Trace J R O} {k : Nat} {j : J}
    (running : m.job (m.driven respond t k).outcome = some j) :
    (m.driven respond t k).log.length = t.log.length + k := by
  induction k generalizing j with
  | zero => rfl
  | succ k ih =>
    cases before : m.job (m.driven respond t k).outcome with
    | none =>
      rw [driven_stopped before, before] at running
      cases running
    | some j' =>
      rw [driven_running before, List.length_cons, ih before]
      rfl

/-- At most every other job is repeated, so a long run has stopped. -/
theorem Ranked.driven_stops (ranked : m.Ranked inv rank repeats n)
    (settles : ∀ {o : O} {j j' : J}, inv o → m.job o = some j → repeats ⟨j, respond j⟩ = true →
      m.job (m.handle j (respond j)) = some j' → repeats ⟨j', respond j'⟩ = false)
    {o : O} (start : inv o) {k : Nat} (long : 2 * n + 3 < k) :
    m.job (m.driven respond ⟨o, []⟩ k).outcome = none := by
  let rare : Trace J R O → Prop := fun t => inv t.outcome ∧
    2 * t.log.countP repeats ≤ t.log.length + 1 ∧
    (2 * t.log.countP repeats ≤ t.log.length ∨
      ∀ j, m.job t.outcome = some j → repeats ⟨j, respond j⟩ = false)
  have all : rare (m.driven respond ⟨o, []⟩ k) := by
    apply driven_invariant rare
    · exact ⟨start, Nat.zero_le _, .inl (Nat.le_refl _)⟩
    · rintro t j running ⟨holds, bound, earlier⟩
      refine ⟨ranked.keeps holds running _, ?_⟩
      rw [List.length_cons, List.countP_cons]
      cases again : repeats ⟨j, respond j⟩ with
      | true =>
        have before : 2 * t.log.countP repeats ≤ t.log.length := by
          refine earlier.resolve_right fun settled => ?_
          have once := settled j running
          rw [again] at once
          cases once
        rw [if_pos rfl]
        exact ⟨by omega, .inr fun j' next => settles holds running again next⟩
      | false =>
        rw [if_neg Bool.false_ne_true]
        exact ⟨by omega, .inl (by omega)⟩
  cases running : m.job (m.driven respond ⟨o, []⟩ k).outcome with
  | none => rfl
  | some j =>
    obtain ⟨rs, same⟩ := driven_run m respond ⟨o, []⟩ k
    have length := driven_length running
    have bound := ranked.log_length_le start rs
    rw [← same] at bound
    have few := all.2.1
    simp only [List.length_nil] at length
    omega

end Library.Reactive
