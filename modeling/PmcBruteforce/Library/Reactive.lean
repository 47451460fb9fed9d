import Mathlib.Data.List.Induction

/-! A program that hands out a job, waits for the response and decides on what to do next,
against any sequence of responses. The trace keeps every job with its response, the
newest first. -/
namespace Library

structure Reactive (J R O : Type) where
  handle : J → R → O
  job : O → Option J

namespace Reactive

variable {J R O : Type}

structure Event (J R : Type) where
  job : J
  response : R

structure Trace (J R O : Type) where
  outcome : O
  log : List (Event J R)

def step (m : Reactive J R O) (t : Trace J R O) (r : R) : Trace J R O :=
  match m.job t.outcome with
  | none => t
  | some j => ⟨m.handle j r, ⟨j, r⟩ :: t.log⟩

def run (m : Reactive J R O) (t : Trace J R O) (rs : List R) : Trace J R O := rs.foldl m.step t

theorem run_append (m : Reactive J R O) (t : Trace J R O) (xs ys : List R) :
    m.run t (xs ++ ys) = m.run (m.run t xs) ys := List.foldl_append

theorem step_running {m : Reactive J R O} {t : Trace J R O} {j : J} (h : m.job t.outcome = some j)
    (r : R) : m.step t r = ⟨m.handle j r, ⟨j, r⟩ :: t.log⟩ := by
  simp only [step, h]

theorem step_stopped {m : Reactive J R O} {t : Trace J R O} (h : m.job t.outcome = none) (r : R) :
    m.step t r = t := by
  simp only [step, h]

theorem run_stopped {m : Reactive J R O} {t : Trace J R O} (h : m.job t.outcome = none)
    (rs : List R) : m.run t rs = t := by
  induction rs with
  | nil => rfl
  | cons r rs ih =>
    have first : m.run t (r :: rs) = m.run (m.step t r) rs := rfl
    rw [first, step_stopped h, ih]

/-- The invariant rule: what holds at the start and is kept by each response to a job
holds after every run. -/
theorem run_invariant {m : Reactive J R O} (P : Trace J R O → Prop) {t : Trace J R O}
    (start : P t)
    (keeps : ∀ t j r, m.job t.outcome = some j → P t →
      P ⟨m.handle j r, ⟨j, r⟩ :: t.log⟩)
    (rs : List R) : P (m.run t rs) := by
  induction rs generalizing t with
  | nil => exact start
  | cons r rs ih =>
    apply ih
    cases h : m.job t.outcome with
    | none =>
      rw [step_stopped h]
      exact start
    | some j =>
      rw [step_running h]
      exact keeps t j r h start

/-- Each event of the log was the one at hand after some of the responses. -/
theorem mem_log {m : Reactive J R O} {t : Trace J R O} (fresh : t.log = []) {rs : List R}
    {e : Event J R} (member : e ∈ (m.run t rs).log) :
    ∃ before, m.job (m.run t before).outcome = some e.job := by
  induction rs using List.reverseRecOn with
  | nil =>
    have none : e ∈ t.log := member
    rw [fresh] at none
    cases none
  | append_singleton rs r ih =>
    rw [run_append] at member
    change e ∈ (m.step (m.run t rs) r).log at member
    cases running : m.job (m.run t rs).outcome with
    | none =>
      rw [step_stopped running] at member
      exact ih member
    | some j =>
      rw [step_running running] at member
      rcases List.mem_cons.mp member with rfl | member
      · exact ⟨rs, running⟩
      · exact ih member

def jobs (m : Reactive J R O) (t : Trace J R O) : List J :=
  (m.job t.outcome).toList ++ t.log.map Event.job

theorem chained {m : Reactive J R O} {t : Trace J R O} (fresh : t.log = []) (rs : List R)
    {newer older : List (Event J R)} {e e' : Event J R}
    (split : (m.run t rs).log = newer ++ e :: e' :: older) :
    m.job (m.handle e'.job e'.response) = some e.job := by
  let linked : Trace J R O → Prop := fun u =>
    (∀ e older, u.log = e :: older → u.outcome = m.handle e.job e.response) ∧
    ∀ newer e e' older, u.log = newer ++ e :: e' :: older →
      m.job (m.handle e'.job e'.response) = some e.job
  have all : linked (m.run t rs) := by
    apply run_invariant linked
    · constructor
      · intro e older split
        rw [fresh] at split
        cases split
      · intro newer e e' older split
        rw [fresh] at split
        cases newer <;> cases split
    · rintro u j r running ⟨latest, earlier⟩
      constructor
      · intro e older split
        obtain ⟨rfl, rfl⟩ := List.cons.inj split
        rfl
      · intro newer e e' older split
        cases newer with
        | nil =>
          obtain ⟨rfl, rest⟩ := List.cons.inj split
          rw [← latest e' older rest]
          exact running
        | cons first newer => exact earlier newer e e' older (List.cons.inj split).2
  exact all.2 newer e e' older split

/-- The simulation rule. Where each response to a job of one program can be matched with a
response to the job of another, so that the outcomes stay related, every run of the first
has a run of the second beside it, event by event. -/
theorem simulated {J' R' O' : Type} {m : Reactive J R O} {m' : Reactive J' R' O'}
    (related : O → O' → Prop) (matched : Event J R → Event J' R' → Prop) (allowed : R → Prop)
    (keeps : ∀ o o' j r, related o o' → m.job o = some j → allowed r →
      ∃ j' r', m'.job o' = some j' ∧ matched ⟨j, r⟩ ⟨j', r'⟩ ∧
        related (m.handle j r) (m'.handle j' r'))
    {t : Trace J R O} {u : Trace J' R' O'} (start : related t.outcome u.outcome)
    (logs : List.Forall₂ matched t.log u.log) {rs : List R} (all : ∀ r ∈ rs, allowed r) :
    ∃ rs', related (m.run t rs).outcome (m'.run u rs').outcome ∧
      List.Forall₂ matched (m.run t rs).log (m'.run u rs').log := by
  induction rs generalizing t u with
  | nil => exact ⟨[], start, logs⟩
  | cons r rs ih =>
    have later : ∀ r ∈ rs, allowed r := fun x member => all x (List.mem_cons_of_mem _ member)
    cases running : m.job t.outcome with
    | none =>
      rw [run_stopped running]
      exact ⟨[], start, logs⟩
    | some j =>
      obtain ⟨j', r', running', here, next⟩ := keeps t.outcome u.outcome j r start running
        (all r List.mem_cons_self)
      obtain ⟨rs', outcomes, events⟩ := ih (t := ⟨m.handle j r, ⟨j, r⟩ :: t.log⟩)
        (u := ⟨m'.handle j' r', ⟨j', r'⟩ :: u.log⟩) next (.cons here logs) later
      have first : m.run t (r :: rs) = m.run (m.step t r) rs := rfl
      have second : m'.run u (r' :: rs') = m'.run (m'.step u r') rs' := rfl
      rw [step_running running] at first
      rw [step_running running'] at second
      exact ⟨r' :: rs', by rw [first, second]; exact outcomes, by rw [first, second]; exact events⟩

end Reactive

end Library
