import PmcBruteforce.Library.LeastSuccessor
import PmcBruteforce.Prefix.Pruning
import PmcBruteforce.Search.Order

/-! The candidate that a processed instruction leaves is the least accepted string above it,
and the search is done when there is none. -/
namespace PmcBruteforce

open Library

variable {b : Build}

/-- The strings the filter keeps at their own length. -/
def Kept (mode : CpuMode) (s : List UInt8) : Prop :=
  (containsInvalidCountOfPrefixes mode s s.length).invalid = false

theorem not_kept_iff {mode : CpuMode} {s : List UInt8} :
    ¬ Kept mode s ↔ rejectedByFilter mode s = true :=
  iff_of_eq (Bool.not_eq_false _)

theorem kept_prefix_closed (mode : CpuMode) : PrefixClosed (Kept mode) := by
  intro s t kept
  apply Bool.eq_false_iff.mpr
  intro rejected
  exact Bool.eq_false_iff.mp kept (rejected_append rejected t)

theorem noneGreater_iff {mode : CpuMode} {start : Buffer} {k : Nat} :
    NoneGreater mode start k ↔ NoneAbove (Kept mode) (start.string k) (start.get k) := by
  refine forall₂_congr fun v _ => ?_
  exact not_kept_iff.symm

/-- The bytes the update of the pointer starts from. -/
def updatedString (s : State b) : List UInt8 := s.instructionBytes.string (firstIndex s + 1)

/-- A letter of a string of the buffer is the byte at its place. -/
theorem Buffer.split_eq {x : Buffer} {n : Nat} (bound : n ≤ 15) {q u : List UInt8} {y : UInt8}
    (split : x.string n = q ++ y :: u) :
    q.length < n ∧ q = x.string q.length ∧ y = x.get q.length := by
  have size := congrArg List.length split
  rw [x.string_length n bound, List.length_append, List.length_cons] at size
  have inside : q.length < n := by omega
  have other := x.string_split inside bound
  rw [split] at other
  obtain ⟨front, tail⟩ := List.append_inj other (x.string_length _ (by omega)).symm
  exact ⟨inside, front, (List.cons.inj tail).1⟩

theorem none_above_iff {mode : CpuMode} {start : Buffer} {first : Nat} (bound : first < 15) :
    (∀ k ≤ first, NoneGreater mode start k) ↔
      ∀ s, ¬ Successor (Kept mode) (start.string (first + 1)) s := by
  rw [← no_successor_iff (kept_prefix_closed mode)]
  constructor
  · intro none q y u split
    obtain ⟨inside, front, letter⟩ := Buffer.split_eq bound split
    rw [front, letter]
    exact noneGreater_iff.mp (none q.length (Nat.le_of_lt_succ inside))
  · intro none k low
    exact noneGreater_iff.mpr (none _ _ _ (start.string_split (Nat.lt_succ_of_le low) bound))

theorem NextCandidate.least {mode : CpuMode} {start : Buffer} {first : Nat} {l : PointerLoop}
    (h : NextCandidate mode start first l) (bound : first < 15) :
    LeastSuccessor (Kept mode) (start.string (first + 1))
      (l.instructionBytes.string (l.curByteIndex + 1)) := by
  have index := h.index
  have inside : l.curByteIndex < 15 := Nat.lt_of_le_of_lt index bound
  have split := start.string_split (Nat.lt_succ_of_le index) bound
  have width := start.string_length l.curByteIndex (Nat.le_of_lt inside)
  rw [Buffer.string_succ _ _ inside, h.before, split]
  apply least_successor (kept_prefix_closed mode) h.greater (h.keeps bound)
  · intro w above below
    exact not_kept_iff.mpr (h.skipped w above below)
  · intro q y u other later
    rw [← split] at other
    obtain ⟨within, front, letter⟩ := Buffer.split_eq bound other
    rw [front, letter]
    rw [width] at later
    exact noneGreater_iff.mp (h.passed q.length later (Nat.le_of_lt_succ within))

/-- Each counted instruction leaves the least accepted successor of the string its update
starts from, and ends the search exactly if there is none. -/
theorem next_candidate_least (p : Platform) (rs : List (Response b)) :
    ∀ e ∈ countedIn p (boot p rs),
      (∀ i s', handleException p e.job.state e.response = .execute i s' →
        LeastSuccessor (Kept b.cpuMode) (updatedString e.job.state)
          (s'.instructionBytes.string (s'.curByteIndex + 1))) ∧
      ((handleException p e.job.state e.response).isDone = true ↔
        ∀ s, ¬ Successor (Kept b.cpuMode) (updatedString e.job.state) s) := by
  intro e member
  obtain ⟨logged, count⟩ := List.mem_filter.mp member
  have searching := searching_of_counted (boot_log_consistent logged) count
  have bound : firstIndex e.job.state < 15 :=
    Nat.lt_of_lt_of_le searching.first_index_lt searching.length
  have handled := searching.handled p e.response
  generalize outcome : handleException p e.job.state e.response = o at handled
  cases handled with
  | grown fault short =>
    exact absurd count (not_counted_of_grown e.job.instruction fault short)
  | restarted notGrown unstable =>
    exact absurd count (not_counted_of_restarted e.job.instruction unstable)
  | saveFailed proceeds s' failed =>
    obtain ⟨-, s'', success⟩ := (searching.counted_iff p e.job.instruction e.response).mp count
    cases failed.symm.trans success
  | moved proceeds s'' l success next =>
    have least := next.least bound
    refine ⟨?_, ?_⟩
    · intro i s' same
      obtain ⟨-, rfl⟩ := Outcome.execute.inj same
      exact least
    · refine ⟨fun done => (by cases done), fun none => ?_⟩
      exact absurd least.successor (none _)
  | done proceeds s'' l success exhausted =>
    refine ⟨?_, ?_⟩
    · intro i s' same
      cases same
    · exact ⟨fun _ => (none_above_iff bound).mp exhausted, fun _ => rfl⟩

theorem first_candidate_least :
    ∃ e ∈ countedIn Platform.reliable oneRecordRun, ∃ i s',
      handleException Platform.reliable e.job.state e.response = .execute i s' ∧
        LeastSuccessor (Kept .mode64) (updatedString e.job.state)
          (s'.instructionBytes.string (s'.curByteIndex + 1)) := by
  have goes_on : (countedIn Platform.reliable oneRecordRun).any (fun e =>
      ((program Platform.reliable).job
        (handleException Platform.reliable e.job.state e.response)).isSome) = true := by
    decide +kernel
  obtain ⟨e, member, running⟩ := List.any_eq_true.mp goes_on
  cases next : handleException Platform.reliable e.job.state e.response with
  | execute i s' =>
    exact ⟨e, member, i, s', next, (next_candidate_least Platform.reliable _ e member).1 i s' next⟩
  | halt | outOfBounds | diverge =>
    rw [next] at running
    cases running

end PmcBruteforce
