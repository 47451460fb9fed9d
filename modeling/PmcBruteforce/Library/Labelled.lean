import Mathlib.Data.List.Basic

/-! A system whose next state is fixed by the label of the step. A path keeps the states it has
left with the labels it took there, the newest first. -/
namespace Library

variable {S L : Type}

inductive Path (step : S → L → S → Prop) (start : S) : List (S × L) → S → Prop where
  | nil : Path step start [] start
  | cons {history : List (S × L)} {s t : S} {l : L} (before : Path step start history s)
      (move : step s l t) : Path step start ((s, l) :: history) t

/-- A history that a path has, or that has one more step whose end is not known. -/
def History (step : S → L → S → Prop) (start : S) : List (S × L) → Prop
  | [] => True
  | (s, _) :: older => Path step start older s

def Deterministic (step : S → L → S → Prop) : Prop :=
  ∀ s l t u, step s l t → step s l u → t = u

variable {step : S → L → S → Prop} {start : S}

theorem Path.unique (deterministic : Deterministic step) {xs ys : List (S × L)} {s t : S}
    (h : Path step start xs s) (h' : Path step start ys t)
    (same : xs.map Prod.snd = ys.map Prod.snd) : xs = ys ∧ s = t := by
  induction h generalizing ys t with
  | nil =>
    cases h' with
    | nil => exact ⟨rfl, rfl⟩
    | cons => cases same
  | cons before move ih =>
    cases h' with
    | nil => cases same
    | cons before' move' =>
      obtain ⟨rfl, older⟩ := List.cons.inj same
      obtain ⟨rfl, rfl⟩ := ih before' older
      exact ⟨rfl, deterministic _ _ _ _ move move'⟩

/-- The labels of a history determine its states. -/
theorem History.unique (deterministic : Deterministic step) {xs ys : List (S × L)}
    (h : History step start xs) (h' : History step start ys)
    (same : xs.map Prod.snd = ys.map Prod.snd) : xs = ys := by
  cases xs with
  | nil => exact (List.map_eq_nil_iff.mp same.symm).symm
  | cons x xs =>
    cases ys with
    | nil => cases same
    | cons y ys =>
      obtain ⟨label, older⟩ := List.cons.inj same
      obtain ⟨rfl, state⟩ := Path.unique deterministic h h' older
      rw [Prod.ext state label]

end Library
