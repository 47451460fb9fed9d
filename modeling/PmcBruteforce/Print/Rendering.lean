import Mathlib.Algebra.Group.Nat.Defs
import PmcBruteforce.Print.Vsnprintf

/-! The text a format stands for: its pieces, and what they print with given arguments. No
buffer limits it. -/
namespace PmcBruteforce

open Library (text)

/-- What one character or one conversion of a format prints. -/
inductive Piece where
  | literal (char : UInt16)
  | string
  | hex (digits : Nat)
  deriving DecidableEq, Repr

def modifierChars : List UInt16 := [wide 'l', wide 'L', wide 'h', wide 'H']

/-- The last modifier decides. -/
def width (modifiers : List UInt16) : Nat :=
  match modifiers.getLast? with
  | none => 8
  | some modifier => if modifier = wide 'l' ∨ modifier = wide 'L' then 16 else 2

def conversion (modifiers : List UInt16) (char : UInt16) : Piece :=
  if char = wide 's' ∨ char = wide 'S' then .string
  else if char = wide 'x' ∨ char = wide 'X' then .hex (width modifiers)
  else .literal char

mutual

/-- The pieces of a format, given without its NUL. -/
def pieces : (fmt : List UInt16) → List Piece
  | [] => []
  | char :: fmt => if char = wide '%' then directive [] fmt else .literal char :: pieces fmt

/-- Behind a `%` and modifiers: one that is not finished prints nothing. -/
def directive (modifiers : List UInt16) : (fmt : List UInt16) → List Piece
  | [] => []
  | char :: fmt =>
    if char ∈ modifierChars then directive (modifiers ++ [char]) fmt
    else conversion modifiers char :: pieces fmt

end

def hexDigit (digit : Nat) : UInt16 :=
  if digit < 10 then wide '0' + UInt16.ofNat digit else wide 'A' + UInt16.ofNat (digit - 10)

/-- The last `n` hexadecimal digits of a number. -/
def hexDigits : (n : Nat) → (value : Nat) → List UInt16
  | 0, _ => []
  | n + 1, value => hexDigit (value / 16 ^ n % 16) :: hexDigits n value

/-- What a piece prints, and the arguments it leaves; nothing where the arguments do not match. -/
def Piece.print : Piece → List VaArg → Option (List UInt16 × List VaArg)
  | .literal char, varargs => some ([char], varargs)
  | .string, .pointer str :: varargs => if 0 ∈ str then some (text 0 str, varargs) else none
  | .hex digits, .value slot :: varargs =>
    some (hexDigits digits (slot.toNat % 16 ^ digits), varargs)
  | _, _ => none

def render : List Piece → List VaArg → Option (List UInt16)
  | [], _ => some []
  | piece :: pieces, varargs => do
    let (chars, varargs) ← piece.print varargs
    let rest ← render pieces varargs
    some (chars ++ rest)

theorem render_cons {piece : Piece} {ps : List Piece} {varargs : List VaArg} {chars : List UInt16}
    (rendered : render (piece :: ps) varargs = some chars) :
    ∃ front varargs' rest, piece.print varargs = some (front, varargs') ∧
      render ps varargs' = some rest ∧ chars = front ++ rest := by
  simp only [render, Option.bind_eq_bind, Option.bind_eq_some_iff] at rendered
  obtain ⟨⟨front, varargs'⟩, printed, rest, left, same⟩ := rendered
  exact ⟨front, varargs', rest, printed, left, (Option.some.inj same).symm⟩

theorem print_pointer (str : List UInt16) (varargs : List VaArg) :
    Piece.string.print (.pointer str :: varargs) =
      if 0 ∈ str then some (text 0 str, varargs) else none := rfl

theorem print_string {varargs varargs' : List VaArg} {front : List UInt16}
    (printed : Piece.string.print varargs = some (front, varargs')) :
    ∃ rest, varargs = .pointer (front ++ 0 :: rest) :: varargs' ∧ 0 ∉ front := by
  cases varargs with
  | nil => cases printed
  | cons vararg varargs =>
    cases vararg with
    | value slot => cases printed
    | pointer str =>
      rw [print_pointer] at printed
      by_cases terminated : 0 ∈ str
      · obtain ⟨front', rest, rfl, noNul, same⟩ := Library.split_at_terminator terminated
        rw [if_pos terminated, same] at printed
        obtain ⟨rfl, rfl⟩ := Prod.mk.inj (Option.some.inj printed)
        exact ⟨rest, rfl, noNul⟩
      · rw [if_neg terminated] at printed
        cases printed

theorem print_hex {digits : Nat} {varargs varargs' : List VaArg} {front : List UInt16}
    (printed : (Piece.hex digits).print varargs = some (front, varargs')) :
    ∃ slot, varargs = .value slot :: varargs' ∧
      front = hexDigits digits (slot.toNat % 16 ^ digits) := by
  cases varargs with
  | nil => cases printed
  | cons vararg varargs =>
    cases vararg with
    | value slot =>
      obtain ⟨rfl, rfl⟩ := Prod.mk.inj (Option.some.inj printed)
      exact ⟨slot, rfl, rfl⟩
    | pointer str => cases printed

theorem width_append {modifiers : List UInt16} {char : UInt16} :
    width (modifiers ++ [char]) = if char = wide 'l' ∨ char = wide 'L' then 16 else 2 := by
  rw [width, List.getLast?_concat]

theorem width_cases (modifiers : List UInt16) :
    width modifiers = 8 ∨ width modifiers = 16 ∨ width modifiers = 2 := by
  unfold width
  split
  · exact .inl rfl
  · split
    · exact .inr (.inl rfl)
    · exact .inr (.inr rfl)

theorem hexDigits_mod {n k : Nat} (within : n ≤ k) (value : Nat) :
    hexDigits n (value % 16 ^ k) = hexDigits n value := by
  induction n with
  | zero => rfl
  | succ n ih =>
    have digit : value % 16 ^ k / 16 ^ n % 16 = value / 16 ^ n % 16 := by
      obtain ⟨more, rfl⟩ := Nat.exists_eq_add_of_le within
      rw [Nat.add_assoc, Nat.pow_add, Nat.mod_mul_right_div_self, Nat.add_comm 1, Nat.pow_succ,
        Nat.mod_mul_left_mod]
    rw [hexDigits, hexDigits, digit, ih (Nat.le_of_succ_le within)]

theorem hexDigit_not_nul : ∀ digit < 16, hexDigit digit ≠ 0 := by decide

theorem hexDigits_no_nul (n value : Nat) : 0 ∉ hexDigits n value := by
  induction n with
  | zero => exact List.not_mem_nil
  | succ n ih =>
    rw [hexDigits, List.mem_cons]
    exact not_or_intro (hexDigit_not_nul _ (Nat.mod_lt _ (by decide))).symm ih

theorem pieces_no_nul {fmt : List UInt16} (noNul : 0 ∉ fmt) :
    .literal 0 ∉ pieces fmt ∧ ∀ modifiers, .literal 0 ∉ directive modifiers fmt := by
  induction fmt with
  | nil => exact ⟨List.not_mem_nil, fun _ => List.not_mem_nil⟩
  | cons char fmt ih =>
    have notNul : char ≠ 0 := fun zero => noNul (zero ▸ List.mem_cons_self)
    obtain ⟨loop, behind⟩ := ih fun member => noNul (List.mem_cons_of_mem _ member)
    constructor
    · rw [pieces]
      split
      · exact behind []
      · simpa [loop] using notNul.symm
    · intro modifiers
      rw [directive]
      split
      · exact behind _
      · have other : .literal 0 ≠ conversion modifiers char := by
          unfold conversion
          split
          · exact Piece.noConfusion
          · split
            · exact Piece.noConfusion
            · exact fun same => notNul (Piece.literal.inj same).symm
        rw [List.mem_cons]
        exact not_or_intro other loop

theorem print_no_nul {piece : Piece} (notNul : piece ≠ .literal 0) {varargs varargs' : List VaArg}
    {front : List UInt16} (printed : piece.print varargs = some (front, varargs')) :
    0 ∉ front := by
  cases piece with
  | literal char =>
    obtain ⟨rfl, rfl⟩ := Prod.mk.inj (Option.some.inj printed)
    rintro member
    exact notNul (congrArg Piece.literal (List.mem_singleton.mp member).symm)
  | string =>
    obtain ⟨-, -, noNul⟩ := print_string printed
    exact noNul
  | hex digits =>
    obtain ⟨-, -, rfl⟩ := print_hex printed
    exact hexDigits_no_nul _ _

theorem render_no_nul {ps : List Piece} (notNul : .literal 0 ∉ ps) {varargs : List VaArg}
    {chars : List UInt16} (rendered : render ps varargs = some chars) : 0 ∉ chars := by
  induction ps generalizing varargs chars with
  | nil =>
    obtain rfl := Option.some.inj rendered
    exact List.not_mem_nil
  | cons piece ps ih =>
    obtain ⟨front, varargs', rest, printed, left, rfl⟩ := render_cons rendered
    rw [List.mem_append]
    refine not_or_intro (print_no_nul ?_ printed) (ih ?_ left)
    · exact fun same => notNul (same ▸ List.mem_cons_self)
    · exact fun member => notNul (List.mem_cons_of_mem _ member)

end PmcBruteforce
