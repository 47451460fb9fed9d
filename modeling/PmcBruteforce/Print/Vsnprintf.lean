import PmcBruteforce.Library.Memory

/-! `vsnprintf` and `printf` of print.c. The format and the strings are the rest of the object
the pointer points into, so a read behind the end of one has no result; they are other objects
than the buffer. -/
namespace PmcBruteforce

open Library (store text)

def wide (c : Char) : UInt16 := UInt16.ofNat c.toNat

/-- One place of the `va_list`: eight bytes, of which `va_arg` takes as many as its type has. -/
inductive VaArg where
  | value (slot : UInt64)
  | pointer (str : List UInt16)
  deriving DecidableEq, Repr

structure Output where
  outBuffer : List UInt16
  outI : Nat
  deriving DecidableEq, Repr

def Output.append (out : Output) (char : UInt16) : Option Output := do
  let outBuffer ← store out.outBuffer out.outI char
  some ⟨outBuffer, out.outI + 1⟩

def Output.terminate (out : Output) : Option (List UInt16) := store out.outBuffer out.outI 0

def copyStr (outLength : Nat) : (str : List UInt16) → (out : Output) → Option Output
  | [], _ => none
  | char :: str, out =>
    if char ≠ 0 ∧ out.outI < outLength - 1 then do
      let out ← out.append char
      copyStr outLength str out
    else some out

def hexChars : List UInt16 := "0123456789ABCDEF".toList.map wide

def writeDigits (outLength : Nat) (value : UInt64) : (digit : Nat) → (out : Output) →
    Option Output
  | digit, out =>
    if out.outI < outLength - 1 then do
      let char ← hexChars[((value >>> UInt64.ofNat (digit * 4)) &&& 0xf).toNat]?
      let out ← out.append char
      match digit with
      | 0 => some out
      | digit + 1 => writeDigits outLength value digit out
    else some out

def readValue (digitIndex : Nat) (varargs : List VaArg) : Option (UInt64 × List VaArg) :=
  if digitIndex = 15 then
    match varargs with
    | .value slot :: varargs => some (slot, varargs)
    | _ => none
  else if digitIndex = 7 ∨ digitIndex = 1 then
    match varargs with
    | .value slot :: varargs => some (slot.toUInt32.toUInt64, varargs)
    | _ => none
  else some (0xbadf00d, varargs)

mutual

/-- The while loop with the format from `fmt_i` on, and the store behind it. -/
def vsnprintfLoop (outLength : Nat) : (fmt : List UInt16) → (out : Output) →
    (varargs : List VaArg) → Option (List UInt16)
  | fmt, out, varargs =>
    if out.outI < outLength - 1 then
      match fmt with
      | [] => none
      | char :: fmt =>
        if char = 0 then out.terminate
        else if char = wide '%' then recheckFmt outLength 7 fmt out varargs
        else do
          let out ← out.append char
          vsnprintfLoop outLength fmt out varargs
    else out.terminate

def recheckFmt (outLength : Nat) : (digitIndex : Nat) → (fmt : List UInt16) → (out : Output) →
    (varargs : List VaArg) → Option (List UInt16)
  | _, [], _, _ => none
  | digitIndex, char :: fmt, out, varargs =>
    if char = 0 then out.terminate
    else if char = wide 'S' ∨ char = wide 's' then
      match varargs with
      | .pointer str :: varargs => do
        let out ← copyStr outLength str out
        vsnprintfLoop outLength fmt out varargs
      | _ => none
    else if char = wide 'l' ∨ char = wide 'L' then recheckFmt outLength 15 fmt out varargs
    else if char = wide 'h' ∨ char = wide 'H' then recheckFmt outLength 1 fmt out varargs
    else if char = wide 'x' ∨ char = wide 'X' then do
      let (value, varargs) ← readValue digitIndex varargs
      let out ← writeDigits outLength value digitIndex out
      vsnprintfLoop outLength fmt out varargs
    else do
      let out ← out.append char
      vsnprintfLoop outLength fmt out varargs

end

def vsnprintf (outBuffer : List UInt16) (outLength : Nat) (fmt : List UInt16)
    (varargs : List VaArg) : Option (List UInt16) :=
  if outLength = 0 then some outBuffer else vsnprintfLoop outLength fmt ⟨outBuffer, 0⟩ varargs

def snprintf (outBuffer : List UInt16) (length : Nat) (fmt : List UInt16)
    (varargs : List VaArg) : Option (List UInt16) :=
  vsnprintf outBuffer length fmt varargs

/-- What is handed to OutputString. `garbage` is what the stack had in the place of `buffer`. -/
def printf (garbage : Vector UInt16 0x400) (fmt : List UInt16) (varargs : List VaArg) :
    Option (List UInt16) := do
  let buffer ← vsnprintf garbage.toList 0x400 fmt varargs
  if 0 ∈ buffer then some (text 0 buffer) else none

end PmcBruteforce
