import PmcBruteforce.Machine.Build

/-! The two prefix scanners of instruction_execution_loop.c, loop by loop, and a reading of
the filter as a function of the byte string alone. -/
namespace PmcBruteforce

/-- A byte the code reads under a guard that keeps the index inside the buffer. -/
def byteAt (bytes : List UInt8) (i : Nat) : UInt8 := bytes.getD i 0

def isPrefix (mode : CpuMode) (byte nextByte : UInt8) : Bool :=
  -- Segment override prefixes
  if (byte &&& ~~~(0x26 ^^^ 0x3e)) == 0x26 then true
  -- REX
  else if mode == .mode64 && (byte &&& 0xf0) == 0x40 then true
  -- EVEX
  else if byte == 0x62 then mode == .mode64 || decide (0xc0 ≤ nextByte)
  -- Operand and address size, FS and GS, VEX, REPNE and REP
  else if (byte &&& 0xfe) ∈ [0x66, 0x64, 0xc4, 0xf2] then true
  -- LOCK
  else byte == 0xf0

/-- The while loop of `count_prefixes`, on the number of bytes below `length` not yet
looked at. The look-ahead stands under the guard of the source, which is always true:
`none` is a read past the end of the array. -/
def countPrefixesFrom (mode : CpuMode) (bytes : List UInt8) (length : Nat) :
    (remaining prefixes : Nat) → Option Nat
  | 0, prefixes => some prefixes
  | remaining + 1, prefixes => do
    let byte ← bytes[prefixes]?
    let nextByte ← if prefixes < length + 1 then bytes[prefixes + 1]? else some 0
    if isPrefix mode byte nextByte then
      -- VEX prefix, if present, is the last prefix
      if (byte &&& 0xfe) == 0xc4 then some (prefixes + 1)
      else countPrefixesFrom mode bytes length remaining (prefixes + 1)
    else some prefixes

def countPrefixes (mode : CpuMode) (bytes : List UInt8) (length : Nat) : Option Nat :=
  countPrefixesFrom mode bytes length length 0

def maxPrefixes : Nat := 1

/-- The flags of the filter that live from one loop iteration to the next. -/
structure PrefixFlags where
  segmentOverrideSeen : Bool := false
  operandSizeOverrideSeen : Bool := false
  addressSizeOverrideSeen : Bool := false
  lockSeen : Bool := false
  repneSeen : Bool := false
  repSeen : Bool := false
  rexSeen : Bool := false

structure FilterResult where
  invalid : Bool
  malformedInstructionExpectUd : Bool
  deriving DecidableEq, Repr

def FilterResult.accept : FilterResult := ⟨false, false⟩
def FilterResult.reject : FilterResult := ⟨true, false⟩

/-- The `if (evex_seen)` block at position `i`. -/
def evexBlock (bytes : List UInt8) (length i : Nat) : FilterResult :=
  if i + 3 ≥ length then .accept
  else if (byteAt bytes (i + 1) &&& 0b11110000) != 0b11110000 then .reject
  else if (byteAt bytes (i + 2) &&& 0b01111000) != 0 then .reject
  else if (byteAt bytes (i + 3) &&& 0b10011111) != 0b00001000 then .reject
  else .accept

/-- The `if (vex_seen)` block at position `i`, with the two flags the switch has set. -/
def vexBlock (bytes : List UInt8) (length i : Nat) (vexInvalid vexMalformed : Bool) :
    FilterResult :=
  if byteAt bytes i = 0xc4 ∧ i + 2 < length ∧
      ((byteAt bytes (i + 1) &&& 0b11100000) != 0b11100000 ∨
        (byteAt bytes (i + 2) &&& 0b01111000) != 0b01111000) then .reject
  else if byteAt bytes i = 0xc5 ∧ i + 1 < length ∧
      (byteAt bytes (i + 1) &&& 0b11111000) != 0b11111000 then .reject
  else ⟨vexInvalid, vexMalformed⟩

inductive SwitchLabel where
  | segmentOverride | evex | operandSizeOverride | addressSizeOverride | lock | repne | rep
  | vex | other
  deriving DecidableEq, Repr

def switchLabel (byte : UInt8) : SwitchLabel :=
  if byte ∈ [0x26, 0x2e, 0x36, 0x3e, 0x64, 0x65] then .segmentOverride
  else if byte = 0x62 then .evex
  else if byte = 0x66 then .operandSizeOverride
  else if byte = 0x67 then .addressSizeOverride
  else if byte = 0xf0 then .lock
  else if byte = 0xf2 then .repne
  else if byte = 0xf3 then .rep
  else if byte = 0xc4 ∨ byte = 0xc5 then .vex
  else .other

/-- The for loop of `contains_invalid_count_of_prefixes`. `proceed` is what a case does with
a prefix that may be followed by others, up to the end of the loop body. -/
def scanPrefixes (mode : CpuMode) (bytes : List UInt8) (length : Nat) :
    (remaining i : Nat) → PrefixFlags → FilterResult
  | 0, _, _ => .accept
  | remaining + 1, i, flags =>
    let byte := byteAt bytes i
    let proceed (seen : Bool) (flags' : PrefixFlags) : FilterResult :=
      if seen then .reject
      else if i ≥ maxPrefixes then .reject
      else scanPrefixes mode bytes length remaining (i + 1) flags'
    match switchLabel byte with
    | .segmentOverride =>
      proceed (flags.rexSeen || flags.segmentOverrideSeen)
        { flags with segmentOverrideSeen := true }
    | .evex =>
      -- May be BOUND instruction
      if mode ≠ .mode64 ∧ (i + 1 = length ∨ byteAt bytes (i + 1) < 0xc0) then .accept
      else if i ≥ maxPrefixes then .reject
      else evexBlock bytes length i
    | .operandSizeOverride =>
      proceed (flags.rexSeen || flags.operandSizeOverrideSeen)
        { flags with operandSizeOverrideSeen := true }
    | .addressSizeOverride =>
      proceed (flags.rexSeen || flags.addressSizeOverrideSeen)
        { flags with addressSizeOverrideSeen := true }
    | .lock => proceed (flags.rexSeen || flags.lockSeen) { flags with lockSeen := true }
    | .repne => proceed (flags.rexSeen || flags.repneSeen) { flags with repneSeen := true }
    | .rep => proceed (flags.rexSeen || flags.repSeen) { flags with repSeen := true }
    | .vex =>
      -- LDS/LES instruction
      if mode ≠ .mode64 ∧ (i + 1 ≥ length ∨ byteAt bytes (i + 1) < 0xc0) then .accept
      else if i ≥ maxPrefixes then .reject
      else
        let vexInvalid := (byte == 0xc4 && flags.rexSeen) || flags.operandSizeOverrideSeen ||
          flags.repSeen || flags.repneSeen
        let vexMalformed := !vexInvalid && ((byte == 0xc5 && flags.rexSeen) || flags.lockSeen)
        vexBlock bytes length i vexInvalid vexMalformed
    | .other =>
      if mode = .mode64 ∧ (byte &&& 0xf0) = 0x40 then
        proceed flags.rexSeen { flags with rexSeen := true }
      else .accept

def containsInvalidCountOfPrefixes (mode : CpuMode) (bytes : List UInt8) (length : Nat) :
    FilterResult :=
  scanPrefixes mode bytes length length 0 {}

/-- The filter applied to a byte string at its own length. -/
def rejectedByFilter (mode : CpuMode) (s : List UInt8) : Bool :=
  (containsInvalidCountOfPrefixes mode s s.length).invalid

end PmcBruteforce
