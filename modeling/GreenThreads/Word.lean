/-!
# GreenThreads.Word

The machine word that threads compute with: the argument and the result of
a routine, an exit value, a register.

A word has 64 bits and its arithmetic wraps.  Three readings of it reach the
outside: the low byte (what a process exits with), the low half as a signed
number (what the closing log line shows), and its hexadecimal text.
-/

namespace GreenThreads

/-- A 64-bit machine word. -/
abbrev Word := UInt64

namespace Word

/-- The largest word, which stands for a cancellation where a result is
passed on as a bare word. -/
def largest : Word := 0xffffffffffffffff

/-- The low eight bits. -/
def lowByte (w : Word) : Nat := w.toNat % 256

theorem lowByte_lt (w : Word) : lowByte w < 256 := Nat.mod_lt _ (by decide)

/-- The low thirty-two bits, read as a signed number. -/
def lowSigned (w : Word) : Int :=
  if w.toNat % 0x100000000 < 0x80000000 then (w.toNat % 0x100000000 : Nat)
  else (w.toNat % 0x100000000 : Nat) - 0x100000000

/-- All sixty-four bits, read as a signed number. -/
def signed (w : Word) : Int :=
  if w.toNat < 0x8000000000000000 then w.toNat else (w.toNat : Int) - 0x10000000000000000

/-- A word is read as a negative number exactly when its highest bit is set. -/
theorem signed_neg_iff (w : Word) : w.signed < 0 ↔ 0x8000000000000000 ≤ w.toNat := by
  have := w.toNat_lt
  unfold signed; split <;> omega

/-- The word in hexadecimal: `0x` and lower-case digits without leading
zeros. -/
def hex (w : Word) : String := "0x" ++ String.ofList (Nat.toDigits 16 w.toNat)

end Word

end GreenThreads
