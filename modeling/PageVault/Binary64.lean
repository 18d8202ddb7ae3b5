/-!
# Whole parts of binary64 numbers

A header stores its creation date as a binary64 number.  Only the whole part is
used, as a 32-bit integer: it is cut off toward zero, a number out of range becomes
the nearest bound, and one that is not a number becomes zero.  All of it is decided
on the 64 bits, in integers.
-/

namespace PageVault.Binary64

def exponent (bits : Nat) : Nat :=
  bits >>> 52 % 0x800

def fraction (bits : Nat) : Nat :=
  bits % 0x10000000000000

def isNegative (bits : Nat) : Bool :=
  bits >>> 63 % 2 == 1

/-- The whole part of the magnitude of a finite number, cut off at `2 ^ 31`. -/
def wholeMagnitude (bits : Nat) : Nat :=
  let e := exponent bits
  let m := 0x10000000000000 + fraction bits
  if e < 1023 then 0
  else if e < 1023 + 31 then m >>> (1075 - e)
  else 0x80000000

/-- The whole part as an integer of 32 bits. -/
def toInt32 (bits : Nat) : Int :=
  if exponent bits = 2047 ∧ fraction bits ≠ 0 then 0
  else if isNegative bits then -(wholeMagnitude bits : Int)
  else (min (wholeMagnitude bits) 0x7FFFFFFF : Nat)

/-- The whole part as an unsigned number, two's complement. -/
def toWord32 (bits : Nat) : Nat :=
  (toInt32 bits % 0x100000000).toNat

example : toInt32 0x40E3880000000000 = 40000 := by decide

example : toInt32 0xBFF8000000000000 = -1 := by decide

end PageVault.Binary64
