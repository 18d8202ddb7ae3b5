/-!
# Numerals

Decimal numbers are read from attribute values, and a few error texts name a
field in hexadecimal.
-/

namespace PageVault.Text

def digit? (c : Char) : Option Nat :=
  if '0' ≤ c ∧ c ≤ '9' then some (c.toNat - '0'.toNat) else none

/-- The value of a string of decimal digits, read on from `acc`. -/
def digits? : (acc : Nat) → List Char → Option Nat
  | acc, [] => some acc
  | acc, c :: cs =>
      match digit? c with
      | some d => digits? (10 * acc + d) cs
      | none => none

/-- An unsigned decimal numeral: at least one digit, with a plus sign in front
or without.  Leading zeros are allowed, signs other than plus, blanks and digit
separators are not. -/
def decimal? : List Char → Option Nat
  | [] => none
  | ['+'] => none
  | '+' :: cs => digits? 0 cs
  | cs => digits? 0 cs

def word32? (s : String) : Option UInt32 :=
  match decimal? s.toList with
  | some n => if n < UInt32.size then some (UInt32.ofNat n) else none
  | none => none

def decimal (n : Nat) : String :=
  String.ofList (Nat.toDigits 10 n)

/-- An integer in decimal; a negative one has a minus sign in front. -/
def signedDecimal (n : Int) : String :=
  if n < 0 then "-" ++ decimal n.natAbs else decimal n.natAbs

/-- A number in hexadecimal: `0x`, then lower-case digits without padding. -/
def hex (n : Nat) : String :=
  "0x" ++ String.ofList (Nat.toDigits 16 n)

end PageVault.Text
