import PageVault.Bytes

/-!
# Base64

Binary attribute values are written in the standard alphabet, three bytes as
four symbols.  A last group of one or two bytes is padded with `=` to four
symbols, or not padded at all; its unused low bits are zero.  So every byte
string has exactly two written forms, which coincide when its length is a
multiple of three.
-/

namespace PageVault.Text.Base64

/-- The 64 symbols in the order of their values. -/
def alphabet : List Char :=
  "ABCDEFGHIJKLMNOPQRSTUVWXYZabcdefghijklmnopqrstuvwxyz0123456789+/".toList

def symbol (n : Nat) : Char :=
  if n < 26 then Char.ofNat (n + 65)
  else if n < 52 then Char.ofNat (n + 71)
  else if n < 62 then Char.ofNat (n - 4)
  else if n = 62 then '+'
  else '/'

def value? (c : Char) : Option Nat :=
  let n := c.toNat
  if 65 ≤ n ∧ n ≤ 90 then some (n - 65)
  else if 97 ≤ n ∧ n ≤ 122 then some (n - 71)
  else if 48 ≤ n ∧ n ≤ 57 then some (n + 4)
  else if c = '+' then some 62
  else if c = '/' then some 63
  else none

/-- The byte of a last group of two symbols, whose low four bits are unused. -/
def decodeOne (a b : Char) : Option Bytes := do
  let x ← value? a
  let y ← value? b
  if y % 16 = 0 then some [UInt8.ofNat (4 * x + y / 16)] else none

/-- The two bytes of a last group of three symbols, whose low two bits are unused. -/
def decodeTwo (a b c : Char) : Option Bytes := do
  let x ← value? a
  let y ← value? b
  let z ← value? c
  if z % 4 = 0 then
    some [UInt8.ofNat (4 * x + y / 16), UInt8.ofNat (16 * (y % 16) + z / 4)]
  else none

def decodeThree (a b c d : Char) : Option Bytes := do
  let x ← value? a
  let y ← value? b
  let z ← value? c
  let w ← value? d
  some [UInt8.ofNat (4 * x + y / 16), UInt8.ofNat (16 * (y % 16) + z / 4),
    UInt8.ofNat (64 * (z % 4) + w)]

/-- The bytes of a text of symbols, padded or not. -/
def decode : List Char → Option Bytes
  | [] => some []
  | [a, b] => decodeOne a b
  | [a, b, '=', '='] => decodeOne a b
  | [a, b, c] => decodeTwo a b c
  | [a, b, c, '='] => decodeTwo a b c
  | a :: b :: c :: d :: rest => do
      let group ← decodeThree a b c d
      let tail ← decode rest
      some (group ++ tail)
  | _ => none

def encodeUnpadded : Bytes → List Char
  | [] => []
  | [x] => [symbol (x.toNat / 4), symbol (16 * (x.toNat % 4))]
  | [x, y] =>
      [symbol (x.toNat / 4), symbol (16 * (x.toNat % 4) + y.toNat / 16),
        symbol (4 * (y.toNat % 16))]
  | x :: y :: z :: rest =>
      symbol (x.toNat / 4) :: symbol (16 * (x.toNat % 4) + y.toNat / 16)
        :: symbol (4 * (y.toNat % 16) + z.toNat / 64) :: symbol (z.toNat % 64)
        :: encodeUnpadded rest

/-- The written form padded to a multiple of four symbols. -/
def encode (b : Bytes) : List Char :=
  let text := encodeUnpadded b
  text ++ List.replicate ((4 - text.length % 4) % 4) '='

theorem map_symbol_range : (List.range 64).map symbol = alphabet := by
  decide +kernel

/-- Every six-bit value is read back from its symbol. -/
theorem value?_symbol : ∀ n < 64, value? (symbol n) = some n := by
  decide +kernel

end PageVault.Text.Base64
