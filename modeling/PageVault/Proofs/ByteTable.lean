import Mathlib.Algebra.Group.Nat.Defs
import PageVault.ByteTable
import PageVault.Bytes

/-!
# Byte tables as numbers

A table of bytes is also a number whose digits to base 256 are its entries.  That
two tables undo each other is then checked with arithmetic on two numbers, and not by
walking 256 times along a list.
-/

namespace PageVault

/-- A byte of a string is a digit of its value. -/
theorem Bytes.toNat_getD : ∀ (b : Bytes) (i : Nat), (b.getD i 0).toNat = toNatLE b / 256 ^ i % 256
  | [], i => by simp [toNatLE]
  | x :: b, 0 => by
      simp [toNatLE]
  | x :: b, i + 1 => by
      have hx := x.toNat_lt
      have hd : (x.toNat + 256 * toNatLE b) / 256 = toNatLE b := by omega
      rw [List.getD_cons_succ, toNat_getD b i, toNatLE, Nat.pow_succ, Nat.mul_comm (256 ^ i),
        ← Nat.div_div_eq_div_mul, hd]

namespace ByteTable

/-- The number whose digits to base 256 are the entries. -/
def packed (t : ByteTable UInt8) : Nat :=
  Bytes.toNatLE t.toList

theorem toNat_entry (t : ByteTable UInt8) (x : UInt8) :
    (t.entry x).toNat = t.packed / 256 ^ x.toNat % 256 := by
  have hx : x.toNat < 256 := x.toNat_lt
  rw [packed, ← Bytes.toNat_getD]
  simp [entry, Vector.get, List.getD_eq_getElem?_getD, hx]

/-- One table undoes another if it does so digit by digit. -/
theorem entry_entry {s t : ByteTable UInt8}
    (h : ∀ n < 256, t.packed / 256 ^ (s.packed / 256 ^ n % 256) % 256 = n) (x : UInt8) :
    t.entry (s.entry x) = x := by
  apply UInt8.toNat_inj.1
  rw [toNat_entry, toNat_entry, h _ x.toNat_lt]

end ByteTable

end PageVault
