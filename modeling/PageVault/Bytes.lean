/-!
# Byte strings

Headers, keys, stored blobs and pages are finite byte strings.  They are kept as
lists, so that every operation below is a list function and every law about it
is a list law.

§1 cutting and padding · §2 exclusive or · §3 little- and big-endian numbers ·
§4 fixed-size blocks · §5 page numbers mixed into a key.
-/

namespace PageVault

abbrev Bytes : Type := List UInt8

namespace Bytes

/-! ## §1  Cutting and padding -/

/-- The first `len` bytes of `b`, or all of `b` followed by `pad` up to `len`. -/
def fit (len : Nat) (pad : UInt8) (b : Bytes) : Bytes :=
  b.take len ++ List.replicate (len - b.length) pad

@[simp] theorem length_fit (len : Nat) (pad : UInt8) (b : Bytes) :
    (fit len pad b).length = len := by
  simp only [fit, List.length_append, List.length_take, List.length_replicate]
  omega

theorem fit_length_self (pad : UInt8) (b : Bytes) : fit b.length pad b = b := by
  simp [fit]

def slice? (offset len : Nat) (b : Bytes) : Option Bytes :=
  if offset + len ≤ b.length then some ((b.drop offset).take len) else none

theorem length_of_slice?_eq_some {offset len : Nat} {b s : Bytes}
    (h : slice? offset len b = some s) : s.length = len := by
  simp only [slice?] at h
  split at h
  · cases h
    simp only [List.length_take, List.length_drop]
    omega
  · cases h

/-- Every byte is zero; in particular the empty string is blank. -/
def isBlank (b : Bytes) : Bool :=
  b.all (· == 0)

def everySecond : Bytes → Bytes
  | [] => []
  | [x] => [x]
  | x :: _ :: rest => x :: everySecond rest

def trimZeros (b : Bytes) : Bytes :=
  (b.reverse.dropWhile (· == 0)).reverse

/-! ## §2  Exclusive or -/

/-- Bytewise exclusive or; the result is as long as the shorter argument. -/
def xor (a b : Bytes) : Bytes :=
  List.zipWith (· ^^^ ·) a b

@[simp] theorem length_xor (a b : Bytes) :
    (xor a b).length = min a.length b.length := by
  simp [xor]

@[simp] theorem xor_nil_left (b : Bytes) : xor [] b = [] := rfl

@[simp] theorem xor_cons_cons (x y : UInt8) (a b : Bytes) :
    xor (x :: a) (y :: b) = (x ^^^ y) :: xor a b := rfl

/-- A mask applied twice cancels, on strings the mask covers. -/
theorem xor_xor_cancel_right : ∀ (a m : Bytes), a.length ≤ m.length →
    xor (xor a m) m = a
  | [], _, _ => rfl
  | x :: a, [], h => by simp at h
  | x :: a, y :: m, h => by
      rw [xor_cons_cons, xor_cons_cons, xor_xor_cancel_right a m (by simpa using h),
        UInt8.xor_assoc, UInt8.xor_self, UInt8.xor_zero]

/-- The `n` bytes obtained by repeating `pattern` from its start. -/
def cycle (pattern : Bytes) (n : Nat) : Bytes :=
  (List.range n).map fun i => pattern.getD (i % pattern.length) 0

@[simp] theorem length_cycle (pattern : Bytes) (n : Nat) :
    (cycle pattern n).length = n := by
  simp [cycle]

/-! ## §3  Numbers -/

/-- The low `width` bytes of `n`, least significant first. -/
def ofNatLE : (width : Nat) → (n : Nat) → Bytes
  | 0, _ => []
  | width + 1, n => UInt8.ofNat n :: ofNatLE width (n / 256)

def ofNatBE (width n : Nat) : Bytes :=
  (ofNatLE width n).reverse

/-- The number whose bytes, least significant first, are `b`. -/
def toNatLE : Bytes → Nat
  | [] => 0
  | x :: b => x.toNat + 256 * toNatLE b

@[simp] theorem length_ofNatLE : ∀ width n, (ofNatLE width n).length = width
  | 0, _ => rfl
  | width + 1, n => by rw [ofNatLE, List.length_cons, length_ofNatLE width]

@[simp] theorem length_ofNatBE (width n : Nat) : (ofNatBE width n).length = width := by
  simp [ofNatBE]

theorem ofNatLE_toNatLE : ∀ b : Bytes, ofNatLE b.length (toNatLE b) = b
  | [] => rfl
  | x :: b => by
      have hx := x.toNat_lt
      have hd : (x.toNat + 256 * toNatLE b) / 256 = toNatLE b := by omega
      have hm : UInt8.ofNat (x.toNat + 256 * toNatLE b) = x := by
        apply UInt8.toNat_inj.1
        simp only [UInt8.toNat_ofNat']
        omega
      rw [List.length_cons, toNatLE, ofNatLE, hd, hm, ofNatLE_toNatLE b]

/-- The two bytes of a 16-bit number, least significant first. -/
def le16 (n : UInt16) : Bytes :=
  ofNatLE 2 n.toNat

def le32 (n : UInt32) : Bytes :=
  ofNatLE 4 n.toNat

/-- Reading undoes writing. -/
theorem toNatLE_le16 (n : UInt16) : toNatLE (le16 n) = n.toNat := by
  have hn := n.toNat_lt
  simp only [le16, ofNatLE, toNatLE, UInt8.toNat_ofNat']
  omega

@[inherit_doc toNatLE_le16]
theorem toNatLE_le32 (n : UInt32) : toNatLE (le32 n) = n.toNat := by
  have hn := n.toNat_lt
  simp only [le32, ofNatLE, toNatLE, UInt8.toNat_ofNat']
  omega

@[simp] theorem length_le16 (n : UInt16) : (le16 n).length = 2 := length_ofNatLE 2 _

@[simp] theorem length_le32 (n : UInt32) : (le32 n).length = 4 := length_ofNatLE 4 _

/-! ## §4  Blocks -/

def blocks (n : Nat) : (count : Nat) → Bytes → List Bytes
  | 0, _ => []
  | count + 1, b => b.take n :: blocks n count (b.drop n)

@[simp] theorem length_blocks (n : Nat) : ∀ count b, (blocks n count b).length = count
  | 0, _ => rfl
  | count + 1, b => by rw [blocks, List.length_cons, length_blocks n count]

/-- Every whole block of `b`; a shorter rest is left out. -/
def wholeBlocks (n : Nat) (b : Bytes) : List Bytes :=
  blocks n (b.length / n) b

/-! ## §5  Page numbers -/

/-- The string with `mask` mixed into it at `offset`.  A string that ends before
the mask does is first extended with zeros, so the mask always lands in full. -/
def xorAt (offset : Nat) (mask : Bytes) (b : Bytes) : Bytes :=
  let whole := if b.length < offset + mask.length then fit (offset + mask.length) 0 b else b
  whole.take offset ++ xor ((whole.drop offset).take mask.length) mask
    ++ whole.drop (offset + mask.length)

/-- A key for one page: the page number, least significant byte first, is mixed
into the four bytes at `offset`. -/
def withPageNumber (offset : Nat) (page : UInt32) (key : Bytes) : Bytes :=
  xorAt offset (le32 page) key

theorem length_xorAt (offset : Nat) (mask b : Bytes) :
    (xorAt offset mask b).length = max b.length (offset + mask.length) := by
  simp only [xorAt]
  split <;>
    simp only [List.length_append, length_xor, List.length_take, List.length_drop, length_fit] <;>
    omega

theorem length_withPageNumber (offset : Nat) (page : UInt32) (key : Bytes) :
    (withPageNumber offset page key).length = max key.length (offset + 4) := by
  rw [withPageNumber, length_xorAt, length_le32]

end Bytes

end PageVault
