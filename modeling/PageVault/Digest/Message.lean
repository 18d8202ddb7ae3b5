import PageVault.Bytes
import PageVault.ByteTable

/-!
# Messages in blocks

All digests but one share a shape: the message is padded to whole blocks, each
block is read as machine words, and a state is folded over the blocks.  Padding
is a single one bit, then zeros, then the length of the message in bits in a
field of fixed size; the digests differ in the sizes of block and field and in
the order of bytes.
-/

namespace PageVault

namespace Digest

/-- The zeros between the marker byte and the length field. -/
def zeroCount (block field length : Nat) : Nat :=
  (block - (length + 1 + field) % block) % block

/-- A message padded to whole blocks of `block` bytes.  `writeLength` writes the
number of bits into a field of `field` bytes. -/
def padded (block field : Nat) (writeLength : Nat → Nat → Bytes) (m : Bytes) : Bytes :=
  m ++ ((0x80 : UInt8) :: List.replicate (zeroCount block field m.length) 0)
    ++ writeLength field (8 * m.length)

/-- The blocks of a padded message whose length is written least significant byte first. -/
def blocksLE (block field : Nat) (m : Bytes) : List Bytes :=
  Bytes.wholeBlocks block (padded block field Bytes.ofNatLE m)

/-- The blocks of a padded message whose length is written most significant byte first. -/
def blocksBE (block field : Nat) (m : Bytes) : List Bytes :=
  Bytes.wholeBlocks block (padded block field Bytes.ofNatBE m)

/-! ## 32-bit words -/

/-- Bytes as words, least significant byte first. -/
def words32LE : Bytes → List UInt32
  | a :: b :: c :: d :: rest =>
      (a.toUInt32 ||| (b.toUInt32 <<< 8) ||| (c.toUInt32 <<< 16) ||| (d.toUInt32 <<< 24))
        :: words32LE rest
  | _ => []

/-- Bytes as words, most significant byte first. -/
def words32BE : Bytes → List UInt32
  | a :: b :: c :: d :: rest =>
      ((a.toUInt32 <<< 24) ||| (b.toUInt32 <<< 16) ||| (c.toUInt32 <<< 8) ||| d.toUInt32)
        :: words32BE rest
  | _ => []

/-- A word as bytes, least significant first. -/
def bytes32LE (w : UInt32) : Bytes :=
  [w.toUInt8, (w >>> 8).toUInt8, (w >>> 16).toUInt8, (w >>> 24).toUInt8]

/-- A word as bytes, most significant first. -/
def bytes32BE (w : UInt32) : Bytes :=
  [(w >>> 24).toUInt8, (w >>> 16).toUInt8, (w >>> 8).toUInt8, w.toUInt8]

/-- A word rotated left by `n` bits, for `0 < n < 32`. -/
@[inline] def rotl32 (w n : UInt32) : UInt32 :=
  (w <<< n) ||| (w >>> (32 - n))

/-! ## 64-bit words -/

/-- Bytes as words, most significant byte first. -/
def words64BE : Bytes → List UInt64
  | a :: b :: c :: d :: e :: f :: g :: h :: rest =>
      ((a.toUInt64 <<< 56) ||| (b.toUInt64 <<< 48) ||| (c.toUInt64 <<< 40)
        ||| (d.toUInt64 <<< 32) ||| (e.toUInt64 <<< 24) ||| (f.toUInt64 <<< 16)
        ||| (g.toUInt64 <<< 8) ||| h.toUInt64) :: words64BE rest
  | _ => []

/-- A word as bytes, most significant first. -/
def bytes64BE (w : UInt64) : Bytes :=
  [(w >>> 56).toUInt8, (w >>> 48).toUInt8, (w >>> 40).toUInt8, (w >>> 32).toUInt8,
    (w >>> 24).toUInt8, (w >>> 16).toUInt8, (w >>> 8).toUInt8, w.toUInt8]

/-- A word rotated right by `n` bits, for `0 < n < 64`. -/
@[inline] def rotr64 (w n : UInt64) : UInt64 :=
  (w >>> n) ||| (w <<< (64 - n))

/-! ## Lengths -/

/-- A padded message consists of whole blocks. -/
theorem length_padded_mod {block field : Nat} {writeLength : Nat → Nat → Bytes}
    (hw : ∀ n, (writeLength field n).length = field) (hb : 0 < block) (m : Bytes) :
    (padded block field writeLength m).length % block = 0 := by
  have h : (padded block field writeLength m).length
      = m.length + 1 + field + zeroCount block field m.length := by
    simp only [padded, List.length_append, List.length_cons, List.length_replicate, hw]
    omega
  rw [h, zeroCount]
  generalize m.length + 1 + field = used
  have hr := Nat.mod_lt used hb
  have hd := Nat.div_add_mod used block
  by_cases h0 : used % block = 0
  · rw [h0, Nat.sub_zero, Nat.mod_self, Nat.add_zero, h0]
  · rw [Nat.mod_eq_of_lt (by omega : block - used % block < block)]
    have hk : used + (block - used % block) = block * (used / block + 1) := by
      rw [Nat.mul_add, Nat.mul_one]
      omega
    rw [hk, Nat.mul_mod_right]

@[simp] theorem length_bytes32LE (w : UInt32) : (bytes32LE w).length = 4 := rfl

@[simp] theorem length_bytes32BE (w : UInt32) : (bytes32BE w).length = 4 := rfl

@[simp] theorem length_bytes64BE (w : UInt64) : (bytes64BE w).length = 8 := rfl

end Digest

end PageVault
