import PageVault.Digest.Message

/-!
# Whirlpool

The state is eight rows of eight bytes, a row being one word with its first byte
on top.  A block is encrypted with the old state as key, and old state, block and
ciphertext are combined by exclusive or.

One round substitutes every byte, moves column `j` down by `j` rows, multiplies
each row with a fixed matrix over `GF(2^8)` and adds a round key.  Every row of
the matrix is the one above it, turned by one place, so one table (`product`)
holds the product of each byte with the first row, and turning its words gives
the others.
-/

namespace PageVault.Digest.Whirlpool

set_option maxRecDepth 4000 in
def substitution : ByteTable UInt8 :=
  #v[
    0x18, 0x23, 0xC6, 0xE8, 0x87, 0xB8, 0x01, 0x4F, 0x36, 0xA6, 0xD2, 0xF5, 0x79, 0x6F, 0x91, 0x52,
    0x60, 0xBC, 0x9B, 0x8E, 0xA3, 0x0C, 0x7B, 0x35, 0x1D, 0xE0, 0xD7, 0xC2, 0x2E, 0x4B, 0xFE, 0x57,
    0x15, 0x77, 0x37, 0xE5, 0x9F, 0xF0, 0x4A, 0xDA, 0x58, 0xC9, 0x29, 0x0A, 0xB1, 0xA0, 0x6B, 0x85,
    0xBD, 0x5D, 0x10, 0xF4, 0xCB, 0x3E, 0x05, 0x67, 0xE4, 0x27, 0x41, 0x8B, 0xA7, 0x7D, 0x95, 0xD8,
    0xFB, 0xEE, 0x7C, 0x66, 0xDD, 0x17, 0x47, 0x9E, 0xCA, 0x2D, 0xBF, 0x07, 0xAD, 0x5A, 0x83, 0x33,
    0x63, 0x02, 0xAA, 0x71, 0xC8, 0x19, 0x49, 0xD9, 0xF2, 0xE3, 0x5B, 0x88, 0x9A, 0x26, 0x32, 0xB0,
    0xE9, 0x0F, 0xD5, 0x80, 0xBE, 0xCD, 0x34, 0x48, 0xFF, 0x7A, 0x90, 0x5F, 0x20, 0x68, 0x1A, 0xAE,
    0xB4, 0x54, 0x93, 0x22, 0x64, 0xF1, 0x73, 0x12, 0x40, 0x08, 0xC3, 0xEC, 0xDB, 0xA1, 0x8D, 0x3D,
    0x97, 0x00, 0xCF, 0x2B, 0x76, 0x82, 0xD6, 0x1B, 0xB5, 0xAF, 0x6A, 0x50, 0x45, 0xF3, 0x30, 0xEF,
    0x3F, 0x55, 0xA2, 0xEA, 0x65, 0xBA, 0x2F, 0xC0, 0xDE, 0x1C, 0xFD, 0x4D, 0x92, 0x75, 0x06, 0x8A,
    0xB2, 0xE6, 0x0E, 0x1F, 0x62, 0xD4, 0xA8, 0x96, 0xF9, 0xC5, 0x25, 0x59, 0x84, 0x72, 0x39, 0x4C,
    0x5E, 0x78, 0x38, 0x8C, 0xD1, 0xA5, 0xE2, 0x61, 0xB3, 0x21, 0x9C, 0x1E, 0x43, 0xC7, 0xFC, 0x04,
    0x51, 0x99, 0x6D, 0x0D, 0xFA, 0xDF, 0x7E, 0x24, 0x3B, 0xAB, 0xCE, 0x11, 0x8F, 0x4E, 0xB7, 0xEB,
    0x3C, 0x81, 0x94, 0xF7, 0xB9, 0x13, 0x2C, 0xD3, 0xE7, 0x6E, 0xC4, 0x03, 0x56, 0x44, 0x7F, 0xA9,
    0x2A, 0xBB, 0xC1, 0x53, 0xDC, 0x0B, 0x9D, 0x6C, 0x31, 0x74, 0xF6, 0x46, 0xAC, 0x89, 0x14, 0xE1,
    0x16, 0x3A, 0x69, 0x09, 0x70, 0xB6, 0xD0, 0xED, 0xCC, 0x42, 0x98, 0xA4, 0x28, 0x5C, 0xF8, 0x86
  ]

/-- The product of a byte with the polynomial `x`, modulo `x^8 + x^4 + x^3 + x^2 + 1`. -/
def double (b : UInt8) : UInt8 :=
  if b < 0x80 then b <<< 1 else (b <<< 1) ^^^ 0x1D

/-- The product of the substitute of a byte with the first row of the matrix,
which is `1, 1, 4, 1, 8, 5, 2, 9`. -/
def product (b : UInt8) : UInt64 :=
  let s1 := substitution.entry b
  let s2 := double s1
  let s4 := double s2
  let s8 := double s4
  [s1, s1, s4, s1, s8, s4 ^^^ s1, s2, s8 ^^^ s1].foldl
    (fun w x => (w <<< 8) ||| x.toUInt64) 0

/-- All products. -/
def products : ByteTable UInt64 :=
  ByteTable.ofFn product

/-- Eight rows. -/
abbrev Rows : Type := Vector UInt64 8

/-- Row `i` of the substituted, shifted and multiplied state. -/
def mixedRow (rows : Rows) (i : Fin 8) : UInt64 :=
  let part (j : Fin 8) : UInt64 :=
    products.entry ((rows.get (i - j)) >>> (56 - 8 * j.val.toUInt64)).toUInt8
  part 0 ^^^ rotr64 (part 1) 8 ^^^ rotr64 (part 2) 16 ^^^ rotr64 (part 3) 24
    ^^^ rotr64 (part 4) 32 ^^^ rotr64 (part 5) 40 ^^^ rotr64 (part 6) 48
    ^^^ rotr64 (part 7) 56

/-- Rowwise exclusive or. -/
def xorRows (a b : Rows) : Rows :=
  Vector.zipWith (· ^^^ ·) a b

/-- One round with the given round key. -/
def round (key rows : Rows) : Rows :=
  xorRows (Vector.ofFn (mixedRow rows)) key

/-- The constant of round `r`: eight entries of the substitution in its first row. -/
def constant (r : Nat) : Rows :=
  let first := (List.range 8).foldl
    (fun (w : UInt64) i =>
      (w <<< 8) ||| (substitution.entry (UInt8.ofNat (8 * r + i))).toUInt64) 0
  #v[first, 0, 0, 0, 0, 0, 0, 0]

/-- The constants of all ten rounds. -/
def constants : List Rows :=
  (List.range 10).map constant

def compress (state block : Rows) : Rows :=
  let cipher := constants.foldl
    (fun (kx : Rows × Rows) c =>
      let key := round c kx.1
      (key, round key kx.2))
    (state, xorRows block state)
  xorRows (xorRows cipher.2 state) block

/-- A block of 64 bytes as rows. -/
def rowsOf (block : Bytes) : Rows :=
  let words := words64BE block
  Vector.ofFn fun i => words.getD i.val 0

def hash (m : Bytes) : Bytes :=
  let state := (blocksBE 64 32 m).foldl (fun s b => compress s (rowsOf b)) (Vector.replicate 8 0)
  state.toList.flatMap bytes64BE

@[simp] theorem length_hash (m : Bytes) : (hash m).length = 64 := by
  simp [hash, List.length_flatMap, List.map_const']

end PageVault.Digest.Whirlpool
