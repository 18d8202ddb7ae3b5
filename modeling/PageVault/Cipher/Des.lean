import PageVault.Cipher.Block

/-!
# DES and Triple DES

A Feistel network on two halves of 32 bits, between two permutations of the 64
bits of a block that undo each other.  Sixteen round keys of 48 bits are picked
from the 56 key bits that are not parity; parity is not checked and no key is
refused.

Bits are numbered from 1 at the most significant end, as the tables of the
standard number them.
-/

namespace PageVault.Des

/-- Bit `table[k]` of `x`, a number of `width` bits, for each `k` in turn. -/
def permute (width : Nat) (table : List Nat) (x : UInt64) : UInt64 :=
  table.foldl (fun y p => (y <<< 1) ||| ((x >>> (width - p).toUInt64) &&& 1)) 0

def initialTable : List Nat :=
  [
    58, 50, 42, 34, 26, 18, 10, 2, 60, 52, 44, 36, 28, 20, 12, 4,
    62, 54, 46, 38, 30, 22, 14, 6, 64, 56, 48, 40, 32, 24, 16, 8,
    57, 49, 41, 33, 25, 17, 9, 1, 59, 51, 43, 35, 27, 19, 11, 3,
    61, 53, 45, 37, 29, 21, 13, 5, 63, 55, 47, 39, 31, 23, 15, 7
  ]

/-- The permutation after the rounds, the inverse of the one before them. -/
def finalTable : List Nat :=
  [
    40, 8, 48, 16, 56, 24, 64, 32, 39, 7, 47, 15, 55, 23, 63, 31,
    38, 6, 46, 14, 54, 22, 62, 30, 37, 5, 45, 13, 53, 21, 61, 29,
    36, 4, 44, 12, 52, 20, 60, 28, 35, 3, 43, 11, 51, 19, 59, 27,
    34, 2, 42, 10, 50, 18, 58, 26, 33, 1, 41, 9, 49, 17, 57, 25
  ]

/-- The bits of a half, some of them twice, that meet a round key. -/
def expansionTable : List Nat :=
  [
    32, 1, 2, 3, 4, 5, 4, 5, 6, 7, 8, 9, 8, 9, 10, 11,
    12, 13, 12, 13, 14, 15, 16, 17, 16, 17, 18, 19, 20, 21, 20, 21,
    22, 23, 24, 25, 24, 25, 26, 27, 28, 29, 28, 29, 30, 31, 32, 1
  ]

def roundTable : List Nat :=
  [
    16, 7, 20, 21, 29, 12, 28, 17, 1, 15, 23, 26, 5, 18, 31, 10,
    2, 8, 24, 14, 32, 27, 3, 9, 19, 13, 30, 6, 22, 11, 4, 25
  ]

/-- The key bits that are not parity, in the order of the two halves. -/
def keyTable : List Nat :=
  [
    57, 49, 41, 33, 25, 17, 9, 1, 58, 50, 42, 34, 26, 18,
    10, 2, 59, 51, 43, 35, 27, 19, 11, 3, 60, 52, 44, 36,
    63, 55, 47, 39, 31, 23, 15, 7, 62, 54, 46, 38, 30, 22,
    14, 6, 61, 53, 45, 37, 29, 21, 13, 5, 28, 20, 12, 4
  ]

/-- The bits of the two turned key halves that make a round key. -/
def roundKeyTable : List Nat :=
  [
    14, 17, 11, 24, 1, 5, 3, 28, 15, 6, 21, 10, 23, 19, 12, 4,
    26, 8, 16, 7, 27, 20, 13, 2, 41, 52, 31, 37, 47, 55, 30, 40,
    51, 45, 33, 48, 44, 49, 39, 56, 34, 53, 46, 42, 50, 36, 29, 32
  ]

/-- The substitutions of six bits by four, row after row. -/
def substitutions : List (Array UInt64) :=
  [
    #[
      14, 4, 13, 1, 2, 15, 11, 8, 3, 10, 6, 12, 5, 9, 0, 7,
      0, 15, 7, 4, 14, 2, 13, 1, 10, 6, 12, 11, 9, 5, 3, 8,
      4, 1, 14, 8, 13, 6, 2, 11, 15, 12, 9, 7, 3, 10, 5, 0,
      15, 12, 8, 2, 4, 9, 1, 7, 5, 11, 3, 14, 10, 0, 6, 13
    ],
    #[
      15, 1, 8, 14, 6, 11, 3, 4, 9, 7, 2, 13, 12, 0, 5, 10,
      3, 13, 4, 7, 15, 2, 8, 14, 12, 0, 1, 10, 6, 9, 11, 5,
      0, 14, 7, 11, 10, 4, 13, 1, 5, 8, 12, 6, 9, 3, 2, 15,
      13, 8, 10, 1, 3, 15, 4, 2, 11, 6, 7, 12, 0, 5, 14, 9
    ],
    #[
      10, 0, 9, 14, 6, 3, 15, 5, 1, 13, 12, 7, 11, 4, 2, 8,
      13, 7, 0, 9, 3, 4, 6, 10, 2, 8, 5, 14, 12, 11, 15, 1,
      13, 6, 4, 9, 8, 15, 3, 0, 11, 1, 2, 12, 5, 10, 14, 7,
      1, 10, 13, 0, 6, 9, 8, 7, 4, 15, 14, 3, 11, 5, 2, 12
    ],
    #[
      7, 13, 14, 3, 0, 6, 9, 10, 1, 2, 8, 5, 11, 12, 4, 15,
      13, 8, 11, 5, 6, 15, 0, 3, 4, 7, 2, 12, 1, 10, 14, 9,
      10, 6, 9, 0, 12, 11, 7, 13, 15, 1, 3, 14, 5, 2, 8, 4,
      3, 15, 0, 6, 10, 1, 13, 8, 9, 4, 5, 11, 12, 7, 2, 14
    ],
    #[
      2, 12, 4, 1, 7, 10, 11, 6, 8, 5, 3, 15, 13, 0, 14, 9,
      14, 11, 2, 12, 4, 7, 13, 1, 5, 0, 15, 10, 3, 9, 8, 6,
      4, 2, 1, 11, 10, 13, 7, 8, 15, 9, 12, 5, 6, 3, 0, 14,
      11, 8, 12, 7, 1, 14, 2, 13, 6, 15, 0, 9, 10, 4, 5, 3
    ],
    #[
      12, 1, 10, 15, 9, 2, 6, 8, 0, 13, 3, 4, 14, 7, 5, 11,
      10, 15, 4, 2, 7, 12, 9, 5, 6, 1, 13, 14, 0, 11, 3, 8,
      9, 14, 15, 5, 2, 8, 12, 3, 7, 0, 4, 10, 1, 13, 11, 6,
      4, 3, 2, 12, 9, 5, 15, 10, 11, 14, 1, 7, 6, 0, 8, 13
    ],
    #[
      4, 11, 2, 14, 15, 0, 8, 13, 3, 12, 9, 7, 5, 10, 6, 1,
      13, 0, 11, 7, 4, 9, 1, 10, 14, 3, 5, 12, 2, 15, 8, 6,
      1, 4, 11, 13, 12, 3, 7, 14, 10, 15, 6, 8, 0, 5, 9, 2,
      6, 11, 13, 8, 1, 4, 10, 7, 9, 5, 0, 15, 14, 2, 3, 12
    ],
    #[
      13, 2, 8, 4, 6, 15, 11, 1, 10, 9, 3, 14, 5, 0, 12, 7,
      1, 15, 13, 8, 10, 3, 7, 4, 12, 5, 6, 11, 0, 14, 9, 2,
      7, 11, 4, 1, 9, 12, 14, 2, 0, 6, 10, 13, 15, 3, 5, 8,
      2, 1, 14, 7, 4, 10, 8, 13, 15, 12, 9, 0, 3, 5, 6, 11
    ]
  ]

/-- The substitute of six bits: the outer two choose the row, the inner four the column. -/
def substitute (box : Array UInt64) (x : UInt64) : UInt64 :=
  let row := ((x >>> 4) &&& 2) ||| (x &&& 1)
  let column := (x >>> 1) &&& 15
  box.getD (16 * row + column).toNat 0

/-- The substitutes of 48 bits, six at a time from the most significant end. -/
def substituteAll (x : UInt64) : UInt64 :=
  (substitutions.foldl
    (fun (r : UInt64 × UInt64) box =>
      ((r.1 <<< 4) ||| substitute box ((r.2 >>> 42) &&& 63), r.2 <<< 6)) (0, x)).1

/-- The function of a round: what is added to the other half. -/
def roundFunction (key : UInt64) (half : UInt32) : UInt32 :=
  let met := permute 32 expansionTable half.toUInt64 ^^^ key
  (permute 32 roundTable (substituteAll met)).toUInt32

/-! ## Round keys -/

/-- By how many places each round turns the key halves. -/
def turns : List UInt64 :=
  [1, 1, 2, 2, 2, 2, 2, 2, 1, 2, 2, 2, 2, 2, 2, 1]

def turn28 (x n : UInt64) : UInt64 :=
  ((x <<< n) ||| (x >>> (28 - n))) &&& 0xFFFFFFF

/-- The round keys that follow from the two key halves. -/
def roundKeysFrom : List UInt64 → (c d : UInt64) → List UInt64
  | [], _, _ => []
  | n :: ns, c, d =>
      let c' := turn28 c n
      let d' := turn28 d n
      permute 56 roundKeyTable ((c' <<< 28) ||| d') :: roundKeysFrom ns c' d'

/-- The sixteen round keys of a key of eight bytes. -/
def roundKeys (key : UInt64) : List UInt64 :=
  let cd := permute 64 keyTable key
  roundKeysFrom turns (cd >>> 28) (cd &&& 0xFFFFFFF)

/-! ## The network -/

structure Halves where
  left : UInt32
  right : UInt32

namespace Halves

def swap (h : Halves) : Halves := ⟨h.right, h.left⟩

/-- One round: the right half moves to the left, and the left half, changed by what
the round makes of the right one, takes its place. -/
def round (h : Halves) (key : UInt64) : Halves :=
  ⟨h.right, h.left ^^^ roundFunction key h.right⟩

def ofWord (x : UInt64) : Halves :=
  ⟨(x >>> 32).toUInt32, x.toUInt32⟩

def toWord (h : Halves) : UInt64 :=
  (h.left.toUInt64 <<< 32) ||| h.right.toUInt64

end Halves

/-- The rounds of the given keys, with the halves exchanged at the end. -/
def network (keys : List UInt64) (h : Halves) : Halves :=
  (keys.foldl Halves.round h).swap

/-- The network between the two permutations. -/
def crypt (keys : List UInt64) (x : UInt64) : UInt64 :=
  permute 64 finalTable (network keys (Halves.ofWord (permute 64 initialTable x))).toWord

/-! ## Blocks -/

/-- Eight bytes as one word, the first byte on top. -/
def wordOf (b : Bytes) : UInt64 :=
  b.foldl (fun w x => (w <<< 8) ||| x.toUInt64) 0

/-- A word as eight bytes, the top one first. -/
def bytesOf (w : UInt64) : Bytes :=
  [(w >>> 56).toUInt8, (w >>> 48).toUInt8, (w >>> 40).toUInt8, (w >>> 32).toUInt8,
    (w >>> 24).toUInt8, (w >>> 16).toUInt8, (w >>> 8).toUInt8, w.toUInt8]

/-- DES under a key of eight bytes.  Decryption takes the round keys in reverse. -/
def cipher (key : Bytes) : BlockCipher :=
  let keys := roundKeys (wordOf key)
  let reversed := keys.reverse
  { size := 8
    encrypt := fun b => bytesOf (crypt keys (wordOf b))
    decrypt := fun b => bytesOf (crypt reversed (wordOf b)) }

/-- Triple DES under a key of 16 or 24 bytes: with 16, the first part serves again
as the third. -/
def tripleCipher (key : Bytes) : BlockCipher :=
  let first := cipher (key.take 8)
  let second := cipher ((key.drop 8).take 8)
  let third := if key.length = 16 then first else cipher ((key.drop 16).take 8)
  first.encryptDecryptEncrypt second third

end PageVault.Des
