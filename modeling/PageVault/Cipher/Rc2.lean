import PageVault.ByteTable
import PageVault.Cipher.Block

/-!
# RC2

Four words of 16 bits.  A *mixing* round changes the words in turn, each by the
three others and a key word; a *mashing* round adds to each a key word that
another one picks.  Every round is undone by taking its four steps back in
reverse.

The key is expanded to 128 bytes in two passes that are one operation in opposite
directions: a string grows by the substitute of a combination of its end with the
byte one key length further in.  All bits of the key are effective.
-/

namespace PageVault.Rc2

/-! ## The expanded key -/

set_option maxRecDepth 4000 in
def substitution : ByteTable UInt8 :=
  #v[
    0xD9, 0x78, 0xF9, 0xC4, 0x19, 0xDD, 0xB5, 0xED, 0x28, 0xE9, 0xFD, 0x79, 0x4A, 0xA0, 0xD8, 0x9D,
    0xC6, 0x7E, 0x37, 0x83, 0x2B, 0x76, 0x53, 0x8E, 0x62, 0x4C, 0x64, 0x88, 0x44, 0x8B, 0xFB, 0xA2,
    0x17, 0x9A, 0x59, 0xF5, 0x87, 0xB3, 0x4F, 0x13, 0x61, 0x45, 0x6D, 0x8D, 0x09, 0x81, 0x7D, 0x32,
    0xBD, 0x8F, 0x40, 0xEB, 0x86, 0xB7, 0x7B, 0x0B, 0xF0, 0x95, 0x21, 0x22, 0x5C, 0x6B, 0x4E, 0x82,
    0x54, 0xD6, 0x65, 0x93, 0xCE, 0x60, 0xB2, 0x1C, 0x73, 0x56, 0xC0, 0x14, 0xA7, 0x8C, 0xF1, 0xDC,
    0x12, 0x75, 0xCA, 0x1F, 0x3B, 0xBE, 0xE4, 0xD1, 0x42, 0x3D, 0xD4, 0x30, 0xA3, 0x3C, 0xB6, 0x26,
    0x6F, 0xBF, 0x0E, 0xDA, 0x46, 0x69, 0x07, 0x57, 0x27, 0xF2, 0x1D, 0x9B, 0xBC, 0x94, 0x43, 0x03,
    0xF8, 0x11, 0xC7, 0xF6, 0x90, 0xEF, 0x3E, 0xE7, 0x06, 0xC3, 0xD5, 0x2F, 0xC8, 0x66, 0x1E, 0xD7,
    0x08, 0xE8, 0xEA, 0xDE, 0x80, 0x52, 0xEE, 0xF7, 0x84, 0xAA, 0x72, 0xAC, 0x35, 0x4D, 0x6A, 0x2A,
    0x96, 0x1A, 0xD2, 0x71, 0x5A, 0x15, 0x49, 0x74, 0x4B, 0x9F, 0xD0, 0x5E, 0x04, 0x18, 0xA4, 0xEC,
    0xC2, 0xE0, 0x41, 0x6E, 0x0F, 0x51, 0xCB, 0xCC, 0x24, 0x91, 0xAF, 0x50, 0xA1, 0xF4, 0x70, 0x39,
    0x99, 0x7C, 0x3A, 0x85, 0x23, 0xB8, 0xB4, 0x7A, 0xFC, 0x02, 0x36, 0x5B, 0x25, 0x55, 0x97, 0x31,
    0x2D, 0x5D, 0xFA, 0x98, 0xE3, 0x8A, 0x92, 0xAE, 0x05, 0xDF, 0x29, 0x10, 0x67, 0x6C, 0xBA, 0xC9,
    0xD3, 0x00, 0xE6, 0xCF, 0xE1, 0x9E, 0xA8, 0x2C, 0x63, 0x16, 0x01, 0x3F, 0x58, 0xE2, 0x89, 0xA9,
    0x0D, 0x38, 0x34, 0x1B, 0xAB, 0x33, 0xFF, 0xB0, 0xBB, 0x48, 0x0C, 0x5F, 0xB9, 0xB1, 0xCD, 0x2E,
    0xC5, 0xF3, 0xDB, 0x47, 0xE5, 0xA5, 0x9C, 0x77, 0x0A, 0xA6, 0x20, 0x68, 0xFE, 0x7F, 0xC1, 0xAD
  ]

/-- A string grown in front by `count` bytes, each the substitute of `combine` of
the first byte and the one at `reach`. -/
def grow (combine : UInt8 → UInt8 → UInt8) (reach : Nat) : (count : Nat) → Bytes → Bytes
  | 0, b => b
  | count + 1, b =>
      grow combine reach count
        (substitution.entry (combine (b.headD 0) (b.getD reach 0)) :: b)

def expandedBytes (key : Bytes) : Bytes :=
  let n := key.length
  let forward := (grow (· + ·) (n - 1) (128 - n) key.reverse).reverse
  let last := forward.drop (128 - n)
  grow (· ^^^ ·) (n - 1) (128 - n) (substitution.entry (last.headD 0) :: last.drop 1)

/-- Bytes as words, least significant byte first. -/
def words : Bytes → List UInt16
  | a :: b :: rest => (a.toUInt16 ||| (b.toUInt16 <<< 8)) :: words rest
  | _ => []

def expandedKey (key : Bytes) : Array UInt16 :=
  (words (expandedBytes key)).toArray

/-! ## Rounds -/

structure State where
  a : UInt16
  b : UInt16
  c : UInt16
  d : UInt16

/-- A word rotated left by `n` bits, for `0 < n < 16`. -/
def rotl (x n : UInt16) : UInt16 :=
  (x <<< n) ||| (x >>> (16 - n))

def rotr (x n : UInt16) : UInt16 :=
  (x >>> n) ||| (x <<< (16 - n))

/-- What a mixing step adds to a word: a key word, and bits of the third and
second word before it, chosen by the one just before it. -/
def addend (k before second third : UInt16) : UInt16 :=
  k + (before &&& second) + (~~~before &&& third)

def mix (k0 k1 k2 k3 : UInt16) (s : State) : State :=
  let a := rotl (s.a + addend k0 s.d s.c s.b) 1
  let b := rotl (s.b + addend k1 a s.d s.c) 2
  let c := rotl (s.c + addend k2 b a s.d) 3
  let d := rotl (s.d + addend k3 c b a) 5
  ⟨a, b, c, d⟩

def unmix (k0 k1 k2 k3 : UInt16) (s : State) : State :=
  let d := rotr s.d 5 - addend k3 s.c s.b s.a
  let c := rotr s.c 3 - addend k2 s.b s.a d
  let b := rotr s.b 2 - addend k1 s.a d c
  let a := rotr s.a 1 - addend k0 d c b
  ⟨a, b, c, d⟩

/-- The key word that a word picks. -/
def picked (key : Array UInt16) (x : UInt16) : UInt16 :=
  key.getD (x &&& 63).toNat 0

def mash (key : Array UInt16) (s : State) : State :=
  let a := s.a + picked key s.d
  let b := s.b + picked key a
  let c := s.c + picked key b
  let d := s.d + picked key c
  ⟨a, b, c, d⟩

def unmash (key : Array UInt16) (s : State) : State :=
  let d := s.d - picked key s.c
  let c := s.c - picked key s.b
  let b := s.b - picked key s.a
  let a := s.a - picked key d
  ⟨a, b, c, d⟩

/-- A round: mixing with the four key words from `4 * r` on, or mashing. -/
inductive Round where
  | mixing (r : Nat)
  | mashing

/-- The rounds in order: five, six and five of mixing, mashing between them. -/
def rounds : List Round :=
  (List.range 5).map .mixing ++ [.mashing] ++ (List.range' 5 6).map .mixing ++ [.mashing]
    ++ (List.range' 11 5).map .mixing

def Round.apply (key : Array UInt16) : Round → State → State
  | mixing r, s =>
      mix (key.getD (4 * r) 0) (key.getD (4 * r + 1) 0) (key.getD (4 * r + 2) 0)
        (key.getD (4 * r + 3) 0) s
  | mashing, s => mash key s

def Round.undo (key : Array UInt16) : Round → State → State
  | mixing r, s =>
      unmix (key.getD (4 * r) 0) (key.getD (4 * r + 1) 0) (key.getD (4 * r + 2) 0)
        (key.getD (4 * r + 3) 0) s
  | mashing, s => unmash key s

/-! ## Blocks -/

def State.ofBytes (b : Bytes) : State :=
  let w := words b
  ⟨w.getD 0 0, w.getD 1 0, w.getD 2 0, w.getD 3 0⟩

def State.toBytes (s : State) : Bytes :=
  [s.a.toUInt8, (s.a >>> 8).toUInt8, s.b.toUInt8, (s.b >>> 8).toUInt8,
    s.c.toUInt8, (s.c >>> 8).toUInt8, s.d.toUInt8, (s.d >>> 8).toUInt8]

def cipher (key : Bytes) : BlockCipher :=
  let k := expandedKey key
  { size := 8
    encrypt := fun b => (rounds.foldl (fun s r => r.apply k s) (State.ofBytes b)).toBytes
    decrypt := fun b => (rounds.foldr (fun r s => r.undo k s) (State.ofBytes b)).toBytes }

end PageVault.Rc2
