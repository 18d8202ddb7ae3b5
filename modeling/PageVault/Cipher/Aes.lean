import PageVault.ByteTable
import PageVault.Cipher.Block

/-!
# AES

The state is four columns of four bytes.  A round substitutes every byte, turns
the rows, multiplies each column with a fixed polynomial over `GF(2^8)` and adds
a round key; the last round leaves the columns alone.  Keys of 16, 24 and 32
bytes give ten, twelve and fourteen rounds.

Both directions recurse on the list of round keys, so that decryption visibly
takes the steps of encryption back one by one.
-/

namespace PageVault.Aes

/-! ## Columns -/

/-- Four bytes of the state, or of the expanded key. -/
structure Column where
  b0 : UInt8
  b1 : UInt8
  b2 : UInt8
  b3 : UInt8
deriving Inhabited

set_option maxRecDepth 4000 in
def substitution : ByteTable UInt8 :=
  #v[
    0x63, 0x7C, 0x77, 0x7B, 0xF2, 0x6B, 0x6F, 0xC5, 0x30, 0x01, 0x67, 0x2B, 0xFE, 0xD7, 0xAB, 0x76,
    0xCA, 0x82, 0xC9, 0x7D, 0xFA, 0x59, 0x47, 0xF0, 0xAD, 0xD4, 0xA2, 0xAF, 0x9C, 0xA4, 0x72, 0xC0,
    0xB7, 0xFD, 0x93, 0x26, 0x36, 0x3F, 0xF7, 0xCC, 0x34, 0xA5, 0xE5, 0xF1, 0x71, 0xD8, 0x31, 0x15,
    0x04, 0xC7, 0x23, 0xC3, 0x18, 0x96, 0x05, 0x9A, 0x07, 0x12, 0x80, 0xE2, 0xEB, 0x27, 0xB2, 0x75,
    0x09, 0x83, 0x2C, 0x1A, 0x1B, 0x6E, 0x5A, 0xA0, 0x52, 0x3B, 0xD6, 0xB3, 0x29, 0xE3, 0x2F, 0x84,
    0x53, 0xD1, 0x00, 0xED, 0x20, 0xFC, 0xB1, 0x5B, 0x6A, 0xCB, 0xBE, 0x39, 0x4A, 0x4C, 0x58, 0xCF,
    0xD0, 0xEF, 0xAA, 0xFB, 0x43, 0x4D, 0x33, 0x85, 0x45, 0xF9, 0x02, 0x7F, 0x50, 0x3C, 0x9F, 0xA8,
    0x51, 0xA3, 0x40, 0x8F, 0x92, 0x9D, 0x38, 0xF5, 0xBC, 0xB6, 0xDA, 0x21, 0x10, 0xFF, 0xF3, 0xD2,
    0xCD, 0x0C, 0x13, 0xEC, 0x5F, 0x97, 0x44, 0x17, 0xC4, 0xA7, 0x7E, 0x3D, 0x64, 0x5D, 0x19, 0x73,
    0x60, 0x81, 0x4F, 0xDC, 0x22, 0x2A, 0x90, 0x88, 0x46, 0xEE, 0xB8, 0x14, 0xDE, 0x5E, 0x0B, 0xDB,
    0xE0, 0x32, 0x3A, 0x0A, 0x49, 0x06, 0x24, 0x5C, 0xC2, 0xD3, 0xAC, 0x62, 0x91, 0x95, 0xE4, 0x79,
    0xE7, 0xC8, 0x37, 0x6D, 0x8D, 0xD5, 0x4E, 0xA9, 0x6C, 0x56, 0xF4, 0xEA, 0x65, 0x7A, 0xAE, 0x08,
    0xBA, 0x78, 0x25, 0x2E, 0x1C, 0xA6, 0xB4, 0xC6, 0xE8, 0xDD, 0x74, 0x1F, 0x4B, 0xBD, 0x8B, 0x8A,
    0x70, 0x3E, 0xB5, 0x66, 0x48, 0x03, 0xF6, 0x0E, 0x61, 0x35, 0x57, 0xB9, 0x86, 0xC1, 0x1D, 0x9E,
    0xE1, 0xF8, 0x98, 0x11, 0x69, 0xD9, 0x8E, 0x94, 0x9B, 0x1E, 0x87, 0xE9, 0xCE, 0x55, 0x28, 0xDF,
    0x8C, 0xA1, 0x89, 0x0D, 0xBF, 0xE6, 0x42, 0x68, 0x41, 0x99, 0x2D, 0x0F, 0xB0, 0x54, 0xBB, 0x16
  ]

set_option maxRecDepth 4000 in
def inverseSubstitution : ByteTable UInt8 :=
  #v[
    0x52, 0x09, 0x6A, 0xD5, 0x30, 0x36, 0xA5, 0x38, 0xBF, 0x40, 0xA3, 0x9E, 0x81, 0xF3, 0xD7, 0xFB,
    0x7C, 0xE3, 0x39, 0x82, 0x9B, 0x2F, 0xFF, 0x87, 0x34, 0x8E, 0x43, 0x44, 0xC4, 0xDE, 0xE9, 0xCB,
    0x54, 0x7B, 0x94, 0x32, 0xA6, 0xC2, 0x23, 0x3D, 0xEE, 0x4C, 0x95, 0x0B, 0x42, 0xFA, 0xC3, 0x4E,
    0x08, 0x2E, 0xA1, 0x66, 0x28, 0xD9, 0x24, 0xB2, 0x76, 0x5B, 0xA2, 0x49, 0x6D, 0x8B, 0xD1, 0x25,
    0x72, 0xF8, 0xF6, 0x64, 0x86, 0x68, 0x98, 0x16, 0xD4, 0xA4, 0x5C, 0xCC, 0x5D, 0x65, 0xB6, 0x92,
    0x6C, 0x70, 0x48, 0x50, 0xFD, 0xED, 0xB9, 0xDA, 0x5E, 0x15, 0x46, 0x57, 0xA7, 0x8D, 0x9D, 0x84,
    0x90, 0xD8, 0xAB, 0x00, 0x8C, 0xBC, 0xD3, 0x0A, 0xF7, 0xE4, 0x58, 0x05, 0xB8, 0xB3, 0x45, 0x06,
    0xD0, 0x2C, 0x1E, 0x8F, 0xCA, 0x3F, 0x0F, 0x02, 0xC1, 0xAF, 0xBD, 0x03, 0x01, 0x13, 0x8A, 0x6B,
    0x3A, 0x91, 0x11, 0x41, 0x4F, 0x67, 0xDC, 0xEA, 0x97, 0xF2, 0xCF, 0xCE, 0xF0, 0xB4, 0xE6, 0x73,
    0x96, 0xAC, 0x74, 0x22, 0xE7, 0xAD, 0x35, 0x85, 0xE2, 0xF9, 0x37, 0xE8, 0x1C, 0x75, 0xDF, 0x6E,
    0x47, 0xF1, 0x1A, 0x71, 0x1D, 0x29, 0xC5, 0x89, 0x6F, 0xB7, 0x62, 0x0E, 0xAA, 0x18, 0xBE, 0x1B,
    0xFC, 0x56, 0x3E, 0x4B, 0xC6, 0xD2, 0x79, 0x20, 0x9A, 0xDB, 0xC0, 0xFE, 0x78, 0xCD, 0x5A, 0xF4,
    0x1F, 0xDD, 0xA8, 0x33, 0x88, 0x07, 0xC7, 0x31, 0xB1, 0x12, 0x10, 0x59, 0x27, 0x80, 0xEC, 0x5F,
    0x60, 0x51, 0x7F, 0xA9, 0x19, 0xB5, 0x4A, 0x0D, 0x2D, 0xE5, 0x7A, 0x9F, 0x93, 0xC9, 0x9C, 0xEF,
    0xA0, 0xE0, 0x3B, 0x4D, 0xAE, 0x2A, 0xF5, 0xB0, 0xC8, 0xEB, 0xBB, 0x3C, 0x83, 0x53, 0x99, 0x61,
    0x17, 0x2B, 0x04, 0x7E, 0xBA, 0x77, 0xD6, 0x26, 0xE1, 0x69, 0x14, 0x63, 0x55, 0x21, 0x0C, 0x7D
  ]

/-- The product of a byte with the polynomial `x`, modulo `x^8 + x^4 + x^3 + x + 1`. -/
def double (b : UInt8) : UInt8 :=
  (b <<< 1) ^^^ (if b < 0x80 then 0 else 0x1B)

namespace Column

def xor (x y : Column) : Column :=
  ⟨x.b0 ^^^ y.b0, x.b1 ^^^ y.b1, x.b2 ^^^ y.b2, x.b3 ^^^ y.b3⟩

def map (f : UInt8 → UInt8) (x : Column) : Column :=
  ⟨f x.b0, f x.b1, f x.b2, f x.b3⟩

def rotate (x : Column) : Column :=
  ⟨x.b1, x.b2, x.b3, x.b0⟩

/-- One byte of the product with the polynomial of encryption, `{03} x^3 + x^2 + x + {02}`. -/
def mixByte (a b c d : UInt8) : UInt8 :=
  double a ^^^ (double b ^^^ b) ^^^ c ^^^ d

def mix (x : Column) : Column :=
  ⟨mixByte x.b0 x.b1 x.b2 x.b3, mixByte x.b1 x.b2 x.b3 x.b0,
    mixByte x.b2 x.b3 x.b0 x.b1, mixByte x.b3 x.b0 x.b1 x.b2⟩

/-- One byte of the product with the polynomial of decryption,
`{0b} x^3 + {0d} x^2 + {09} x + {0e}`. -/
def unmixByte (a b c d : UInt8) : UInt8 :=
  double (double (double (a ^^^ b ^^^ c ^^^ d) ^^^ a ^^^ c) ^^^ a ^^^ b) ^^^ b ^^^ c ^^^ d

def unmix (x : Column) : Column :=
  ⟨unmixByte x.b0 x.b1 x.b2 x.b3, unmixByte x.b1 x.b2 x.b3 x.b0,
    unmixByte x.b2 x.b3 x.b0 x.b1, unmixByte x.b3 x.b0 x.b1 x.b2⟩

end Column

/-! ## The state -/

structure State where
  c0 : Column
  c1 : Column
  c2 : Column
  c3 : Column

namespace State

def map (f : Column → Column) (s : State) : State :=
  ⟨f s.c0, f s.c1, f s.c2, f s.c3⟩

def xor (s t : State) : State :=
  ⟨s.c0.xor t.c0, s.c1.xor t.c1, s.c2.xor t.c2, s.c3.xor t.c3⟩

/-- Row `r` turned left by `r` places. -/
def turnLeft (s : State) : State :=
  ⟨⟨s.c0.b0, s.c1.b1, s.c2.b2, s.c3.b3⟩, ⟨s.c1.b0, s.c2.b1, s.c3.b2, s.c0.b3⟩,
    ⟨s.c2.b0, s.c3.b1, s.c0.b2, s.c1.b3⟩, ⟨s.c3.b0, s.c0.b1, s.c1.b2, s.c2.b3⟩⟩

def turnRight (s : State) : State :=
  ⟨⟨s.c0.b0, s.c3.b1, s.c2.b2, s.c1.b3⟩, ⟨s.c1.b0, s.c0.b1, s.c3.b2, s.c2.b3⟩,
    ⟨s.c2.b0, s.c1.b1, s.c0.b2, s.c3.b3⟩, ⟨s.c3.b0, s.c2.b1, s.c1.b2, s.c0.b3⟩⟩

/-- The state of a block of sixteen bytes, column after column. -/
def ofBytes (b : Bytes) : State :=
  ⟨⟨b.getD 0 0, b.getD 1 0, b.getD 2 0, b.getD 3 0⟩,
    ⟨b.getD 4 0, b.getD 5 0, b.getD 6 0, b.getD 7 0⟩,
    ⟨b.getD 8 0, b.getD 9 0, b.getD 10 0, b.getD 11 0⟩,
    ⟨b.getD 12 0, b.getD 13 0, b.getD 14 0, b.getD 15 0⟩⟩

def toBytes (s : State) : Bytes :=
  [s.c0.b0, s.c0.b1, s.c0.b2, s.c0.b3, s.c1.b0, s.c1.b1, s.c1.b2, s.c1.b3,
    s.c2.b0, s.c2.b1, s.c2.b2, s.c2.b3, s.c3.b0, s.c3.b1, s.c3.b2, s.c3.b3]

/-- Substitutes every byte and turns the rows. -/
def scramble (s : State) : State :=
  (s.map (Column.map substitution.entry)).turnLeft

def unscramble (s : State) : State :=
  s.turnRight.map (Column.map inverseSubstitution.entry)

end State

/-! ## Rounds -/

/-- The rounds with the given round keys; the last one does not mix columns. -/
def encryptRounds : List State → State → State
  | [], s => s
  | [k], s => s.scramble.xor k
  | k :: ks, s => encryptRounds ks ((s.scramble.map Column.mix).xor k)

/-- Takes `encryptRounds` back, the last round first. -/
def decryptRounds : List State → State → State
  | [], s => s
  | [k], s => (s.xor k).unscramble
  | k :: ks, s => (((decryptRounds ks s).xor k).map Column.unmix).unscramble

/-! ## The expanded key -/

/-- The constants that set the rounds of key expansion apart. -/
def roundConstants : Array UInt8 :=
  #[0x01, 0x02, 0x04, 0x08, 0x10, 0x20, 0x40, 0x80, 0x1B, 0x36]

def keyColumns : Bytes → List Column
  | a :: b :: c :: d :: rest => ⟨a, b, c, d⟩ :: keyColumns rest
  | _ => []

/-- The expanded key after one more column; `n` is the number of columns in the key. -/
def expandStep (n : Nat) (w : Array Column) : Array Column :=
  let i := w.size
  let last := w.getD (i - 1) default
  let mixed :=
    if i % n = 0 then
      (last.rotate.map substitution.entry).xor ⟨roundConstants.getD (i / n - 1) 0, 0, 0, 0⟩
    else if 6 < n ∧ i % n = 4 then last.map substitution.entry
    else last
  w.push ((w.getD (i - n) default).xor mixed)

def expandedColumns (key : Bytes) : Array Column :=
  let n := key.length / 4
  (List.range (4 * (n + 7) - n)).foldl (fun w _ => expandStep n w) (keyColumns key).toArray

/-- The round keys, the first of which is added before the first round. -/
def roundKeys (key : Bytes) : List State :=
  let w := expandedColumns key
  (List.range (key.length / 4 + 7)).map fun r =>
    ⟨w.getD (4 * r) default, w.getD (4 * r + 1) default, w.getD (4 * r + 2) default,
      w.getD (4 * r + 3) default⟩

/-! ## Blocks -/

def encryptState : List State → State → State
  | [], s => s
  | k :: ks, s => encryptRounds ks (s.xor k)

def decryptState : List State → State → State
  | [], s => s
  | k :: ks, s => (decryptRounds ks s).xor k

def cipher (key : Bytes) : BlockCipher :=
  let keys := roundKeys key
  { size := 16
    encrypt := fun b => (encryptState keys (State.ofBytes b)).toBytes
    decrypt := fun b => (decryptState keys (State.ofBytes b)).toBytes }

end PageVault.Aes
