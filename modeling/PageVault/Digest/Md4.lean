import PageVault.Digest.Message

/-!
# MD4 and MD5

Four words of state, blocks of 64 bytes, least significant byte first.  A step
changes one word and rotates the four of them; the two digests differ in their
steps only.
-/

namespace PageVault.Digest

structure Quad where
  a : UInt32
  b : UInt32
  c : UInt32
  d : UInt32

namespace Quad

def start : Quad :=
  ⟨0x67452301, 0xEFCDAB89, 0x98BADCFE, 0x10325476⟩

def bytes (s : Quad) : Bytes :=
  bytes32LE s.a ++ bytes32LE s.b ++ bytes32LE s.c ++ bytes32LE s.d

def add (s t : Quad) : Quad :=
  ⟨s.a + t.a, s.b + t.b, s.c + t.c, s.d + t.d⟩

@[simp] theorem length_bytes (s : Quad) : s.bytes.length = 16 := rfl

end Quad

/-- The digest whose steps on the words of a block are `steps`. -/
def quadHash (steps : Array UInt32 → Quad → Quad) (m : Bytes) : Bytes :=
  ((blocksLE 64 8 m).foldl
    (fun s block => s.add (steps (words32LE block).toArray s)) Quad.start).bytes

@[simp] theorem length_quadHash (steps : Array UInt32 → Quad → Quad) (m : Bytes) :
    (quadHash steps m).length = 16 := by
  simp [quadHash]

/-- `y` where `x` is set, `z` elsewhere. -/
@[inline] def choose (x y z : UInt32) : UInt32 :=
  (x &&& y) ||| (~~~x &&& z)

/-! ## MD4 -/

namespace Md4

/-- The word that each step takes, by rounds. -/
def wordIndex : Array Nat :=
  #[
    0, 1, 2, 3, 4, 5, 6, 7, 8, 9, 10, 11, 12, 13, 14, 15,
    0, 4, 8, 12, 1, 5, 9, 13, 2, 6, 10, 14, 3, 7, 11, 15,
    0, 8, 4, 12, 2, 10, 6, 14, 1, 9, 5, 13, 3, 11, 7, 15
  ]

/-- The distance of each rotation: four to a round, in turn. -/
def shift (t : Nat) : UInt32 :=
  (#[3, 7, 11, 19, 3, 5, 9, 13, 3, 9, 11, 15] : Array UInt32).getD (4 * (t / 16) + t % 4) 0

/-- What is added to the first word, the message word apart. -/
def mix (t : Nat) (b c d : UInt32) : UInt32 :=
  if t < 16 then choose b c d
  else if t < 32 then ((b &&& c) ||| (b &&& d) ||| (c &&& d)) + 0x5A827999
  else (b ^^^ c ^^^ d) + 0x6ED9EBA1

def step (words : Array UInt32) (s : Quad) (t : Nat) : Quad :=
  let x := words.getD (wordIndex.getD t 0) 0
  ⟨s.d, rotl32 (s.a + mix t s.b s.c s.d + x) (shift t), s.b, s.c⟩

def hash (m : Bytes) : Bytes :=
  quadHash (fun words s => (List.range 48).foldl (step words) s) m

end Md4

/-! ## MD5 -/

namespace Md5

def constants : Array UInt32 :=
  #[
    0xD76AA478, 0xE8C7B756, 0x242070DB, 0xC1BDCEEE, 0xF57C0FAF, 0x4787C62A, 0xA8304613, 0xFD469501,
    0x698098D8, 0x8B44F7AF, 0xFFFF5BB1, 0x895CD7BE, 0x6B901122, 0xFD987193, 0xA679438E, 0x49B40821,
    0xF61E2562, 0xC040B340, 0x265E5A51, 0xE9B6C7AA, 0xD62F105D, 0x02441453, 0xD8A1E681, 0xE7D3FBC8,
    0x21E1CDE6, 0xC33707D6, 0xF4D50D87, 0x455A14ED, 0xA9E3E905, 0xFCEFA3F8, 0x676F02D9, 0x8D2A4C8A,
    0xFFFA3942, 0x8771F681, 0x6D9D6122, 0xFDE5380C, 0xA4BEEA44, 0x4BDECFA9, 0xF6BB4B60, 0xBEBFBC70,
    0x289B7EC6, 0xEAA127FA, 0xD4EF3085, 0x04881D05, 0xD9D4D039, 0xE6DB99E5, 0x1FA27CF8, 0xC4AC5665,
    0xF4292244, 0x432AFF97, 0xAB9423A7, 0xFC93A039, 0x655B59C3, 0x8F0CCC92, 0xFFEFF47D, 0x85845DD1,
    0x6FA87E4F, 0xFE2CE6E0, 0xA3014314, 0x4E0811A1, 0xF7537E82, 0xBD3AF235, 0x2AD7D2BB, 0xEB86D391
  ]

/-- The word that step `t` takes. -/
def wordIndex (t : Nat) : Nat :=
  if t < 16 then t
  else if t < 32 then (5 * t + 1) % 16
  else if t < 48 then (3 * t + 5) % 16
  else 7 * t % 16

/-- The distance of each rotation: four to a round, in turn. -/
def shift (t : Nat) : UInt32 :=
  (#[7, 12, 17, 22, 5, 9, 14, 20, 4, 11, 16, 23, 6, 10, 15, 21] : Array UInt32).getD
    (4 * (t / 16) + t % 4) 0

/-- How step `t` combines three words. -/
def mix (t : Nat) (b c d : UInt32) : UInt32 :=
  if t < 16 then choose b c d
  else if t < 32 then choose d b c
  else if t < 48 then b ^^^ c ^^^ d
  else c ^^^ (b ||| ~~~d)

def step (words : Array UInt32) (s : Quad) (t : Nat) : Quad :=
  let x := words.getD (wordIndex t) 0
  let sum := s.a + mix t s.b s.c s.d + constants.getD t 0 + x
  ⟨s.d, s.b + rotl32 sum (shift t), s.b, s.c⟩

def hash (m : Bytes) : Bytes :=
  quadHash (fun words s => (List.range 64).foldl (step words) s) m

end Md5

end PageVault.Digest
