import PageVault.Digest.Md4

/-!
# RIPEMD-128 and RIPEMD-160

Each block is worked on twice, by a left and a right line of steps with their own
orders of words, rotations and constants; the two results are then crossed with
the old state.  Both digests follow the same tables, RIPEMD-128 for four rounds
on four words, RIPEMD-160 for five rounds on five.
-/

namespace PageVault.Digest.Ripemd

/-- What one of the two lines of steps follows. -/
structure Line where
  /-- The message word of each step. -/
  wordIndex : Array Nat
  /-- The distance of the rotation in each step. -/
  shift : Array UInt32

def left : Line where
  wordIndex :=
  #[
    0, 1, 2, 3, 4, 5, 6, 7, 8, 9, 10, 11, 12, 13, 14, 15,
    7, 4, 13, 1, 10, 6, 15, 3, 12, 0, 9, 5, 2, 14, 11, 8,
    3, 10, 14, 4, 9, 15, 8, 1, 2, 7, 0, 6, 13, 11, 5, 12,
    1, 9, 11, 10, 0, 8, 12, 4, 13, 3, 7, 15, 14, 5, 6, 2,
    4, 0, 5, 9, 7, 12, 2, 10, 14, 1, 3, 8, 11, 6, 15, 13
  ]
  shift :=
  #[
    11, 14, 15, 12, 5, 8, 7, 9, 11, 13, 14, 15, 6, 7, 9, 8,
    7, 6, 8, 13, 11, 9, 7, 15, 7, 12, 15, 9, 11, 7, 13, 12,
    11, 13, 6, 7, 14, 9, 13, 15, 14, 8, 13, 6, 5, 12, 7, 5,
    11, 12, 14, 15, 14, 15, 9, 8, 9, 14, 5, 6, 8, 6, 5, 12,
    9, 15, 5, 11, 6, 8, 13, 12, 5, 12, 13, 14, 11, 8, 5, 6
  ]

def right : Line where
  wordIndex :=
  #[
    5, 14, 7, 0, 9, 2, 11, 4, 13, 6, 15, 8, 1, 10, 3, 12,
    6, 11, 3, 7, 0, 13, 5, 10, 14, 15, 8, 12, 4, 9, 1, 2,
    15, 5, 1, 3, 7, 14, 6, 9, 11, 8, 12, 2, 10, 0, 4, 13,
    8, 6, 4, 1, 3, 11, 15, 0, 5, 12, 2, 13, 9, 7, 10, 14,
    12, 15, 10, 4, 1, 5, 8, 7, 6, 2, 13, 14, 0, 3, 9, 11
  ]
  shift :=
  #[
    8, 9, 9, 11, 13, 15, 15, 5, 7, 7, 8, 11, 14, 14, 12, 6,
    9, 13, 15, 7, 12, 8, 9, 11, 7, 7, 12, 7, 6, 15, 13, 11,
    9, 7, 15, 11, 8, 6, 6, 14, 12, 13, 5, 14, 13, 13, 7, 5,
    15, 5, 8, 11, 14, 14, 6, 14, 6, 9, 12, 9, 12, 5, 15, 8,
    8, 5, 12, 9, 12, 5, 14, 6, 8, 13, 6, 5, 15, 13, 11, 11
  ]

/-- How a round combines three words; there are five ways. -/
def mix (way : Nat) (x y z : UInt32) : UInt32 :=
  match way with
  | 0 => x ^^^ y ^^^ z
  | 1 => (x &&& y) ||| (~~~x &&& z)
  | 2 => (x ||| ~~~y) ^^^ z
  | 3 => (x &&& z) ||| (y &&& ~~~z)
  | _ => x ^^^ (y ||| ~~~z)

/-- The constant of each round of the left line. -/
def leftConstants : Array UInt32 :=
  #[0, 0x5A827999, 0x6ED9EBA1, 0x8F1BBCDC, 0xA953FD4E]

/-! ## RIPEMD-128 -/

def step128 (line : Line) (words : Array UInt32) (t : Nat) (way : Nat) (k : UInt32)
    (s : Quad) : Quad :=
  let x := words.getD (line.wordIndex.getD t 0) 0
  ⟨s.d, rotl32 (s.a + mix way s.b s.c s.d + x + k) (line.shift.getD t 0), s.b, s.c⟩

/-- The constant of each round of the right line on four words. -/
def rightConstants128 : Array UInt32 :=
  #[0x50A28BE6, 0x5C4DD124, 0x6D703EF3, 0]

def compress128 (s : Quad) (block : Bytes) : Quad :=
  let words := (words32LE block).toArray
  let l := (List.range 64).foldl
    (fun q t => step128 left words t (t / 16) (leftConstants.getD (t / 16) 0) q) s
  let r := (List.range 64).foldl
    (fun q t => step128 right words t (3 - t / 16) (rightConstants128.getD (t / 16) 0) q) s
  ⟨s.b + l.c + r.d, s.c + l.d + r.a, s.d + l.a + r.b, s.a + l.b + r.c⟩

def hash128 (m : Bytes) : Bytes :=
  ((blocksLE 64 8 m).foldl compress128 Quad.start).bytes

/-! ## RIPEMD-160 -/

structure Quint where
  a : UInt32
  b : UInt32
  c : UInt32
  d : UInt32
  e : UInt32

def start160 : Quint :=
  ⟨0x67452301, 0xEFCDAB89, 0x98BADCFE, 0x10325476, 0xC3D2E1F0⟩

def Quint.bytes (s : Quint) : Bytes :=
  bytes32LE s.a ++ bytes32LE s.b ++ bytes32LE s.c ++ bytes32LE s.d ++ bytes32LE s.e

def step160 (line : Line) (words : Array UInt32) (t : Nat) (way : Nat) (k : UInt32)
    (s : Quint) : Quint :=
  let x := words.getD (line.wordIndex.getD t 0) 0
  ⟨s.e, rotl32 (s.a + mix way s.b s.c s.d + x + k) (line.shift.getD t 0) + s.e,
    s.b, rotl32 s.c 10, s.d⟩

/-- The constant of each round of the right line on five words. -/
def rightConstants160 : Array UInt32 :=
  #[0x50A28BE6, 0x5C4DD124, 0x6D703EF3, 0x7A6D76E9, 0]

def compress160 (s : Quint) (block : Bytes) : Quint :=
  let words := (words32LE block).toArray
  let l := (List.range 80).foldl
    (fun q t => step160 left words t (t / 16) (leftConstants.getD (t / 16) 0) q) s
  let r := (List.range 80).foldl
    (fun q t => step160 right words t (4 - t / 16) (rightConstants160.getD (t / 16) 0) q) s
  ⟨s.b + l.c + r.d, s.c + l.d + r.e, s.d + l.e + r.a, s.e + l.a + r.b, s.a + l.b + r.c⟩

def hash160 (m : Bytes) : Bytes :=
  ((blocksLE 64 8 m).foldl compress160 start160).bytes

@[simp] theorem length_hash128 (m : Bytes) : (hash128 m).length = 16 := by
  simp [hash128]

@[simp] theorem length_hash160 (m : Bytes) : (hash160 m).length = 20 := by
  simp [hash160, Quint.bytes]

end PageVault.Digest.Ripemd
