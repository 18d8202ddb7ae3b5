import PageVault.Digest.Message

/-!
# SHA-1

Five words of state, blocks of 64 bytes, most significant byte first.  The
sixteen words of a block are stretched to eighty, one for each round.
-/

namespace PageVault.Digest.Sha1

structure State where
  a : UInt32
  b : UInt32
  c : UInt32
  d : UInt32
  e : UInt32

def start : State :=
  ⟨0x67452301, 0xEFCDAB89, 0x98BADCFE, 0x10325476, 0xC3D2E1F0⟩

/-- The eighty round words of a block. -/
def schedule (block : Bytes) : Array UInt32 :=
  (List.range 64).foldl
    (fun w t =>
      w.push (rotl32
        (w.getD (t + 13) 0 ^^^ w.getD (t + 8) 0 ^^^ w.getD (t + 2) 0 ^^^ w.getD t 0) 1))
    (words32BE block).toArray

/-- How round `t` combines three words. -/
def mix (t : Nat) (b c d : UInt32) : UInt32 :=
  if t < 20 then (b &&& c) ||| (~~~b &&& d)
  else if t < 40 then b ^^^ c ^^^ d
  else if t < 60 then (b &&& c) ||| (b &&& d) ||| (c &&& d)
  else b ^^^ c ^^^ d

/-- The constant of round `t`. -/
def constant (t : Nat) : UInt32 :=
  if t < 20 then 0x5A827999
  else if t < 40 then 0x6ED9EBA1
  else if t < 60 then 0x8F1BBCDC
  else 0xCA62C1D6

/-- Round `t`, with its word of the schedule. -/
def round (s : State) (t : Nat) (w : UInt32) : State :=
  ⟨rotl32 s.a 5 + mix t s.b s.c s.d + s.e + constant t + w, s.a, rotl32 s.b 30, s.c, s.d⟩

def compress (s : State) (block : Bytes) : State :=
  let w := schedule block
  let r := (List.range 80).foldl (fun r t => round r t (w.getD t 0)) s
  ⟨s.a + r.a, s.b + r.b, s.c + r.c, s.d + r.d, s.e + r.e⟩

def State.bytes (s : State) : Bytes :=
  bytes32BE s.a ++ bytes32BE s.b ++ bytes32BE s.c ++ bytes32BE s.d ++ bytes32BE s.e

def hash (m : Bytes) : Bytes :=
  ((blocksBE 64 8 m).foldl compress start).bytes

@[simp] theorem length_hash (m : Bytes) : (hash m).length = 20 := by
  simp [hash, State.bytes]

end PageVault.Digest.Sha1
