import PageVault.Algorithm
import PageVault.Digest.Md2
import PageVault.Digest.Md4
import PageVault.Digest.Ripemd
import PageVault.Digest.Sha1
import PageVault.Digest.Sha2
import PageVault.Digest.Whirlpool

/-!
# Digests by name

The digest that an algorithm stands for, and the two ways in which keys are made
from it: cut or padded to a length, and iterated with a counter so that guessing
passwords is slow.
-/

namespace PageVault.HashAlgorithm

def hash : HashAlgorithm → Bytes → Bytes
  | sha1, m => Digest.Sha1.hash m
  | sha256, m => Digest.Sha2.hash256 m
  | sha384, m => Digest.Sha2.hash384 m
  | sha512, m => Digest.Sha2.hash512 m
  | md5, m => Digest.Md5.hash m
  | md4, m => Digest.Md4.hash m
  | md2, m => Digest.Md2.hash m
  | ripemd128, m => Digest.Ripemd.hash128 m
  | ripemd160, m => Digest.Ripemd.hash160 m
  | whirlpool, m => Digest.Whirlpool.hash m

/-- Every digest has the length its algorithm states. -/
@[simp] theorem length_hash (a : HashAlgorithm) (m : Bytes) :
    (a.hash m).length = a.digestLength := by
  cases a <;> simp [hash, digestLength, Digest.Md4.hash, Digest.Md5.hash]

/-- The digest cut, or padded with zeros, to `len` bytes.  Length zero asks for
the digest as it is. -/
def hashToLength (a : HashAlgorithm) (len : Nat) (m : Bytes) : Bytes :=
  if len = 0 then a.hash m else Bytes.fit len 0 (a.hash m)

/-- One round of stretching: the digest of the round number and the value so far. -/
def stretchRound (a : HashAlgorithm) (h : Bytes) (round : Nat) : Bytes :=
  a.hash (Bytes.ofNatLE 4 round ++ h)

/-- `rounds` rounds of stretching, counted from zero.  No rounds leave `base` as it is. -/
def stretch (a : HashAlgorithm) (base : Bytes) (rounds : Nat) : Bytes :=
  (List.range rounds).foldl a.stretchRound base

@[simp] theorem stretch_zero (a : HashAlgorithm) (base : Bytes) : a.stretch base 0 = base := rfl

theorem stretch_succ (a : HashAlgorithm) (base : Bytes) (rounds : Nat) :
    a.stretch base (rounds + 1) = a.stretchRound (a.stretch base rounds) rounds := by
  simp [stretch, List.range_succ]

theorem length_hashToLength (a : HashAlgorithm) {len : Nat} (h : len ≠ 0) (m : Bytes) :
    (a.hashToLength len m).length = len := by
  simp [hashToLength, h]

end PageVault.HashAlgorithm
