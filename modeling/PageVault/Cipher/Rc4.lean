import PageVault.Bytes
import PageVault.ByteTable

/-!
# RC4

A permutation of the 256 bytes and two indices.  Each step swaps two entries and
gives one byte of keystream, so a state can be used piece by piece: what it gives
to a second buffer goes on where the first one stopped.  Data are combined with
the keystream by exclusive or, hence encryption and decryption are one operation.
-/

namespace PageVault

/-- A permutation of the bytes and the two indices into it. -/
structure Rc4 where
  table : ByteTable UInt8
  i : UInt8
  j : UInt8

namespace Rc4

def identity : ByteTable UInt8 :=
  ByteTable.ofFn id

@[inline] def swapped (t : ByteTable UInt8) (i j : UInt8) : ByteTable UInt8 :=
  t.swap i.toNat j.toNat i.toNat_lt j.toNat_lt

/-- One step of key scheduling: entry `i` is exchanged with one that the key byte
`k` decides. -/
def keyStep (s : ByteTable UInt8 × UInt8) (i k : UInt8) : ByteTable UInt8 × UInt8 :=
  let j := s.2 + s.1.entry i + k
  (swapped s.1 i j, j)

/-- The state that a key sets up.  The key is repeated as often as needed; the
empty key leaves the identical permutation. -/
def ofKey (key : Bytes) : Rc4 :=
  match key with
  | [] => ⟨identity, 0, 0⟩
  | _ =>
      let keyBytes := Bytes.cycle key 256
      ⟨((List.range 256).zip keyBytes |>.foldl
          (fun s ik => keyStep s (UInt8.ofNat ik.1) ik.2) (identity, 0)).1, 0, 0⟩

/-- One byte of keystream and the state after it. -/
def next (s : Rc4) : UInt8 × Rc4 :=
  let i := s.i + 1
  let a := s.table.entry i
  let j := s.j + a
  let t := swapped s.table i j
  (t.entry (t.entry i + t.entry j), ⟨t, i, j⟩)

/-- The data combined with the keystream, and the state after them. -/
def apply (s : Rc4) : Bytes → Bytes × Rc4
  | [] => ([], s)
  | x :: data =>
      let (k, s') := s.next
      let (rest, s'') := s'.apply data
      ((x ^^^ k) :: rest, s'')

def keystream (s : Rc4) : (n : Nat) → Bytes
  | 0 => []
  | n + 1 => s.next.1 :: s.next.2.keystream n

def advance (s : Rc4) : (n : Nat) → Rc4
  | 0 => s
  | n + 1 => s.next.2.advance n

def crypt (key data : Bytes) : Bytes :=
  ((ofKey key).apply data).1

@[simp] theorem length_keystream (s : Rc4) (n : Nat) : (s.keystream n).length = n := by
  induction n generalizing s with
  | zero => rfl
  | succ n ih => simp [keystream, ih]

/-- Applying a state is exclusive or with its keystream. -/
theorem apply_eq (s : Rc4) (data : Bytes) :
    s.apply data = (Bytes.xor data (s.keystream data.length), s.advance data.length) := by
  induction data generalizing s with
  | nil => rfl
  | cons x data ih => simp [apply, keystream, advance, ih, Bytes.xor]

theorem apply_append (s : Rc4) (a b : Bytes) :
    s.apply (a ++ b)
      = ((s.apply a).1 ++ ((s.apply a).2.apply b).1, ((s.apply a).2.apply b).2) := by
  induction a generalizing s with
  | nil => rfl
  | cons x a ih => simp [apply, ih]

@[simp] theorem length_crypt (key data : Bytes) : (crypt key data).length = data.length := by
  simp [crypt, apply_eq]

theorem crypt_crypt (key data : Bytes) : crypt key (crypt key data) = data := by
  simp only [crypt, apply_eq, Bytes.length_xor, length_keystream, Nat.min_self]
  exact Bytes.xor_xor_cancel_right _ _ (by simp)

end Rc4

end PageVault
