/-!
# Tables indexed by a byte

Substitutions of ciphers and digests are tables with one entry for each of the
256 bytes, so looking one up cannot fail.
-/

namespace PageVault

abbrev ByteTable (α : Type) : Type := Vector α 256

namespace ByteTable

variable {α : Type}

@[inline] def entry (t : ByteTable α) (x : UInt8) : α :=
  t.get x.toFin

def ofFn (f : UInt8 → α) : ByteTable α :=
  Vector.ofFn fun i => f (UInt8.ofNat i.val)

/-- A property of all bytes, checked one after another. -/
theorem forall_byte {P : UInt8 → Prop} (h : ∀ n < 256, P (UInt8.ofNat n)) (x : UInt8) : P x := by
  have hx := h x.toNat x.toNat_lt
  rwa [UInt8.ofNat_toNat] at hx

end ByteTable

end PageVault
