import PageVault.Cipher.Aes
import PageVault.Proofs.ByteTable

/-!
# AES undoes itself

The two substitutions undo each other and so do the two turns of the rows.  The
columns take more: doubling is linear, so a product with the polynomial of
encryption can be written out, and four of them in a row are the identity.  The
product with the polynomial of decryption is three of them.
-/

namespace PageVault.Aes

/-! ## Substitutions -/

theorem inverseSubstitution_substitution (x : UInt8) :
    inverseSubstitution.entry (substitution.entry x) = x :=
  ByteTable.entry_entry (by decide +kernel) x

theorem substitution_inverseSubstitution (x : UInt8) :
    substitution.entry (inverseSubstitution.entry x) = x :=
  ByteTable.entry_entry (by decide +kernel) x

/-! ## Doubling is linear -/

/-- What doubling adds when the top bit falls out, as a product. -/
def reduction (b : UInt8) : UInt8 :=
  (b >>> 7) * 0x1B

theorem double_eq (b : UInt8) : double b = (b <<< 1) ^^^ reduction b :=
  ByteTable.forall_byte (P := fun b => double b = (b <<< 1) ^^^ reduction b) (by decide +kernel) b

theorem reduction_xor (a b : UInt8) : reduction (a ^^^ b) = reduction a ^^^ reduction b := by
  have top : ∀ x : UInt8, x >>> 7 = 0 ∨ x >>> 7 = 1 :=
    ByteTable.forall_byte (by decide +kernel)
  rw [reduction, reduction, reduction, UInt8.shiftRight_xor]
  rcases top a with ha | ha <;> rcases top b with hb | hb <;> rw [ha, hb] <;> rfl

theorem double_xor (a b : UInt8) : double (a ^^^ b) = double a ^^^ double b := by
  rw [double_eq, double_eq, double_eq, reduction_xor, UInt8.shiftLeft_xor]
  ac_rfl

/-! ## Columns -/

/-- Sums of bytes up to order, with equal summands cancelled. -/
theorem xor_xor_self_left (a b : UInt8) : a ^^^ (a ^^^ b) = b := by
  rw [← UInt8.xor_assoc, UInt8.xor_self, UInt8.zero_xor]

@[inherit_doc xor_xor_self_left]
theorem xor_left_comm (a b c : UInt8) : a ^^^ (b ^^^ c) = b ^^^ (a ^^^ c) := by
  ac_rfl

/-- One byte of the product with `{04} x^2 + {05}`, the square of the polynomial of
encryption. -/
def squareByte (a c : UInt8) : UInt8 :=
  double (double (a ^^^ c)) ^^^ a

theorem mixByte_mixByte (a b c d : UInt8) :
    Column.mixByte (Column.mixByte a b c d) (Column.mixByte b c d a) (Column.mixByte c d a b)
      (Column.mixByte d a b c) = squareByte a c := by
  simp only [Column.mixByte, squareByte, double_xor]
  simp only [UInt8.xor_assoc, UInt8.xor_comm, xor_left_comm, xor_xor_self_left]

theorem squareByte_squareByte (a c : UInt8) : squareByte (squareByte a c) (squareByte c a) = a := by
  simp only [squareByte, double_xor]
  simp only [UInt8.xor_assoc, UInt8.xor_comm, xor_left_comm, UInt8.xor_self, UInt8.xor_zero]

theorem unmixByte_eq (a b c d : UInt8) :
    Column.unmixByte a b c d
      = squareByte (Column.mixByte a b c d) (Column.mixByte c d a b) := by
  simp only [Column.mixByte, Column.unmixByte, squareByte, double_xor]
  simp only [UInt8.xor_assoc, UInt8.xor_comm, xor_left_comm, xor_xor_self_left]

theorem mix_mix (x : Column) :
    x.mix.mix = ⟨squareByte x.b0 x.b2, squareByte x.b1 x.b3, squareByte x.b2 x.b0,
      squareByte x.b3 x.b1⟩ := by
  simp only [Column.mix, mixByte_mixByte]

/-- Four products with the polynomial of encryption are none. -/
theorem mix_mix_mix_mix (x : Column) : x.mix.mix.mix.mix = x := by
  rw [mix_mix x.mix.mix, mix_mix x]
  simp only [squareByte_squareByte]

/-- The product with the polynomial of decryption is the third power of the other. -/
theorem unmix_eq (x : Column) : x.unmix = x.mix.mix.mix := by
  rw [mix_mix x.mix]
  simp only [Column.unmix, Column.mix, unmixByte_eq]

theorem unmix_mix (x : Column) : x.mix.unmix = x := by
  rw [unmix_eq, mix_mix_mix_mix]

theorem mix_unmix (x : Column) : x.unmix.mix = x := by
  rw [unmix_eq, mix_mix_mix_mix]

/-! ## States -/

theorem xor_xor_self (s k : State) : (s.xor k).xor k = s := by
  simp only [State.xor, Column.xor, UInt8.xor_assoc, UInt8.xor_self, UInt8.xor_zero]

theorem unscramble_scramble (s : State) : s.scramble.unscramble = s := by
  simp only [State.scramble, State.unscramble, State.turnLeft, State.turnRight, State.map,
    Column.map, inverseSubstitution_substitution]

theorem scramble_unscramble (s : State) : s.unscramble.scramble = s := by
  simp only [State.scramble, State.unscramble, State.turnLeft, State.turnRight, State.map,
    Column.map, substitution_inverseSubstitution]

theorem map_unmix_map_mix (s : State) : (s.map Column.mix).map Column.unmix = s := by
  simp only [State.map, unmix_mix]

theorem map_mix_map_unmix (s : State) : (s.map Column.unmix).map Column.mix = s := by
  simp only [State.map, mix_unmix]

/-! ## Rounds -/

theorem decryptRounds_encryptRounds : ∀ (keys : List State) (s : State),
    decryptRounds keys (encryptRounds keys s) = s
  | [], s => rfl
  | [k], s => by
      rw [encryptRounds, decryptRounds, xor_xor_self, unscramble_scramble]
  | k :: k' :: ks, s => by
      rw [encryptRounds, decryptRounds, decryptRounds_encryptRounds (k' :: ks), xor_xor_self,
        map_unmix_map_mix, unscramble_scramble]
      · simp
      · simp

theorem encryptRounds_decryptRounds : ∀ (keys : List State) (s : State),
    encryptRounds keys (decryptRounds keys s) = s
  | [], s => rfl
  | [k], s => by
      rw [encryptRounds, decryptRounds, scramble_unscramble, xor_xor_self]
  | k :: k' :: ks, s => by
      rw [encryptRounds, decryptRounds, scramble_unscramble, map_mix_map_unmix, xor_xor_self,
        encryptRounds_decryptRounds (k' :: ks)]
      · simp
      · simp

theorem decryptState_encryptState (keys : List State) (s : State) :
    decryptState keys (encryptState keys s) = s := by
  cases keys with
  | nil => rfl
  | cons k ks => rw [encryptState, decryptState, decryptRounds_encryptRounds, xor_xor_self]

theorem encryptState_decryptState (keys : List State) (s : State) :
    encryptState keys (decryptState keys s) = s := by
  cases keys with
  | nil => rfl
  | cons k ks => rw [encryptState, decryptState, xor_xor_self, encryptRounds_decryptRounds]

/-! ## Blocks -/

theorem ofBytes_toBytes (s : State) : State.ofBytes s.toBytes = s := rfl

theorem toBytes_ofBytes (b : Bytes) (hb : b.length = 16) : (State.ofBytes b).toBytes = b := by
  match b, hb with
  | [_, _, _, _, _, _, _, _, _, _, _, _, _, _, _, _], _ => rfl

/-- **AES is lawful** under every key. -/
theorem lawful_cipher (key : Bytes) : (cipher key).Lawful where
  size_pos := Nat.zero_lt_succ 15
  length_encrypt _ _ := rfl
  length_decrypt _ _ := rfl
  decrypt_encrypt b hb := by
    show (decryptState (roundKeys key) (State.ofBytes (State.toBytes _))).toBytes = b
    rw [ofBytes_toBytes, decryptState_encryptState, toBytes_ofBytes b hb]
  encrypt_decrypt b hb := by
    show (encryptState (roundKeys key) (State.ofBytes (State.toBytes _))).toBytes = b
    rw [ofBytes_toBytes, encryptState_decryptState, toBytes_ofBytes b hb]

end PageVault.Aes
