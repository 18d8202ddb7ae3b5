import PageVault.Opening
import PageVault.Proofs.Bytes
import PageVault.Proofs.Text.UpperCase

/-!
# Passwords, byte by byte

What is hashed of a password, from its characters to the last byte.  Office files take its first
255 units in UTF-16, wherever that cuts it, even inside a character.  Newer MSISAM files take its
upper case in the encoding of the format, fill it up with zeros and cut it to forty bytes, so that
zeros at the end are as good as nothing.  No password is the empty one.

§1 characters · §2 passwords of office files · §3 passwords of MSISAM files.
-/

namespace PageVault

/-! ## §1  Characters -/

namespace Text

/-- A unit of sixteen bits, the low byte first. -/
def unitBytes (n : Nat) : Bytes :=
  [UInt8.ofNat n, UInt8.ofNat (n / 0x100)]

/-- A character in UTF-16: its number, or a high and a low surrogate for what is left of it
beyond `U+FFFF`, ten bits in each. -/
def utf16Bytes (c : Char) : Bytes :=
  if c.toNat < 0x10000 then unitBytes c.toNat
  else
    unitBytes (0xD800 + (c.toNat - 0x10000) / 0x400)
      ++ unitBytes (0xDC00 + (c.toNat - 0x10000) % 0x400)

/-- A character as the byte of its number, or a question mark if that is no byte. -/
def singleByte (c : Char) : Bytes :=
  [if c.toNat < 0x100 then UInt8.ofNat c.toNat else 0x3F]

theorem le16_ofNat {n : Nat} (h : n < 0x10000) : Bytes.le16 (UInt16.ofNat n) = unitBytes n := by
  have hn : (UInt16.ofNat n).toNat = n := UInt16.toNat_ofNat_of_lt' h
  rw [Bytes.le16, hn]
  rfl

theorem toBytes_unitsOf (c : Char) : Utf16.toBytes (Utf16.unitsOf c) = utf16Bytes c := by
  have hvalid : c.toNat < 0xD800 ∨ 0xDFFF < c.toNat ∧ c.toNat < 0x110000 := c.valid
  unfold Utf16.unitsOf utf16Bytes
  split
  · rename_i hlt
    show Bytes.le16 _ ++ [] = _
    rw [List.append_nil, le16_ofNat hlt]
  · show Bytes.le16 _ ++ (Bytes.le16 _ ++ []) = _
    rw [List.append_nil, le16_ofNat (by omega), le16_ofNat (by omega)]

/-- **UTF-16, character by character.** -/
theorem toBytes_encode (cs : List Char) :
    Utf16.toBytes (Utf16.encode cs) = cs.flatMap utf16Bytes := by
  induction cs with
  | nil => rfl
  | cons c cs ih =>
      show Utf16.toBytes (Utf16.unitsOf c ++ Utf16.encode cs) = _
      rw [Utf16.toBytes_append, toBytes_unitsOf, ih, List.flatMap_cons]

/-- Cutting between units is cutting between pairs of bytes. -/
theorem Utf16.toBytes_take (units : List UInt16) (n : Nat) :
    toBytes (units.take n) = (toBytes units).take (2 * n) := by
  induction units generalizing n with
  | nil =>
      rw [List.take_nil]
      exact List.take_nil.symm
  | cons u units ih =>
      cases n with
      | zero => rfl
      | succ n =>
          have hcons : ∀ rest, toBytes (u :: rest) = Bytes.le16 u ++ toBytes rest := fun _ => rfl
          have hcut : 2 * (n + 1) = (Bytes.le16 u).length + 2 * n := by
            rw [Bytes.length_le16]
            omega
          rw [List.take_succ_cons, hcons, hcons, hcut, List.take_length_add_append, ih]

end Text

/-- A character as a format stores it. -/
def TextEncoding.stored : TextEncoding → Char → Bytes
  | singleByte => Text.singleByte
  | utf16 => Text.utf16Bytes

/-- **Text is stored character by character.** -/
theorem TextEncoding.encode_eq_flatMap (encoding : TextEncoding) (s : String) :
    encoding.encode s = s.toList.flatMap encoding.stored := by
  cases encoding with
  | singleByte => exact List.map_eq_flatMap
  | utf16 => exact Text.toBytes_encode s.toList

/-! ## §2  Passwords of office files -/

/-- What is hashed of a password: its first 255 units in UTF-16, two bytes each. -/
def officePassword (password : Option String) : Bytes :=
  ((password.getD "").toList.flatMap Text.utf16Bytes).take 510

theorem passwordBytes_eq_officePassword (password : Option String) :
    passwordBytes password = officePassword password := by
  cases password with
  | none => rfl
  | some password =>
      show Text.Utf16.toBytes ((Text.Utf16.encode password.toList).take 255) = _
      rw [Text.Utf16.toBytes_take, Text.toBytes_encode]
      rfl

/-- A character of one unit, and one of two. -/
example : officePassword (some "é😀") = [0xE9, 0x00, 0x3D, 0xD8, 0x00, 0xDE] := by
  decide +kernel

/-! ## §3  Passwords of MSISAM files -/

namespace Msisam

/-- What is hashed of a password for a newer file: its upper case as the format stores it, with
zeros behind it, forty bytes of that. -/
def effective (encoding : TextEncoding) (password : Option String) : Bytes :=
  (((password.getD "").toList.flatMap Text.capitals).flatMap encoding.stored
    ++ List.replicate 40 0).take 40

theorem Lock.passwordField_eq_effective (lock : Lock) (password : Option String) :
    lock.passwordField password = effective lock.textEncoding password := by
  cases password with
  | none => rfl
  | some password =>
      have hupper : (Text.upper password).toList = password.toList.flatMap Text.capitals := by
        rw [Text.upper, String.toList_ofList, Text.upperChars]
        exact List.flatMap_congr fun c _ => Text.upperChar_eq_capitals c
      show Bytes.fit 40 0 (lock.textEncoding.encode (Text.upper password)) = _
      rw [Bytes.fit_eq_take, TextEncoding.encode_eq_flatMap, hupper]
      rfl

/-- A letter of a range, one whose upper case is two, and a character without a byte. -/
example : (effective .singleByte (some "éß€")).take 5 = [0xC9, 0x53, 0x53, 0x3F, 0] := by
  decide +kernel

end Msisam

end PageVault
