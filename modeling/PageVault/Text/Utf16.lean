import PageVault.Bytes

/-!
# UTF-16 text

Passwords are hashed as little-endian UTF-16 and provider names are stored that
way.  A character above `U+FFFF` takes two units, a high and a low surrogate.
Encoding is total; decoding is lossy, because a stored name can hold a surrogate
that has no partner, which reads as the replacement character `U+FFFD`.
-/

namespace PageVault.Text.Utf16

def isHigh (u : UInt16) : Bool :=
  0xD800 ≤ u && u ≤ 0xDBFF

def isLow (u : UInt16) : Bool :=
  0xDC00 ≤ u && u ≤ 0xDFFF

def unitsOf (c : Char) : List UInt16 :=
  if c.toNat < 0x10000 then [UInt16.ofNat c.toNat]
  else
    [UInt16.ofNat (0xD800 + (c.toNat - 0x10000) / 0x400),
     UInt16.ofNat (0xDC00 + (c.toNat - 0x10000) % 0x400)]

def encode (cs : List Char) : List UInt16 :=
  cs.flatMap unitsOf

/-- The character of a unit that stands alone; a surrogate that does is replaced. -/
def single (u : UInt16) : Char :=
  if isHigh u || isLow u then '\uFFFD' else Char.ofNat u.toNat

/-- The character of a high and a low surrogate. -/
def paired (high low : UInt16) : Char :=
  Char.ofNat (0x10000 + 0x400 * (high.toNat - 0xD800) + (low.toNat - 0xDC00))

/-- The text of a sequence of units.  A unit that is refused as the second half
of a pair is read again on its own. -/
def decode : List UInt16 → List Char
  | [] => []
  | [u] => [single u]
  | u :: v :: rest =>
      if isHigh u && isLow v then paired u v :: decode rest
      else single u :: decode (v :: rest)

/-- The units as bytes, the low byte of each first. -/
def toBytes (units : List UInt16) : Bytes :=
  units.flatMap Bytes.le16

/-- The units of a byte string; an odd last byte is left out. -/
def ofBytes : Bytes → List UInt16
  | a :: b :: rest => UInt16.ofNat (Bytes.toNatLE [a, b]) :: ofBytes rest
  | _ => []

def bytesOf (s : String) : Bytes :=
  toBytes (encode s.toList)

@[simp] theorem encode_nil : encode [] = [] := rfl

@[simp] theorem encode_append (a b : List Char) : encode (a ++ b) = encode a ++ encode b := by
  simp [encode]

@[simp] theorem toBytes_append (a b : List UInt16) :
    toBytes (a ++ b) = toBytes a ++ toBytes b := by
  simp [toBytes]

@[simp] theorem length_toBytes (units : List UInt16) :
    (toBytes units).length = 2 * units.length := by
  induction units with
  | nil => rfl
  | cons u units ih =>
      simp only [toBytes, List.flatMap_cons, List.length_append, Bytes.length_le16] at ih ⊢
      rw [ih, List.length_cons]
      omega

end PageVault.Text.Utf16
