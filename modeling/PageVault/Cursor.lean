import PageVault.Bytes
import PageVault.Error

/-!
# Reading fields in order

A `Cursor` is a byte string with a position in it; the position never lies past
the end.  A `Reading` takes fields from the cursor one after another.  A reading
that fails leaves the cursor where the last successful step put it, which is why
the cursor is returned beside the outcome and not inside it.

Fields of a header page lie at fixed offsets instead; they are read with
`Bytes.field` and `Bytes.byteAt`, which need no cursor.
-/

namespace PageVault

structure Cursor where
  data : Bytes
  position : Nat
  position_le : position ≤ data.length

namespace Cursor

def start (data : Bytes) : Cursor :=
  ⟨data, 0, Nat.zero_le _⟩

def remaining (c : Cursor) : Bytes :=
  c.data.drop c.position

theorem length_remaining (c : Cursor) : c.remaining.length = c.data.length - c.position := by
  simp [remaining]

@[simp] theorem remaining_start (data : Bytes) : (start data).remaining = data := rfl

end Cursor

/-- A step that takes fields from a cursor. -/
def Reading (α : Type) : Type :=
  Cursor → Except Error α × Cursor

namespace Reading

def pure {α : Type} (a : α) : Reading α :=
  fun c => (.ok a, c)

/-- One step, then, if it succeeded, another one from where it stopped. -/
def bind {α β : Type} (m : Reading α) (f : α → Reading β) : Reading β :=
  fun c =>
    match m c with
    | (.ok a, c') => f a c'
    | (.error e, c') => (.error e, c')

instance : Monad Reading where
  pure := pure
  bind := bind

/-- An outcome that does not depend on the cursor. -/
def lift {α : Type} (r : Except Error α) : Reading α :=
  fun c => (r, c)

def fail {α : Type} (e : Error) : Reading α :=
  lift (.error e)

def take (n : Nat) (field : String) : Reading Bytes :=
  fun c =>
    if h : c.position + n ≤ c.data.length then
      (.ok (c.remaining.take n), ⟨c.data, c.position + n, h⟩)
    else (.error (.truncated field), c)

def word16 (field : String) : Reading UInt16 := do
  let b ← take 2 field
  return UInt16.ofNat (Bytes.toNatLE b)

def word32 (field : String) : Reading UInt32 := do
  let b ← take 4 field
  return UInt32.ofNat (Bytes.toNatLE b)

/-- Moves to `position`, which may be the end but not lie past it. -/
def seek (position : Nat) : Reading Unit :=
  fun c =>
    if h : position ≤ c.data.length then (.ok (), ⟨c.data, position, h⟩)
    else (.error (.format (.seekPastEnd position c.data.length)), c)

/-- The bytes from the position on; the cursor stays. -/
def rest : Reading Bytes :=
  fun c => (.ok c.remaining, c)

/-- The bytes a successful `take` returns are the next ones, and there are `n`. -/
theorem take_eq_ok {n : Nat} {field : String} {c : Cursor}
    (h : c.position + n ≤ c.data.length) :
    take n field c = (.ok (c.remaining.take n), ⟨c.data, c.position + n, h⟩) :=
  dif_pos h

/-- A `take` past the end fails and does not move. -/
theorem take_eq_error {n : Nat} {field : String} {c : Cursor}
    (h : c.data.length < c.position + n) :
    take n field c = (.error (.truncated field), c) :=
  dif_neg (by omega)

end Reading

namespace Bytes

def field (offset len : Nat) (name : String) (header : Bytes) : Except Error Bytes :=
  match slice? offset len header with
  | some b => .ok b
  | none => .error (.truncated name)

def byteAt (offset : Nat) (name : String) (header : Bytes) : Except Error UInt8 :=
  match header[offset]? with
  | some b => .ok b
  | none => .error (.truncated name)

theorem field_eq_ok {offset len : Nat} {name : String} {header : Bytes}
    (h : offset + len ≤ header.length) :
    field offset len name header = .ok ((header.drop offset).take len) := by
  simp [field, slice?, h]

theorem field_eq_error {offset len : Nat} {name : String} {header : Bytes}
    (h : header.length < offset + len) :
    field offset len name header = .error (.truncated name) := by
  have h' : ¬ offset + len ≤ header.length := by omega
  simp [field, slice?, h']

end Bytes

end PageVault
