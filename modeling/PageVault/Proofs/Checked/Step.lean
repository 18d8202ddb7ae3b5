import PageVault.Proofs.Reading

/-!
# Steps that have bounds

The operations that files are opened with are total here: a piece cut from a list that is
too short is a shorter list, a number has no width, and division by zero is zero.  On a
machine they are not.  An index has to lie within its buffer, a sum within its width, a
divisor must not be zero, a cipher takes keys and blocks of some lengths only; elsewhere
the machine stops.

`Checked` computations are computations on such a machine.  Each step that has a bound
tests it and is *trapped* if it does not hold; that is apart from being *refused* with an
error, which is an outcome.  A checked computation `Refines` an outcome if it comes to just
that: the same value or the same error, and no trap.  Since a computation in several steps
refines what its steps refine, every function needs one lemma about its own steps.

§1 traps · §2 refinement · §3 steps with bounds · §4 bytes · §5 readings.
-/

namespace PageVault

/-- Why a step has no result. -/
inductive Trap where
  /-- An index past the end of a buffer. -/
  | index
  /-- A range that does not lie within a buffer. -/
  | range
  /-- A copy between buffers of different lengths. -/
  | copy
  /-- A number that does not fit its width, or a shift by the whole width. -/
  | overflow
  | zeroDivisor
  /-- A key that a cipher does not take. -/
  | key
  /-- A block that is not as long as the blocks of a cipher. -/
  | block
  /-- A loop that does not come to an end. -/
  | endless
deriving DecidableEq

/-- Why a computation stopped. -/
inductive Stop where
  | trapped (trap : Trap)
  | refused (error : Error)
deriving DecidableEq

/-- A computation with steps that have bounds. -/
abbrev Checked (α : Type) : Type :=
  Except Stop α

namespace Checked

variable {α β σ : Type}

/-! ## §1  Traps -/

/-- The result of a step, if its bound holds. -/
def within (bound : Prop) [Decidable bound] (trap : Trap) (a : α) : Checked α :=
  if bound then .ok a else .error (.trapped trap)

theorem within_of {bound : Prop} [Decidable bound] (h : bound) (trap : Trap) (a : α) :
    within bound trap a = .ok a :=
  if_pos h

/-- An outcome that was come to without steps of its own. -/
def settled (r : Except Error α) : Checked α :=
  r.mapError .refused

def refuse (e : Error) : Checked α :=
  .error (.refused e)

/-- The outcome of a computation, for another one that goes on after an error.  A trap
is no outcome. -/
def outcome : Checked α → Checked (Except Error α)
  | .ok a => .ok (.ok a)
  | .error (.refused e) => .ok (.error e)
  | .error (.trapped trap) => .error (.trapped trap)

/-! ## §2  Refinement -/

/-- The computation comes to this outcome. -/
def Refines (g : Checked α) (r : Except Error α) : Prop :=
  g = settled r

theorem refines_ok (a : α) : Refines (.ok a) (.ok a) := rfl

theorem refines_settled (r : Except Error α) : Refines (settled r) r := rfl

theorem refines_refuse (e : Error) : Refines (refuse e : Checked α) (.error e) := rfl

theorem ok_bind (a : α) (k : α → Checked β) : ((.ok a : Checked α) >>= k) = k a := rfl

/-- **Steps in a row refine steps in a row.** -/
theorem Refines.bind {g : Checked α} {r : Except Error α} {k : α → Checked β}
    {k' : α → Except Error β} (h : Refines g r) (hk : ∀ a, r = .ok a → Refines (k a) (k' a)) :
    Refines (g >>= k) (r >>= k') := by
  unfold Refines at h
  rw [h]
  cases r with
  | error e => rfl
  | ok a => exact hk a rfl

/-- A last step that has a result wherever it is come to. -/
theorem Refines.map {g : Checked α} {r : Except Error α} {k : α → Checked β} {f : α → β}
    (h : Refines g r) (hk : ∀ a, r = .ok a → k a = .ok (f a)) :
    Refines (g >>= k) (r.map f) := by
  unfold Refines at h
  rw [h]
  cases r with
  | error e => rfl
  | ok a => exact hk a rfl

theorem Refines.ite {p : Prop} [Decidable p] {g g' : Checked α} {r r' : Except Error α}
    (h : p → Refines g r) (h' : ¬ p → Refines g' r') :
    Refines (if p then g else g') (if p then r else r') := by
  by_cases hp : p
  · rw [if_pos hp, if_pos hp]
    exact h hp
  · rw [if_neg hp, if_neg hp]
    exact h' hp

theorem Refines.outcome_eq {g : Checked α} {r : Except Error α} (h : Refines g r) :
    outcome g = .ok r := by
  unfold Refines at h
  rw [h]
  cases r with
  | error e => rfl
  | ok a => rfl

/-- A loop whose steps have results. -/
theorem foldlM_eq_ok {f : σ → α → Checked σ} {g : σ → α → σ} {l : List α}
    (h : ∀ s, ∀ x ∈ l, f s x = .ok (g s x)) (s : σ) : l.foldlM f s = .ok (l.foldl g s) := by
  induction l generalizing s with
  | nil => rfl
  | cons x l ih =>
      rw [List.foldlM_cons, h s x List.mem_cons_self, ok_bind, List.foldl_cons]
      exact ih (fun s y hy => h s y (List.mem_cons_of_mem x hy)) (g s x)

@[inherit_doc foldlM_eq_ok]
theorem mapM_eq_ok {f : α → Checked β} {g : α → β} {l : List α} (h : ∀ x ∈ l, f x = .ok (g x)) :
    l.mapM f = .ok (l.map g) := by
  induction l with
  | nil => rfl
  | cons x l ih =>
      rw [List.mapM_cons, h x List.mem_cons_self, ok_bind,
        ih fun y hy => h y (List.mem_cons_of_mem x hy)]
      rfl

/-! ## §3  Steps with bounds -/

/-- The width of numbers that count and index bytes. -/
abbrev wordBits : Nat := 64

/-- No buffer and no text is longer than this. -/
def maxLength : Nat := 2 ^ (wordBits - 1) - 1

/-- The byte at an index. -/
def byte (b : Bytes) (i : Nat) : Checked UInt8 :=
  within (i < b.length) .index (b.getD i 0)

/-- The bytes from `first` up to `last`. -/
def range (b : Bytes) (first last : Nat) : Checked Bytes :=
  within (first ≤ last ∧ last ≤ b.length) .range ((b.drop first).take (last - first))

/-- A buffer after `source` has been copied to it. -/
def copy (target source : Bytes) : Checked Bytes :=
  within (target.length = source.length) .copy source

def add (bits a b : Nat) : Checked Nat :=
  within (a + b < 2 ^ bits) .overflow (a + b)

def mul (bits a b : Nat) : Checked Nat :=
  within (a * b < 2 ^ bits) .overflow (a * b)

def div (a n : Nat) : Checked Nat :=
  within (n ≠ 0) .zeroDivisor (a / n)

def mod (a n : Nat) : Checked Nat :=
  within (n ≠ 0) .zeroDivisor (a % n)

def shiftLeft (x : UInt32) (n : Nat) : Checked UInt32 :=
  within (n < 32) .overflow (x <<< UInt32.ofNat n)

/-- The quotient rounded up. -/
def divCeil (bits a n : Nat) : Checked Nat := do
  let quotient ← div a n
  let rest ← mod a n
  if 0 < rest then add bits quotient 1 else return quotient

/-- The sum, or the greatest number there is; this step has no bound. -/
def saturatingAdd (a b : Nat) : Nat :=
  min (a + b) (2 ^ wordBits - 1)

variable {b : Bytes} {bits a n first last : Nat}

theorem byte_eq {i : Nat} (h : i < b.length) : byte b i = .ok (b.getD i 0) :=
  within_of h _ _

theorem range_eq (h : first ≤ last) (h' : last ≤ b.length) :
    range b first last = .ok ((b.drop first).take (last - first)) :=
  within_of ⟨h, h'⟩ _ _

theorem range_zero (h : n ≤ b.length) : range b 0 n = .ok (b.take n) :=
  range_eq (Nat.zero_le n) h

theorem range_to_end (h : first ≤ b.length) : range b first b.length = .ok (b.drop first) := by
  rw [range_eq h (Nat.le_refl _), ← List.length_drop, List.take_length]

theorem copy_eq {target source : Bytes} (h : target.length = source.length) :
    copy target source = .ok source :=
  within_of h _ _

theorem add_eq (h : a + n < 2 ^ bits) : add bits a n = .ok (a + n) :=
  within_of h _ _

theorem mul_eq (h : a * n < 2 ^ bits) : mul bits a n = .ok (a * n) :=
  within_of h _ _

theorem div_eq (h : n ≠ 0) : div a n = .ok (a / n) :=
  within_of h _ _

theorem mod_eq (h : n ≠ 0) : mod a n = .ok (a % n) :=
  within_of h _ _

theorem shiftLeft_eq {x : UInt32} (h : n < 32) : shiftLeft x n = .ok (x <<< UInt32.ofNat n) :=
  within_of h _ _

/-- Rounding up never leaves the width of the dividend. -/
theorem divCeil_eq (ha : a < 2 ^ bits) (hn : 0 < n) :
    divCeil bits a n = .ok ((a + (n - 1)) / n) := by
  have hmod := Nat.div_add_mod a n
  have hlt := Nat.mod_lt a hn
  unfold divCeil
  rw [div_eq (by omega), ok_bind, mod_eq (by omega), ok_bind]
  by_cases hr : 0 < a % n
  · have hq : a / n * 2 ≤ n * (a / n) := by
      rw [Nat.mul_comm n]
      exact Nat.mul_le_mul_left _ (by omega)
    have hup : (a + (n - 1)) / n = a / n + 1 := by
      rw [Nat.div_eq_iff hn, Nat.add_mul, Nat.mul_comm (a / n)]
      omega
    rw [if_pos hr, hup]
    exact add_eq (by omega)
  · have hdown : (a + (n - 1)) / n = a / n := by
      rw [Nat.div_eq_iff hn, Nat.mul_comm (a / n)]
      omega
    rw [if_neg hr, hdown]
    rfl

/-- No buffer is as long as the greatest number there is. -/
theorem lt_of_le_maxLength {len : Nat} (h : len ≤ maxLength) : len < 2 ^ wordBits - 1 :=
  Nat.lt_of_le_of_lt h (by decide)

/-- **A sum that is cut stays within a buffer exactly if the sum does.** -/
theorem saturatingAdd_le_iff {len : Nat} (hlen : len < 2 ^ wordBits - 1) :
    saturatingAdd a n ≤ len ↔ a + n ≤ len := by
  unfold saturatingAdd
  omega

theorem saturatingAdd_eq {len : Nat} (hlen : len < 2 ^ wordBits - 1) (h : a + n ≤ len) :
    saturatingAdd a n = a + n :=
  Nat.min_eq_left (Nat.le_of_lt (Nat.lt_of_le_of_lt h hlen))

/-! ## §4  Bytes -/

def range? (b : Bytes) (first last : Nat) : Option Bytes :=
  if first ≤ last ∧ last ≤ b.length then some ((b.drop first).take (last - first)) else none

/-- A field of a header.  Where it ends is a number of the machine as well. -/
def field (offset len : Nat) (name : String) (header : Bytes) : Checked Bytes :=
  match range? header offset (saturatingAdd offset len) with
  | some b => .ok b
  | none => refuse (.truncated name)

theorem field_eq (hb : b.length < 2 ^ wordBits - 1) (offset len : Nat) (name : String) :
    field offset len name b = settled (Bytes.field offset len name b) := by
  have hstop : saturatingAdd offset len ≤ b.length ↔ offset + len ≤ b.length :=
    saturatingAdd_le_iff hb
  unfold field range?
  rcases Nat.lt_or_ge b.length (offset + len) with hlt | hle
  · rw [Bytes.field_eq_error hlt, if_neg (by omega)]
    rfl
  · rw [saturatingAdd_eq hb hle, if_pos ⟨Nat.le_add_right _ _, hle⟩, Nat.add_sub_cancel_left,
      Bytes.field_eq_ok hle]
    rfl

theorem refines_field (hb : b.length ≤ maxLength) (offset len : Nat) (name : String) :
    Refines (field offset len name b) (Bytes.field offset len name b) :=
  field_eq (lt_of_le_maxLength hb) offset len name

/-- A field that would end past all numbers there are is refused like any other. -/
example : field (2 ^ 64 - 1) 4 "salt" [1, 2, 3] = refuse (.truncated "salt") := by
  decide

/-- Cutting the same bytes without asking first is trapped. -/
example : range [1, 2, 3] 2 6 = .error (.trapped .range) := by
  decide

theorem length_of_field_eq_ok {offset len : Nat} {name : String} {header : Bytes}
    (h : Bytes.field offset len name header = .ok b) : b.length = len := by
  unfold Bytes.field at h
  split at h
  · rename_i hs
    cases h
    exact Bytes.length_of_slice?_eq_some hs
  · cases h

/-- Two strings in a row, in a buffer of their common length. -/
def concat (b b' : Bytes) : Checked Bytes := do
  let _ ← add wordBits b.length b'.length
  return b ++ b'

theorem concat_eq {b' : Bytes} (h : b.length + b'.length < 2 ^ wordBits) :
    concat b b' = .ok (b ++ b') := by
  unfold concat
  rw [add_eq h, ok_bind]
  rfl

/-- A byte of a string that is repeated without end. -/
def wrapped (pattern : Bytes) (i : Nat) : Checked UInt8 := do
  let k ← mod i pattern.length
  byte pattern k

theorem wrapped_eq {pattern : Bytes} (h : pattern.length ≠ 0) (i : Nat) :
    wrapped pattern i = .ok (pattern.getD (i % pattern.length) 0) := by
  unfold wrapped
  rw [mod_eq h, ok_bind]
  exact byte_eq (Nat.mod_lt _ (Nat.pos_of_ne_zero h))

/-- A key with a page number mixed into the four bytes at `offset`. -/
def withPageNumber (offset : Nat) (page : UInt32) (key : Bytes) : Checked Bytes := do
  let stop ← add wordBits offset 4
  let whole := if key.length < stop then Bytes.fit stop 0 key else key
  let target ← range whole offset stop
  return whole.take offset ++ Bytes.xor target (Bytes.le32 page) ++ whole.drop stop

theorem withPageNumber_eq {offset : Nat} (h : offset + 4 < 2 ^ wordBits) (page : UInt32)
    (key : Bytes) :
    withPageNumber offset page key = .ok (Bytes.withPageNumber offset page key) := by
  have hroom : offset + 4
      ≤ (if key.length < offset + 4 then Bytes.fit (offset + 4) 0 key else key).length := by
    split
    · exact Nat.le_of_eq (Bytes.length_fit _ _ _).symm
    · omega
  unfold withPageNumber
  rw [add_eq h, ok_bind]
  dsimp only
  rw [range_eq (Nat.le_add_right _ _) hroom, ok_bind, Nat.add_sub_cancel_left]
  rfl

/-! ## §5  Readings -/

/-- A reading by checked steps. -/
def Reader (α : Type) : Type :=
  Cursor → Checked α × Cursor

namespace Reader

def pure (a : α) : Reader α :=
  fun c => (.ok a, c)

def bind (m : Reader α) (f : α → Reader β) : Reader β :=
  fun c =>
    match m c with
    | (.ok a, c') => f a c'
    | (.error stop, c') => (.error stop, c')

instance : Monad Reader where
  pure := pure
  bind := bind

/-- A computation that does not depend on the cursor. -/
def lift (g : Checked α) : Reader α :=
  fun c => (g, c)

def take (n : Nat) (field : String) : Reader Bytes :=
  fun c =>
    let stop := saturatingAdd c.position n
    if h : stop ≤ c.data.length then (range c.data c.position stop, ⟨c.data, stop, h⟩)
    else (refuse (.truncated field), c)

def word16 (field : String) : Reader UInt16 := do
  let b ← take 2 field
  lift do
    let low ← byte b 0
    let high ← byte b 1
    return UInt16.ofNat (Bytes.toNatLE [low, high])

def word32 (field : String) : Reader UInt32 := do
  let b ← take 4 field
  lift do
    let b₀ ← byte b 0
    let b₁ ← byte b 1
    let b₂ ← byte b 2
    let b₃ ← byte b 3
    return UInt32.ofNat (Bytes.toNatLE [b₀, b₁, b₂, b₃])

def rest : Reader Bytes :=
  fun c => (range c.data c.position c.data.length, c)

/-- On any buffer there can be, the reader comes to the outcome of the reading and stops
at the same position of the same buffer. -/
def Agrees (m : Reader α) (r : Reading α) : Prop :=
  ∀ c : Cursor, c.data.length ≤ maxLength →
    m c = (settled (r c).1, (r c).2) ∧ (r c).2.data = c.data

/-- A value that a reading gives on a buffer there can be. -/
def Given (r : Reading α) (a : α) : Prop :=
  ∃ c c' : Cursor, c.data.length ≤ maxLength ∧ r c = (.ok a, c')

theorem agrees_pure (a : α) : Agrees (Pure.pure a) (Pure.pure a) :=
  fun _ _ => ⟨rfl, rfl⟩

theorem agrees_lift {g : Checked α} {r : Except Error α} (h : Refines g r) :
    Agrees (lift g) (Reading.lift r) := by
  intro c _
  exact ⟨congrArg (·, c) h, rfl⟩

/-- **Readers in a row agree with readings in a row.** -/
theorem Agrees.bind {m : Reader α} {r : Reading α} {k : α → Reader β} {k' : α → Reading β}
    (h : Agrees m r) (hk : ∀ a, Given r a → Agrees (k a) (k' a)) :
    Agrees (m >>= k) (r >>= k') := by
  intro c hc
  obtain ⟨hm, hdata⟩ := h c hc
  show Reader.bind m k c = _ ∧ (Reading.bind r k' c).2.data = _
  show _ = (settled (Reading.bind r k' c).1, (Reading.bind r k' c).2) ∧ _
  unfold Reader.bind Reading.bind
  rw [hm]
  rcases hr : r c with ⟨e | a, c'⟩
  · rw [hr] at hdata
    exact ⟨rfl, hdata⟩
  · rw [hr] at hdata
    obtain ⟨hk, hdata'⟩ := hk a ⟨c, c', hc, hr⟩ c' (by rwa [hdata])
    exact ⟨hk, hdata'.trans hdata⟩

theorem Agrees.ite {p : Prop} [Decidable p] {m m' : Reader α} {r r' : Reading α}
    (h : p → Agrees m r) (h' : ¬ p → Agrees m' r') :
    Agrees (if p then m else m') (if p then r else r') := by
  by_cases hp : p
  · rw [if_pos hp, if_pos hp]
    exact h hp
  · rw [if_neg hp, if_neg hp]
    exact h' hp

theorem agrees_take (n : Nat) (field : String) : Agrees (take n field) (Reading.take n field) := by
  intro c hc
  have hlen := lt_of_le_maxLength hc
  have hstop : saturatingAdd c.position n ≤ c.data.length ↔ c.position + n ≤ c.data.length :=
    saturatingAdd_le_iff hlen
  unfold take
  rcases Nat.lt_or_ge c.data.length (c.position + n) with hlt | hle
  · rw [Reading.take_eq_error hlt]
    refine ⟨?_, rfl⟩
    dsimp only
    rw [dif_neg (by omega)]
    rfl
  · rw [Reading.take_eq_ok hle]
    refine ⟨?_, rfl⟩
    simp only [saturatingAdd_eq hlen hle]
    rw [dif_pos hle, range_eq (Nat.le_add_right _ _) hle, Nat.add_sub_cancel_left]
    rfl

theorem length_of_given_take {n : Nat} {field : String} (h : Given (Reading.take n field) b) :
    b.length = n := by
  obtain ⟨c, c', -, h⟩ := h
  exact Reading.length_of_take_eq_ok h

theorem agrees_word16 (field : String) : Agrees (word16 field) (Reading.word16 field) := by
  refine (agrees_take 2 field).bind ?_
  intro b hb
  obtain ⟨low, high, rfl⟩ := List.length_eq_two.mp (length_of_given_take hb)
  exact agrees_lift rfl

theorem agrees_word32 (field : String) : Agrees (word32 field) (Reading.word32 field) := by
  refine (agrees_take 4 field).bind ?_
  intro b hb
  obtain ⟨b₀, b₁, b₂, b₃, rfl⟩ := List.length_eq_four.mp (length_of_given_take hb)
  exact agrees_lift rfl

theorem agrees_rest : Agrees rest Reading.rest := by
  intro c _
  unfold rest
  rw [range_to_end c.position_le]
  exact ⟨rfl, rfl⟩

theorem length_of_given_rest (h : Given Reading.rest b) : b.length ≤ maxLength := by
  obtain ⟨c, c', hc, h⟩ := h
  cases h
  rw [Cursor.length_remaining]
  omega

end Reader

end Checked

end PageVault
