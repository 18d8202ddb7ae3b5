import Mathlib.Data.List.SplitLengths
import Mathlib.Logic.Equiv.Basic
import PageVault.Cipher.Rc4
import PageVault.Proofs.ByteTable
import PageVault.Proofs.Bytes

/-!
# The state of RC4

Nothing ever happens to the table of a state but that two of its entries are exchanged, so it
holds each byte once, from key scheduling on and however much keystream it has given.  The
two indices may be the same one, and then the exchange changes nothing.

A state goes on where it stopped.  So it makes no difference in what pieces data come, as
long as they are consecutive.  That is what the verifiers in two fields and the pages that
are encoded in part rest on.  A key, in turn, only counts through the 256 bytes that it is
repeated to.

A table is also a number, with its entries for digits.  Exchanging entries is arithmetic then,
and a run is a matter of some hundred steps with one number (`keystream_ofKey`).

§1 tables · §2 keys · §3 states as numbers · §4 pieces · §5 state and stream.
-/

namespace PageVault

/-! ## §1  Tables -/

/-- Every byte is in the table, and in one place only. -/
def ByteTable.IsPermutation (t : ByteTable UInt8) : Prop :=
  Function.Bijective t.entry

theorem ByteTable.entry_eq_getElem (t : ByteTable UInt8) {x : UInt8} (hx : x.toNat < 256) :
    t.entry x = t[x.toNat] := rfl

namespace Rc4

/-- The entries of an exchanged table are found where the exchange has put them. -/
theorem entry_swapped (t : ByteTable UInt8) (i j x : UInt8) :
    (swapped t i j).entry x = t.entry (Equiv.swap i j x) := by
  rw [ByteTable.entry_eq_getElem _ x.toNat_lt, swapped, Vector.getElem_swap, Equiv.swap_apply_def]
  simp only [UInt8.toNat_inj]
  split_ifs <;> rfl

theorem isPermutation_swapped {t : ByteTable UInt8} (ht : t.IsPermutation) (i j : UInt8) :
    (swapped t i j).IsPermutation := by
  have hentry : (swapped t i j).entry = t.entry ∘ Equiv.swap i j := by
    funext x
    exact entry_swapped t i j x
  unfold ByteTable.IsPermutation
  rw [hentry]
  exact ht.comp (Equiv.swap i j).bijective

theorem isPermutation_identity : identity.IsPermutation := by
  have hentry : identity.entry = id := by
    funext x
    rw [ByteTable.entry_eq_getElem _ x.toNat_lt, identity, ByteTable.ofFn, Vector.getElem_ofFn,
      UInt8.ofNat_toNat, id_eq]
  unfold ByteTable.IsPermutation
  rw [hentry]
  exact Function.bijective_id

/-- The table after any number of steps of key scheduling. -/
theorem isPermutation_foldl_keyStep (steps : List (Nat × UInt8)) {s : ByteTable UInt8 × UInt8}
    (hs : s.1.IsPermutation) :
    (steps.foldl (fun s ik => keyStep s (UInt8.ofNat ik.1) ik.2) s).1.IsPermutation := by
  induction steps generalizing s with
  | nil => exact hs
  | cons ik steps ih => exact ih (isPermutation_swapped hs _ _)

theorem isPermutation_ofKey (key : Bytes) : (ofKey key).table.IsPermutation := by
  cases key with
  | nil => exact isPermutation_identity
  | cons k key => exact isPermutation_foldl_keyStep _ isPermutation_identity

theorem isPermutation_next {s : Rc4} (hs : s.table.IsPermutation) :
    s.next.2.table.IsPermutation :=
  isPermutation_swapped hs _ _

/-- The table after any number of bytes. -/
theorem isPermutation_apply {s : Rc4} (hs : s.table.IsPermutation) (data : Bytes) :
    (s.apply data).2.table.IsPermutation := by
  induction data generalizing s with
  | nil => exact hs
  | cons x data ih => exact ih (isPermutation_next hs)

/-! ## §2  Keys -/

theorem ofKey_of_ne_nil {key : Bytes} (h : key ≠ []) :
    ofKey key = ⟨((List.range 256).zip (Bytes.cycle key 256) |>.foldl
      (fun s ik => keyStep s (UInt8.ofNat ik.1) ik.2) (identity, 0)).1, 0, 0⟩ := by
  cases key with
  | nil => exact absurd rfl h
  | cons k key => rfl

/-- Keys that are repeated to the same 256 bytes set up the same state. -/
theorem ofKey_congr {key key' : Bytes} (h : key ≠ []) (h' : key' ≠ [])
    (hcycle : Bytes.cycle key 256 = Bytes.cycle key' 256) : ofKey key = ofKey key' := by
  rw [ofKey_of_ne_nil h, ofKey_of_ne_nil h', hcycle]

/-- A pattern that consists of repetitions of a shorter one. -/
theorem cycle_flatten_replicate (pattern : Bytes) (count n : Nat) :
    Bytes.cycle (List.replicate (count + 1) pattern).flatten n = Bytes.cycle pattern n := by
  rw [← Bytes.cycle_mul_length]
  unfold Bytes.cycle
  refine List.map_congr_left fun i _ => ?_
  rw [List.length_map, List.length_range]
  rcases Nat.eq_zero_or_pos pattern.length with hzero | hpos
  · rw [List.length_eq_zero_iff.mp hzero]
    simp
  · have hlt : i % ((count + 1) * pattern.length) < (count + 1) * pattern.length :=
      Nat.mod_lt _ (Nat.mul_pos (Nat.succ_pos count) hpos)
    simp [hlt, Nat.mod_mod_of_dvd i (Nat.dvd_mul_left _ _)]

theorem ofKey_flatten_replicate (key : Bytes) (count : Nat) :
    ofKey (List.replicate (count + 1) key).flatten = ofKey key := by
  rcases eq_or_ne key [] with rfl | h
  · simp
  · refine ofKey_congr ?_ h (cycle_flatten_replicate key count 256)
    simp [h]

/-! ## §3  States as numbers -/

/-- A digit to base 256. -/
def digit (n x : Nat) : Nat :=
  n >>> (8 * x) % 256

/-- Two digits exchanged: their difference is added in both places. -/
def exchanged (n x y : Nat) : Nat :=
  let d := digit n x ^^^ digit n y
  n ^^^ (d <<< (8 * x) ^^^ d <<< (8 * y))

/-- The numbers of a state, with the table as the one whose digits are its entries. -/
structure Numbers where
  table : Nat
  i : Nat
  j : Nat

namespace Numbers

def keyStep (s : Nat × Nat) (i k : Nat) : Nat × Nat :=
  let j := (s.2 + digit s.1 i + k) % 256
  (exchanged s.1 i j, j)

def ofKey (key : Bytes) : Numbers :=
  ⟨((List.range 256).zip (Bytes.cycle key 256) |>.foldl
    (fun s ik => keyStep s ik.1 ik.2.toNat) (identity.packed, 0)).1, 0, 0⟩

def next (s : Numbers) : Nat × Numbers :=
  let i := (s.i + 1) % 256
  let j := (s.j + digit s.table i) % 256
  let t := exchanged s.table i j
  (digit t ((digit t i + digit t j) % 256), ⟨t, i, j⟩)

def keystream (s : Numbers) : (n : Nat) → Bytes
  | 0 => []
  | n + 1 => UInt8.ofNat s.next.1 :: s.next.2.keystream n

end Numbers

theorem digit_lt (n x : Nat) : digit n x < 256 :=
  Nat.mod_lt _ (by decide)

theorem digit_xor (m n x : Nat) : digit (m ^^^ n) x = digit m x ^^^ digit n x := by
  unfold digit
  rw [Nat.shiftRight_xor_distrib]
  exact Nat.xor_mod_two_pow (n := 8)

theorem digit_shiftLeft {d : Nat} (hd : d < 256) (x z : Nat) :
    digit (d <<< (8 * x)) z = if z = x then d else 0 := by
  unfold digit
  rw [Nat.shiftRight_eq_div_pow, Nat.shiftLeft_eq]
  rcases Nat.lt_trichotomy z x with hlt | rfl | hgt
  · obtain ⟨k, rfl⟩ : ∃ k, x = z + 1 + k := ⟨x - (z + 1), by omega⟩
    have hpow : 2 ^ (8 * (z + 1 + k)) = 2 ^ (8 * k) * 256 * 2 ^ (8 * z) := by
      rw [show 8 * (z + 1 + k) = 8 * k + 8 + 8 * z by omega, Nat.pow_add, Nat.pow_add]
    rw [hpow, ← Nat.mul_assoc, Nat.mul_div_cancel _ (Nat.two_pow_pos _), ← Nat.mul_assoc,
      Nat.mul_mod_left, if_neg (Nat.ne_of_lt hlt)]
  · rw [Nat.mul_div_cancel _ (Nat.two_pow_pos _), Nat.mod_eq_of_lt hd, if_pos rfl]
  · have hsmall : d * 2 ^ (8 * x) < 2 ^ (8 * z) := by
      calc d * 2 ^ (8 * x) < 2 ^ 8 * 2 ^ (8 * x) :=
            Nat.mul_lt_mul_of_pos_right hd (Nat.two_pow_pos _)
        _ = 2 ^ (8 + 8 * x) := (Nat.pow_add 2 8 (8 * x)).symm
        _ ≤ 2 ^ (8 * z) := Nat.pow_le_pow_right (by decide) (by omega)
    rw [Nat.div_eq_of_lt hsmall, Nat.zero_mod, if_neg (Nat.ne_of_gt hgt)]

/-- **Two exclusive ors exchange two digits**, also where both are the same one. -/
theorem digit_exchanged (n x y z : Nat) :
    digit (exchanged n x y) z
      = if z = x then digit n y else if z = y then digit n x else digit n z := by
  have hd : digit n x ^^^ digit n y < 256 :=
    Nat.xor_lt_two_pow (n := 8) (digit_lt n x) (digit_lt n y)
  unfold exchanged
  rw [digit_xor, digit_xor, digit_shiftLeft hd, digit_shiftLeft hd]
  by_cases hx : z = x
  · subst hx
    by_cases hy : z = y
    · subst hy
      simp
    · rw [if_pos rfl, if_pos rfl, if_neg hy, Nat.xor_zero, ← Nat.xor_assoc, Nat.xor_self,
        Nat.zero_xor]
  · by_cases hy : z = y
    · subst hy
      rw [if_neg hx, if_neg hx, if_pos rfl, if_pos rfl, Nat.zero_xor,
        Nat.xor_comm (digit n x), ← Nat.xor_assoc, Nat.xor_self, Nat.zero_xor]
    · simp [hx, hy]

/-- The table has the digits of a number as its entries. -/
def Holds (t : ByteTable UInt8) (n : Nat) : Prop :=
  ∀ x : UInt8, (t.entry x).toNat = digit n x.toNat

theorem holds_packed (t : ByteTable UInt8) : Holds t t.packed := by
  intro x
  rw [ByteTable.toNat_entry, digit, Nat.shiftRight_eq_div_pow, Nat.pow_mul]

theorem Holds.swapped {t : ByteTable UInt8} {n : Nat} (h : Holds t n) (i j : UInt8) :
    Holds (swapped t i j) (exchanged n i.toNat j.toNat) := by
  intro x
  rw [entry_swapped, h, digit_exchanged, Equiv.swap_apply_def]
  simp only [UInt8.toNat_inj]
  split_ifs <;> rfl

/-- The state has these numbers. -/
structure Shows (s : Rc4) (d : Numbers) : Prop where
  table : Holds s.table d.table
  i_eq : s.i.toNat = d.i
  j_eq : s.j.toNat = d.j

variable {t : ByteTable UInt8} {j : UInt8} {n m : Nat}

theorem keyStep_shows (ht : Holds t n) (hj : j.toNat = m) (i k : UInt8) :
    Holds (keyStep (t, j) i k).1 (Numbers.keyStep (n, m) i.toNat k.toNat).1
      ∧ (keyStep (t, j) i k).2.toNat = (Numbers.keyStep (n, m) i.toNat k.toNat).2 := by
  have hsum : (j + t.entry i + k).toNat = (m + digit n i.toNat + k.toNat) % 256 := by
    rw [UInt8.toNat_add, UInt8.toNat_add, Nat.mod_add_mod, hj, ht]
  refine ⟨?_, hsum⟩
  unfold keyStep Numbers.keyStep
  dsimp only
  rw [← hsum]
  exact ht.swapped i _

/-- Key scheduling, with the indices below 256. -/
theorem foldl_keyStep_shows (steps : List (Nat × UInt8)) (hlt : ∀ ik ∈ steps, ik.1 < 256)
    (ht : Holds t n) (hj : j.toNat = m) :
    Holds (steps.foldl (fun s ik => keyStep s (UInt8.ofNat ik.1) ik.2) (t, j)).1
      (steps.foldl (fun d ik => Numbers.keyStep d ik.1 ik.2.toNat) (n, m)).1 := by
  induction steps generalizing t j n m with
  | nil => exact ht
  | cons ik steps ih =>
      rw [List.forall_mem_cons] at hlt
      have hi : (UInt8.ofNat ik.1).toNat = ik.1 := UInt8.toNat_ofNat_of_lt' hlt.1
      obtain ⟨ht', hj'⟩ := keyStep_shows ht hj (UInt8.ofNat ik.1) ik.2
      rw [hi] at ht' hj'
      exact ih hlt.2 ht' hj'

theorem ofKey_shows {key : Bytes} (h : key ≠ []) : Shows (ofKey key) (.ofKey key) := by
  have hlt : ∀ ik ∈ (List.range 256).zip (Bytes.cycle key 256), ik.1 < 256 := by
    intro ik hik
    exact List.mem_range.mp (List.of_mem_zip hik).1
  have hzero : (0 : UInt8).toNat = 0 := rfl
  have htable := foldl_keyStep_shows _ hlt (holds_packed identity) hzero
  rw [ofKey_of_ne_nil h]
  unfold Numbers.ofKey
  exact ⟨htable, hzero, hzero⟩

theorem next_shows {s : Rc4} {d : Numbers} (h : Shows s d) :
    s.next.1.toNat = d.next.1 ∧ Shows s.next.2 d.next.2 := by
  have hi : (s.i + 1).toNat = (d.i + 1) % 256 := by
    rw [UInt8.toNat_add, h.i_eq]
    rfl
  have hj : (s.j + s.table.entry (s.i + 1)).toNat
      = (d.j + digit d.table ((d.i + 1) % 256)) % 256 := by
    rw [UInt8.toNat_add, h.j_eq, h.table, hi]
  have ht := h.table.swapped (s.i + 1) (s.j + s.table.entry (s.i + 1))
  rw [hi, hj] at ht
  refine ⟨?_, ht, hi, hj⟩
  unfold next Numbers.next
  dsimp only
  rw [ht, UInt8.toNat_add, ht, ht, hi, hj]

/-- Step by step, a state and its numbers give the same bytes. -/
theorem keystream_shows {s : Rc4} {d : Numbers} (h : Shows s d) (n : Nat) :
    s.keystream n = d.keystream n := by
  induction n generalizing s d with
  | zero => rfl
  | succ n ih =>
      obtain ⟨hbyte, hnext⟩ := next_shows h
      rw [keystream, Numbers.keystream, ih hnext, ← hbyte, UInt8.ofNat_toNat]

/-- **The keystream of a key, in numbers.** -/
theorem keystream_ofKey {key : Bytes} (h : key ≠ []) (n : Nat) :
    (ofKey key).keystream n = (Numbers.ofKey key).keystream n :=
  keystream_shows (ofKey_shows h) n

theorem crypt_eq_numbers {key : Bytes} (h : key ≠ []) (data : Bytes) :
    crypt key data = Bytes.xor data ((Numbers.ofKey key).keystream data.length) := by
  rw [crypt, apply_eq, keystream_ofKey h]

/-! ## §4  Pieces -/

/-- One state applied to pieces in turn, and what it is after them. -/
def applyEach (s : Rc4) : List Bytes → List Bytes × Rc4
  | [] => ([], s)
  | piece :: pieces =>
      let (out, s') := s.apply piece
      let (outs, s'') := s'.applyEach pieces
      (out :: outs, s'')

theorem length_apply (s : Rc4) (data : Bytes) : (s.apply data).1.length = data.length := by
  rw [apply_eq, Bytes.length_xor, length_keystream, Nat.min_self]

/-- **Pieces in turn are pieces of the whole.** -/
theorem applyEach_eq (s : Rc4) (pieces : List Bytes) :
    s.applyEach pieces
      = ((pieces.map List.length).splitLengths (s.apply pieces.flatten).1,
        (s.apply pieces.flatten).2) := by
  induction pieces generalizing s with
  | nil => rfl
  | cons piece pieces ih =>
      have hlen : (s.apply piece).1.length = piece.length := length_apply s piece
      rw [List.flatten_cons, apply_append, List.map_cons, List.splitLengths_cons,
        List.take_left' hlen, List.drop_left' hlen, applyEach]
      dsimp only
      rw [ih]

/-! ## §5  State and stream -/

/-- **The state and the stream of RC4**, for every key, the empty one included.  The table is a
permutation of the bytes when the key has been set up and after whatever data.  Data that come
in pieces, however they were cut, are combined with the keystream as if they came as a whole,
and leave the same state.  The same key takes its own encryption back.  And a key that is
repeated any number of times is the same key. -/
theorem state_and_stream (key : Bytes) :
    (∀ data, ((ofKey key).apply data).2.table.IsPermutation)
      ∧ (∀ pieces, (ofKey key).applyEach pieces
          = ((pieces.map List.length).splitLengths (crypt key pieces.flatten),
            ((ofKey key).apply pieces.flatten).2))
      ∧ (∀ data, crypt key (crypt key data) = data)
      ∧ ∀ count, ofKey (List.replicate (count + 1) key).flatten = ofKey key := by
  refine ⟨?_, ?_, crypt_crypt key, ofKey_flatten_replicate key⟩
  · intro data
    exact isPermutation_apply (isPermutation_ofKey key) data
  · intro pieces
    exact applyEach_eq (ofKey key) pieces

/-- The test vectors of RFC 6229 for keys of 40 and of 128 bits. -/
example :
    crypt [1, 2, 3, 4, 5] (List.replicate 16 0)
        = [0xB2, 0x39, 0x63, 0x05, 0xF0, 0x3D, 0xC0, 0x27,
          0xCC, 0xC3, 0x52, 0x4A, 0x0A, 0x11, 0x18, 0xA8]
      ∧ crypt [1, 2, 3, 4, 5, 6, 7, 8, 9, 10, 11, 12, 13, 14, 15, 16] (List.replicate 16 0)
        = [0x9A, 0xC7, 0xCC, 0x9A, 0x60, 0x9D, 0x1E, 0xF7,
          0xB2, 0x93, 0x28, 0x99, 0xCD, 0xE4, 0x1B, 0x97] := by
  rw [crypt_eq_numbers (List.cons_ne_nil _ _), crypt_eq_numbers (List.cons_ne_nil _ _)]
  decide +kernel

/-- Without a key the first step exchanges an entry with itself. -/
example : ((ofKey []).applyEach [[0], [], [0, 0]]).1 = [[2], [], [5, 7]] := by
  decide +kernel

end Rc4

end PageVault
