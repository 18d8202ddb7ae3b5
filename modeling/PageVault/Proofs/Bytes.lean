import Mathlib.Algebra.Group.Nat.Defs
import Mathlib.Data.List.Basic
import Mathlib.Data.List.GetD
import PageVault.Bytes

/-!
# Byte strings as formats describe them

Formats speak of strings that are padded, repeated and combined as a whole, where the
operations of `Bytes` work at an offset or by index.  Here the two are shown to be the
same, so that keys can be described the way a format does.

§1 padding and fields · §2 exclusive or of strings of any length · §3 numbers and page numbers ·
§4 repetition.
-/

namespace PageVault.Bytes

/-! ## §1  Padding and fields -/

/-- Cutting what was padded far enough. -/
theorem fit_eq_take (len : Nat) (pad : UInt8) (b : Bytes) :
    fit len pad b = (b ++ List.replicate len pad).take len := by
  rw [fit, List.take_append, List.take_replicate, Nat.min_eq_left (Nat.sub_le _ _)]

/-- Padding that is there already makes no difference. -/
theorem fit_append_replicate (len n : Nat) (pad : UInt8) (b : Bytes) :
    fit len pad (b ++ List.replicate n pad) = fit len pad b := by
  rw [fit, fit, List.take_append, List.take_replicate, List.append_assoc,
    List.replicate_append_replicate, List.length_append, List.length_replicate]
  congr 2
  omega

theorem fit_of_length_eq {len : Nat} {b : Bytes} (h : b.length = len) (pad : UInt8) :
    fit len pad b = b := by
  rw [← h]
  exact fit_length_self pad b

theorem fit_of_length_le {len : Nat} {b : Bytes} (h : b.length ≤ len) (pad : UInt8) :
    fit len pad b = b ++ List.replicate (len - b.length) pad := by
  rw [fit, List.take_of_length_le h]

theorem getD_fit {i n : Nat} (h : i < n) (b : Bytes) : (fit n 0 b).getD i 0 = b.getD i 0 := by
  unfold fit
  rcases Nat.lt_or_ge i b.length with hlt | hle
  · have htake : i < (b.take n).length := by
      rw [List.length_take]
      omega
    simp [List.getD_eq_getElem?_getD, List.getElem?_append_left htake, h]
  · have htake : (b.take n).length ≤ i := by
      rw [List.length_take]
      omega
    rw [List.getD_append_right _ _ _ _ htake, List.getD_eq_default _ _ hle]
    rw [List.getD_eq_getElem?_getD, List.getElem?_replicate]
    split <;> rfl

/-- Strings that are cut or extended with zeros are the same if their bytes are, where those
behind the end are zero. -/
theorem fit_eq_fit_iff {n : Nat} {a b : Bytes} :
    fit n 0 a = fit n 0 b ↔ ∀ i < n, a.getD i 0 = b.getD i 0 := by
  constructor
  · intro h i hi
    rw [← getD_fit hi a, ← getD_fit hi b, h]
  · intro h
    apply List.ext_getElem
    · rw [length_fit, length_fit]
    · intro i hi hi'
      have hn : i < n := by rwa [length_fit] at hi
      have hbyte := h i hn
      rw [← getD_fit hn a, ← getD_fit hn b, List.getD_eq_getElem _ _ hi,
        List.getD_eq_getElem _ _ hi'] at hbyte
      exact hbyte

/-- Strings of one length are the same if their bytes are. -/
theorem ext_getD {a b : Bytes} (hl : a.length = b.length)
    (h : ∀ i < a.length, a.getD i 0 = b.getD i 0) : a = b := by
  have hfit := fit_eq_fit_iff.mpr h
  rwa [fit_length_self, hl, fit_length_self] at hfit

/-- A field is what stands behind as many bytes as its offset says. -/
theorem slice?_append {offset len : Nat} {before field : Bytes} (ho : before.length = offset)
    (hl : field.length = len) (after : Bytes) :
    slice? offset len (before ++ (field ++ after)) = some field := by
  have hfit : offset + len ≤ (before ++ (field ++ after)).length := by
    rw [List.length_append, List.length_append]
    omega
  rw [slice?, if_pos hfit, List.drop_left' ho, List.take_left' hl]

/-! ## §2  Exclusive or of strings of any length -/

/-- Bytewise exclusive or; the shorter string is extended with zeros. -/
def xorExtended (a b : Bytes) : Bytes :=
  let len := max a.length b.length
  xor (fit len 0 a) (fit len 0 b)

theorem xorExtended_of_length_eq {a b : Bytes} (h : a.length = b.length) :
    xorExtended a b = xor a b := by
  rw [xorExtended, fit_of_length_eq (by omega), fit_of_length_eq (by omega)]

theorem xor_append {a b c d : Bytes} (h : a.length = c.length) :
    xor (a ++ b) (c ++ d) = xor a c ++ xor b d :=
  List.zipWith_append h

theorem length_xor_of_length_eq {a b : Bytes} (h : a.length = b.length) :
    (xor a b).length = a.length := by
  rw [length_xor, ← h, Nat.min_self]

/-- Strings of one length are combined byte by byte; behind their end there is nothing. -/
theorem getD_xor {a b : Bytes} (h : a.length = b.length) (i : Nat) :
    (xor a b).getD i 0 = a.getD i 0 ^^^ b.getD i 0 := by
  rw [List.getD_eq_getElem?_getD, List.getD_eq_getElem?_getD, List.getD_eq_getElem?_getD,
    xor, List.getElem?_zipWith]
  by_cases hi : i < a.length
  · have hb : i < b.length := h ▸ hi
    rw [List.getElem?_eq_getElem hi, List.getElem?_eq_getElem hb]
    rfl
  · have hb : ¬ i < b.length := h ▸ hi
    rw [List.getElem?_eq_none (Nat.not_lt.mp hi), List.getElem?_eq_none (Nat.not_lt.mp hb)]
    exact UInt8.xor_zero.symm

/-- Zeros change nothing. -/
theorem xor_replicate_zero (b : Bytes) : xor b (List.replicate b.length 0) = b := by
  induction b with
  | nil => rfl
  | cons x b ih =>
      rw [List.length_cons, List.replicate_succ, xor_cons_cons, ih, UInt8.xor_zero]

/-- A mask at the front is the exclusive or with the mask. -/
theorem xorAt_zero (mask b : Bytes) : xorAt 0 mask b = xorExtended b mask := by
  unfold xorAt xorExtended
  simp only [Nat.zero_add, List.take_zero, List.nil_append, List.drop_zero]
  by_cases h : b.length < mask.length
  · -- The string is extended, and the mask covers it.
    have hl : (fit mask.length 0 b).length = mask.length := length_fit _ _ _
    rw [if_pos h, Nat.max_eq_right (Nat.le_of_lt h), List.take_of_length_le (Nat.le_of_eq hl),
      List.drop_of_length_le (Nat.le_of_eq hl), List.append_nil, fit_length_self]
  · -- The mask is extended, and what it does not cover stays.
    have hle : mask.length ≤ b.length := Nat.not_lt.mp h
    have hmask : fit b.length 0 mask = mask ++ List.replicate (b.drop mask.length).length 0 := by
      rw [fit, List.take_of_length_le hle, List.length_drop]
    have hfront : (b.take mask.length).length = mask.length := List.length_take_of_le hle
    rw [if_neg h, Nat.max_eq_left hle, fit_length_self, hmask]
    conv_rhs => rw [← List.take_append_drop mask.length b]
    rw [List.drop_left' hfront, xor_append hfront, xor_replicate_zero]

/-! ## §3  Numbers and page numbers -/

theorem toNatLE_lt (b : Bytes) : toNatLE b < 256 ^ b.length := by
  induction b with
  | nil => decide
  | cons x b ih =>
      have hx := x.toNat_lt
      rw [toNatLE, List.length_cons, Nat.pow_succ]
      omega

/-- Two bytes are those of the number that they make. -/
theorem le16_ofNat_toNatLE {b : Bytes} (h : b.length = 2) :
    le16 (UInt16.ofNat (toNatLE b)) = b := by
  have hlt : toNatLE b < 2 ^ 16 := by
    have := toNatLE_lt b
    rwa [h] at this
  rw [le16, UInt16.toNat_ofNat_of_lt' hlt, ← h]
  exact ofNatLE_toNatLE b

/-- Four bytes are those of the number that they make. -/
theorem le32_ofNat_toNatLE {b : Bytes} (h : b.length = 4) :
    le32 (UInt32.ofNat (toNatLE b)) = b := by
  have hlt : toNatLE b < UInt32.size := by
    have := toNatLE_lt b
    rwa [h] at this
  rw [le32, UInt32.toNat_ofNat_of_lt' hlt, ← h, ofNatLE_toNatLE]

theorem le32_append_inj {m n : UInt32} {a b : Bytes} (h : le32 m ++ a = le32 n ++ b) :
    m = n ∧ a = b := by
  have hlen : (le32 m).length = (le32 n).length := by
    rw [length_le32, length_le32]
  obtain ⟨hword, hrest⟩ := List.append_inj h hlen
  have hnat : m.toNat = n.toNat := by
    rw [← toNatLE_le32, hword, toNatLE_le32]
  exact ⟨UInt32.toNat_inj.mp hnat, hrest⟩

theorem le32_injective : Function.Injective le32 := by
  intro m n h
  exact (le32_append_inj (congrArg (· ++ []) h)).1

/-- A page number that is mixed in at the front. -/
theorem withPageNumber_zero (page : UInt32) (key : Bytes) :
    withPageNumber 0 page key = xorExtended key (le32 page) :=
  xorAt_zero (le32 page) key

/-- A page number that is mixed into the last four bytes. -/
theorem withPageNumber_append {tail : Bytes} (h : tail.length = 4) (front : Bytes)
    (page : UInt32) :
    withPageNumber front.length page (front ++ tail) = front ++ xor tail (le32 page) := by
  have hl : (front ++ tail).length = front.length + (le32 page).length := by
    rw [List.length_append, h, length_le32]
  have ht : tail.length = (le32 page).length := by
    rw [h, length_le32]
  unfold withPageNumber xorAt
  simp only [hl, Nat.lt_irrefl, if_false]
  rw [List.take_left, List.drop_left, ← hl, List.drop_length, List.append_nil, ← ht,
    List.take_length]

/-- Four bytes and a page number. -/
theorem withPageNumber_of_length_eq_four {key : Bytes} (h : key.length = 4) (page : UInt32) :
    withPageNumber 0 page key = xor key (le32 page) := by
  have hlen : key.length = (le32 page).length := h.trans (length_le32 page).symm
  rw [withPageNumber_zero, xorExtended_of_length_eq hlen]

/-! ## §4  Repetition -/

theorem cycle_length_self (pattern : Bytes) : cycle pattern pattern.length = pattern := by
  apply List.ext_getElem
  · exact length_cycle pattern pattern.length
  · intro i hi hi'
    simp [cycle, Nat.mod_eq_of_lt hi', hi']

theorem cycle_length_add (pattern : Bytes) (n : Nat) :
    cycle pattern (pattern.length + n) = pattern ++ cycle pattern n := by
  have hsplit : cycle pattern (pattern.length + n)
      = cycle pattern pattern.length ++ cycle pattern n := by
    unfold cycle
    rw [List.range_add, List.map_append, List.map_map]
    congr 1
    refine List.map_congr_left ?_
    intro i _
    rw [Function.comp_apply, Nat.add_mod_left]
  rw [hsplit, cycle_length_self]

/-- Part of one repetition. -/
theorem cycle_of_le_length {pattern : Bytes} {n : Nat} (h : n ≤ pattern.length) :
    cycle pattern n = pattern.take n := by
  apply List.ext_getElem
  · rw [length_cycle, List.length_take_of_le h]
  · intro i hi hi'
    rw [length_cycle] at hi
    simp [cycle, Nat.mod_eq_of_lt (Nat.lt_of_lt_of_le hi h), Nat.lt_of_lt_of_le hi h]

/-- Each index beside the byte that a repeated pattern has there. -/
theorem zip_range_cycle (pattern : Bytes) (n : Nat) :
    (List.range n).zip (cycle pattern n)
      = (List.range n).map fun i => (i, pattern.getD (i % pattern.length) 0) := by
  unfold cycle
  rw [List.zip_map_right, List.zip_eq_zipWith, List.zipWith_self, List.map_map]
  rfl

/-- A whole number of repetitions. -/
theorem cycle_mul_length (pattern : Bytes) (n : Nat) :
    cycle pattern (n * pattern.length) = (List.replicate n pattern).flatten := by
  induction n with
  | zero =>
      rw [Nat.zero_mul]
      rfl
  | succ n ih =>
      rw [Nat.succ_mul, Nat.add_comm, cycle_length_add, ih, List.replicate_succ,
        List.flatten_cons]

end PageVault.Bytes
