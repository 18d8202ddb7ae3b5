import Mathlib.Data.List.Induction
import PageVault.Cipher.Des

/-!
# DES undoes itself

Three facts, each about one layer of the cipher: the two outer permutations undo
each other, which is a fact about 64 positions of their tables; the network run with
its round keys in reverse takes its rounds back, whatever the round function is; and
blocks, words and pairs of halves are three views of the same 64 bits.
-/

namespace PageVault.Des

/-! ## Words by their bits -/

/-- Bit `i` of a word, counted from the least significant end. -/
def bit (x : UInt64) (i : Nat) : Bool :=
  x.toNat.testBit i

theorem eq_of_bit_eq {x y : UInt64} (h : ∀ i < 64, bit x i = bit y i) : x = y := by
  apply UInt64.toNat_inj.1
  apply Nat.eq_of_testBit_eq
  intro i
  rcases Nat.lt_or_ge i 64 with hi | hi
  · exact h i hi
  · have hp : 2 ^ 64 ≤ 2 ^ i := Nat.pow_le_pow_right (by decide) hi
    rw [Nat.testBit_lt_two_pow (Nat.lt_of_lt_of_le x.toNat_lt hp),
      Nat.testBit_lt_two_pow (Nat.lt_of_lt_of_le y.toNat_lt hp)]

/-- A bit shifted in at the least significant end. -/
theorem bit_shiftIn (x y : UInt64) {n j : Nat} (hn : n < 64) (hj : j < 64) :
    bit ((y <<< 1) ||| ((x >>> n.toUInt64) &&& 1)) j
      = if j = 0 then bit x n else bit y (j - 1) := by
  have hs : n.toUInt64.toNat % 64 = n := by
    simp
    omega
  simp only [bit, UInt64.toNat_or, UInt64.toNat_shiftLeft, UInt64.toNat_and,
    UInt64.toNat_shiftRight, Nat.testBit_or, hs, Nat.testBit_mod_two_pow, Nat.testBit_shiftLeft,
    Nat.testBit_and, Nat.testBit_shiftRight]
  rcases j with _ | j
  · simp
  · simp [Nat.testBit_succ]
    omega

/-! ## The two permutations -/

theorem permute_append_singleton (width : Nat) (table : List Nat) (p : Nat) (x : UInt64) :
    permute width (table ++ [p]) x
      = (permute width table x <<< 1) ||| ((x >>> (width - p).toUInt64) &&& 1) := by
  rw [permute, List.foldl_append]
  rfl

/-- Bit `j` of a permuted word is the one that the table names at its `j`-th place
from the end. -/
theorem bit_permute (x : UInt64) {table : List Nat} (ht : ∀ p ∈ table, 0 < p)
    (hl : table.length ≤ 64) : ∀ j < table.length,
      bit (permute 64 table x) j = bit x (64 - table.reverse.getD j 0) := by
  induction table using List.reverseRecOn with
  | nil => intro j hj; simp at hj
  | append_singleton table p ih =>
      intro j hj
      rw [List.length_append, List.length_singleton] at hl hj
      have hp : 0 < p := ht p (by simp)
      rw [permute_append_singleton, bit_shiftIn x _ (by omega) (by omega), List.reverse_append]
      rcases j with _ | j
      · rfl
      · exact ih (fun q hq => ht q (List.mem_append_left _ hq)) (by omega) j (by omega)

/-- Two permutations of a whole word undo each other if their tables lead every
position back to itself. -/
theorem permute_permute {s t : List Nat} (hs : s.length = 64 ∧ ∀ p ∈ s, 0 < p)
    (ht : t.length = 64 ∧ ∀ p ∈ t, 0 < p)
    (h : ∀ j < 64, 64 - s.reverse.getD (64 - t.reverse.getD j 0) 0 = j) (x : UInt64) :
    permute 64 t (permute 64 s x) = x := by
  apply eq_of_bit_eq
  intro j hj
  have hq : 64 - t.reverse.getD j 0 < 64 := by
    -- A place without an entry would be led to place 64, which no table leads back.
    by_contra hge
    have hj' := h j hj
    rw [List.getD_eq_getElem?_getD, List.getElem?_eq_none (by rw [List.length_reverse]; omega),
      Option.getD_none] at hj'
    omega
  rw [bit_permute _ ht.2 (by omega) j (by omega), bit_permute _ hs.2 (by omega) _ (by omega),
    h j hj]

theorem final_initial (x : UInt64) : permute 64 finalTable (permute 64 initialTable x) = x :=
  permute_permute (by decide) (by decide) (by decide) x

theorem initial_final (x : UInt64) : permute 64 initialTable (permute 64 finalTable x) = x :=
  permute_permute (by decide) (by decide) (by decide) x

/-! ## The network -/

/-- A round undoes itself between two exchanges of the halves. -/
theorem round_swap_round (h : Halves) (key : UInt64) : (h.round key).swap.round key = h.swap := by
  obtain ⟨l, r⟩ := h
  show Halves.mk r ((l ^^^ roundFunction key r) ^^^ roundFunction key r) = ⟨r, l⟩
  rw [UInt32.xor_assoc, UInt32.xor_self, UInt32.xor_zero]

theorem foldl_round_reverse (keys : List UInt64) (h : Halves) :
    keys.reverse.foldl Halves.round (keys.foldl Halves.round h).swap = h.swap := by
  induction keys generalizing h with
  | nil => rfl
  | cons k ks ih =>
      rw [List.reverse_cons, List.foldl_append, List.foldl_cons (l := ks), ih]
      exact round_swap_round h k

/-- **The network with its keys in reverse takes every round back**, for any round
function. -/
theorem network_reverse (keys : List UInt64) (h : Halves) :
    network keys.reverse (network keys h) = h := by
  rw [network, network, foldl_round_reverse]
  rfl

/-! ## Views of the 64 bits of a block -/

theorem ofWord_toWord (h : Halves) : Halves.ofWord h.toWord = h := by
  obtain ⟨l, r⟩ := h
  rw [Halves.ofWord, Halves.toWord, Halves.mk.injEq]
  constructor
  · apply UInt32.toBitVec_inj.1
    ext i hi
    simp
    grind
  · apply UInt32.toBitVec_inj.1
    ext i hi
    simp

theorem toWord_ofWord (x : UInt64) : (Halves.ofWord x).toWord = x := by
  apply UInt64.toBitVec_inj.1
  ext i hi
  simp [Halves.ofWord, Halves.toWord, -UInt64.toUInt64_toUInt32]
  grind

theorem bytesOf_wordOf (b : Bytes) (hb : b.length = 8) : bytesOf (wordOf b) = b := by
  match b, hb with
  | [b0, b1, b2, b3, b4, b5, b6, b7], _ =>
      simp only [wordOf, bytesOf, List.foldl_cons, List.foldl_nil, List.cons.injEq, and_true]
      refine ⟨?_, ?_, ?_, ?_, ?_, ?_, ?_, ?_⟩ <;>
      · apply UInt8.toBitVec_inj.1
        ext i hi
        simp
        try grind

theorem wordOf_bytesOf (w : UInt64) : wordOf (bytesOf w) = w := by
  simp only [wordOf, bytesOf, List.foldl_cons, List.foldl_nil]
  apply UInt64.toBitVec_inj.1
  ext i hi
  simp [-UInt64.toUInt64_toUInt8]
  grind

/-! ## The cipher -/

theorem crypt_reverse (keys : List UInt64) (x : UInt64) :
    crypt keys.reverse (crypt keys x) = x := by
  rw [crypt, crypt, initial_final, ofWord_toWord, network_reverse, toWord_ofWord, final_initial]

theorem crypt_of_reverse (keys : List UInt64) (x : UInt64) :
    crypt keys (crypt keys.reverse x) = x := by
  have h := crypt_reverse keys.reverse x
  rwa [List.reverse_reverse] at h

/-- **DES is lawful** under every key of any bytes. -/
theorem lawful_cipher (key : Bytes) : (cipher key).Lawful where
  size_pos := Nat.zero_lt_succ 7
  length_encrypt _ _ := rfl
  length_decrypt _ _ := rfl
  decrypt_encrypt b hb := by
    show bytesOf (crypt _ (wordOf (bytesOf (crypt _ (wordOf b))))) = b
    rw [wordOf_bytesOf, crypt_reverse, bytesOf_wordOf b hb]
  encrypt_decrypt b hb := by
    show bytesOf (crypt _ (wordOf (bytesOf (crypt _ (wordOf b))))) = b
    rw [wordOf_bytesOf, crypt_of_reverse, bytesOf_wordOf b hb]

/-- **Triple DES is lawful**, with two keys as with three. -/
theorem lawful_tripleCipher (key : Bytes) : (tripleCipher key).Lawful := by
  unfold tripleCipher
  apply BlockCipher.Lawful.encryptDecryptEncrypt
  · exact lawful_cipher _
  · exact lawful_cipher _
  · split <;> exact lawful_cipher _
  · rfl
  · split <;> rfl

end PageVault.Des
