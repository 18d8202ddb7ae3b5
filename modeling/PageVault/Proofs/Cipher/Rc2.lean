import PageVault.Cipher.Rc2

/-!
# RC2 undoes itself

Every step of a round adds to one word something made of the others, and a mixing
step also turns it; both are undone while the others stand still.  Hence each round
is undone, and the rounds one after another, whatever the expanded key.
-/

namespace PageVault.Rc2

/-! ## Rounds -/

/-- By how many places the four steps of a mixing round turn their words. -/
def turns : List UInt16 :=
  [1, 2, 3, 5]

theorem rotr_rotl (x : UInt16) {n : UInt16} (hn : n ∈ turns) : rotr (rotl x n) n = x := by
  simp only [turns, List.mem_cons, List.not_mem_nil, or_false] at hn
  apply UInt16.toBitVec_inj.1
  ext i hi
  rcases hn with rfl | rfl | rfl | rfl <;> simp [rotl, rotr] <;> grind

theorem rotl_rotr (x : UInt16) {n : UInt16} (hn : n ∈ turns) : rotl (rotr x n) n = x := by
  simp only [turns, List.mem_cons, List.not_mem_nil, or_false] at hn
  apply UInt16.toBitVec_inj.1
  ext i hi
  rcases hn with rfl | rfl | rfl | rfl <;> simp [rotl, rotr] <;> grind

theorem unmix_mix (k0 k1 k2 k3 : UInt16) (s : State) :
    unmix k0 k1 k2 k3 (mix k0 k1 k2 k3 s) = s := by
  obtain ⟨a, b, c, d⟩ := s
  -- from the last step to the first: the words a step read are restored after it
  simp only [mix, unmix, rotr_rotl _ (show (1 : UInt16) ∈ turns by decide),
    rotr_rotl _ (show (2 : UInt16) ∈ turns by decide),
    rotr_rotl _ (show (3 : UInt16) ∈ turns by decide),
    rotr_rotl _ (show (5 : UInt16) ∈ turns by decide), UInt16.add_sub_cancel]

theorem mix_unmix (k0 k1 k2 k3 : UInt16) (s : State) :
    mix k0 k1 k2 k3 (unmix k0 k1 k2 k3 s) = s := by
  obtain ⟨a, b, c, d⟩ := s
  simp only [mix, unmix, rotl_rotr _ (show (1 : UInt16) ∈ turns by decide),
    rotl_rotr _ (show (2 : UInt16) ∈ turns by decide),
    rotl_rotr _ (show (3 : UInt16) ∈ turns by decide),
    rotl_rotr _ (show (5 : UInt16) ∈ turns by decide), UInt16.sub_add_cancel]

theorem unmash_mash (key : Array UInt16) (s : State) : unmash key (mash key s) = s := by
  obtain ⟨a, b, c, d⟩ := s
  simp only [mash, unmash, UInt16.add_sub_cancel]

theorem mash_unmash (key : Array UInt16) (s : State) : mash key (unmash key s) = s := by
  obtain ⟨a, b, c, d⟩ := s
  simp only [mash, unmash, UInt16.sub_add_cancel]

theorem undo_apply (key : Array UInt16) (r : Round) (s : State) :
    r.undo key (r.apply key s) = s := by
  cases r with
  | mixing r => exact unmix_mix _ _ _ _ s
  | mashing => exact unmash_mash key s

theorem apply_undo (key : Array UInt16) (r : Round) (s : State) :
    r.apply key (r.undo key s) = s := by
  cases r with
  | mixing r => exact mix_unmix _ _ _ _ s
  | mashing => exact mash_unmash key s

theorem foldr_undo_foldl_apply (key : Array UInt16) (rs : List Round) (s : State) :
    rs.foldr (fun r s => r.undo key s) (rs.foldl (fun s r => r.apply key s) s) = s := by
  induction rs generalizing s with
  | nil => rfl
  | cons r rs ih =>
      rw [List.foldl_cons, List.foldr_cons, ih]
      exact undo_apply key r s

theorem foldl_apply_foldr_undo (key : Array UInt16) (rs : List Round) (s : State) :
    rs.foldl (fun s r => r.apply key s) (rs.foldr (fun r s => r.undo key s) s) = s := by
  induction rs with
  | nil => rfl
  | cons r rs ih =>
      rw [List.foldr_cons, List.foldl_cons, apply_undo]
      exact ih

/-! ## Blocks -/

theorem word_of_bytes (w : UInt16) :
    w.toUInt8.toUInt16 ||| ((w >>> 8).toUInt8.toUInt16 <<< 8) = w := by
  apply UInt16.toBitVec_inj.1
  ext i hi
  simp [-UInt16.toUInt16_toUInt8]
  grind

theorem low_byte (x y : UInt8) : (x.toUInt16 ||| (y.toUInt16 <<< 8)).toUInt8 = x := by
  apply UInt8.toBitVec_inj.1
  ext i hi
  simp

theorem high_byte (x y : UInt8) : ((x.toUInt16 ||| (y.toUInt16 <<< 8)) >>> 8).toUInt8 = y := by
  apply UInt8.toBitVec_inj.1
  ext i hi
  simp
  grind

theorem ofBytes_toBytes (s : State) : State.ofBytes s.toBytes = s := by
  obtain ⟨a, b, c, d⟩ := s
  simp [State.ofBytes, State.toBytes, words, word_of_bytes, -UInt16.toUInt16_toUInt8]

theorem toBytes_ofBytes (b : Bytes) (hb : b.length = 8) : (State.ofBytes b).toBytes = b := by
  match b, hb with
  | [b0, b1, b2, b3, b4, b5, b6, b7], _ =>
      simp only [State.ofBytes, State.toBytes, words, List.getD_cons_zero, List.getD_cons_succ,
        low_byte, high_byte]

@[simp] theorem length_toBytes (s : State) : s.toBytes.length = 8 := rfl

/-- **RC2 is lawful** under every key. -/
theorem lawful_cipher (key : Bytes) : (cipher key).Lawful where
  size_pos := Nat.zero_lt_succ 7
  length_encrypt _ _ := rfl
  length_decrypt _ _ := rfl
  decrypt_encrypt b hb := by
    show (rounds.foldr (fun r s => r.undo (expandedKey key) s)
      (State.ofBytes (State.toBytes _))).toBytes = b
    rw [ofBytes_toBytes, foldr_undo_foldl_apply, toBytes_ofBytes b hb]
  encrypt_decrypt b hb := by
    show (rounds.foldl (fun s r => r.apply (expandedKey key) s)
      (State.ofBytes (State.toBytes _))).toBytes = b
    rw [ofBytes_toBytes, foldl_apply_foldr_undo, toBytes_ofBytes b hb]

end PageVault.Rc2
