import Mathlib.Algebra.Group.Nat.Defs
import Mathlib.Data.List.GetD
import PageVault.Proofs.Checked.Step
import PageVault.Proofs.Opened

/-!
# Page numbers in keys

A page number is mixed into a key as its four bytes, over the bytes that stand at an offset.
Byte by byte that is an exclusive or with a mask which is zero outside of those four, and a
key that ends too early counts as one with zeros behind it (`getD_withPageNumber`).  All that
is known of page keys follows from this one description: two page numbers one after the other
are their exclusive or, and since a number is known from its bytes, different pages have
different keys.  In a stream cipher that is what keeps pages apart, since two pages under one
key would share their keystream.

§1 numbers as masks · §2 a mask at an offset · §3 page keys · §4 the algebra of page numbers.
-/

namespace PageVault

namespace Bytes

/-! ## §1  Numbers as masks -/

/-- Each byte of a number is combined by itself. -/
theorem ofNatLE_xor (width m n : Nat) :
    ofNatLE width (m ^^^ n) = xor (ofNatLE width m) (ofNatLE width n) := by
  induction width generalizing m n with
  | zero => rfl
  | succ width ih =>
      have hdiv : (m ^^^ n) / 2 ^ 8 = m / 2 ^ 8 ^^^ n / 2 ^ 8 := Nat.xor_div_two_pow
      rw [ofNatLE, ofNatLE, ofNatLE, xor_cons_cons, UInt8.ofNat_xor, ← ih]
      exact congrArg (_ :: ofNatLE width ·) hdiv

theorem le32_xor (m n : UInt32) : le32 (m ^^^ n) = xor (le32 m) (le32 n) := by
  unfold le32
  rw [UInt32.toNat_xor, ofNatLE_xor]

theorem getD_le32_xor (m n : UInt32) (i : Nat) :
    (le32 (m ^^^ n)).getD i 0 = (le32 m).getD i 0 ^^^ (le32 n).getD i 0 := by
  rw [le32_xor, getD_xor]
  rw [length_le32, length_le32]

/-! ## §2  A mask at an offset -/

theorem getD_append_replicate_zero (b : Bytes) (n i : Nat) :
    (b ++ List.replicate n 0).getD i 0 = b.getD i 0 := by
  have h := getD_fit (Nat.lt_succ_self i) (b ++ List.replicate n 0)
  rw [← h, fit_append_replicate, getD_fit (Nat.lt_succ_self i)]

theorem getD_take {n i : Nat} (h : i < n) (b : Bytes) : (b.take n).getD i 0 = b.getD i 0 := by
  rw [List.getD_eq_getElem?_getD, List.getElem?_take_of_lt h, ← List.getD_eq_getElem?_getD]

theorem getD_drop (b : Bytes) (n i : Nat) : (b.drop n).getD i 0 = b.getD (n + i) 0 := by
  rw [List.getD_eq_getElem?_getD, List.getElem?_drop, ← List.getD_eq_getElem?_getD]

/-- **A mask changes the bytes that it stands over**, and no others. -/
theorem getD_xorAt (offset : Nat) (mask b : Bytes) (i : Nat) :
    (xorAt offset mask b).getD i 0
      = b.getD i 0 ^^^ if offset ≤ i then mask.getD (i - offset) 0 else 0 := by
  obtain ⟨whole, hwhole, hroom, hbytes⟩ : ∃ whole : Bytes,
      (if b.length < offset + mask.length then fit (offset + mask.length) 0 b else b) = whole
        ∧ offset + mask.length ≤ whole.length ∧ whole.getD i 0 = b.getD i 0 := by
    refine ⟨_, rfl, ?_⟩
    split
    · rename_i hshort
      rw [length_fit, fit_of_length_le (Nat.le_of_lt hshort)]
      exact ⟨Nat.le_refl _, getD_append_replicate_zero _ _ _⟩
    · exact ⟨by omega, rfl⟩
  have hfront : (whole.take offset).length = offset := List.length_take_of_le (by omega)
  have hwindow : ((whole.drop offset).take mask.length).length = mask.length := by
    refine List.length_take_of_le ?_
    rw [List.length_drop]
    omega
  have hmasked : (xor ((whole.drop offset).take mask.length) mask).length = mask.length := by
    rw [length_xor_of_length_eq hwindow, hwindow]
  unfold xorAt
  dsimp only
  rw [hwhole, ← hbytes]
  rcases Nat.lt_or_ge i offset with hi | hi
  · -- In front of the mask.
    rw [List.append_assoc, List.getD_append _ _ _ _ (by omega), getD_take hi, if_neg (by omega),
      UInt8.xor_zero]
  · rw [List.append_assoc, List.getD_append_right _ _ _ _ (by omega), hfront, if_pos hi]
    rcases Nat.lt_or_ge (i - offset) mask.length with hin | hout
    · -- Under the mask.
      rw [List.getD_append _ _ _ _ (by omega), getD_xor hwindow, getD_take hin, getD_drop,
        Nat.add_sub_cancel' hi]
    · -- Behind the mask.
      rw [List.getD_append_right _ _ _ _ (by omega), hmasked, getD_drop,
        List.getD_eq_default mask _ hout, UInt8.xor_zero]
      congr 1
      omega

/-! ## §3  Page keys -/

/-- What a page number does to byte `i` of a key. -/
def pageMask (offset : Nat) (page : UInt32) (i : Nat) : UInt8 :=
  if offset ≤ i then (le32 page).getD (i - offset) 0 else 0

theorem pageMask_xor (offset : Nat) (m n : UInt32) (i : Nat) :
    pageMask offset (m ^^^ n) i = pageMask offset m i ^^^ pageMask offset n i := by
  unfold pageMask
  split
  · exact getD_le32_xor m n (i - offset)
  · exact UInt8.xor_zero.symm

/-- Outside of its four bytes a page number has no effect. -/
theorem pageMask_of_outside {offset i : Nat} (h : i < offset ∨ offset + 4 ≤ i) (page : UInt32) :
    pageMask offset page i = 0 := by
  unfold pageMask
  rcases h with h | h
  · exact if_neg (Nat.not_le.mpr h)
  · rw [if_pos (by omega), List.getD_eq_default]
    rw [length_le32]
    omega

theorem pageMask_zero (offset i : Nat) : pageMask offset 0 i = 0 := by
  have h := pageMask_xor offset 0 0 i
  rwa [UInt32.xor_self, UInt8.xor_self] at h

/-- A page number is known from what it does to a key. -/
theorem eq_of_pageMask_eq (offset : Nat) {m n : UInt32}
    (h : ∀ i, pageMask offset m i = pageMask offset n i) : m = n := by
  refine le32_injective (ext_getD ?_ ?_)
  · rw [length_le32, length_le32]
  · intro i _
    have hi := h (offset + i)
    unfold pageMask at hi
    rwa [if_pos (Nat.le_add_right _ _), if_pos (Nat.le_add_right _ _),
      Nat.add_sub_cancel_left] at hi

/-- **A page key, byte by byte.** -/
theorem getD_withPageNumber (offset : Nat) (page : UInt32) (key : Bytes) (i : Nat) :
    (withPageNumber offset page key).getD i 0 = key.getD i 0 ^^^ pageMask offset page i :=
  getD_xorAt offset (le32 page) key i

/-- A key with zeros behind it, so that there are bytes for the page number. -/
def extendedTo (len : Nat) (key : Bytes) : Bytes :=
  key ++ List.replicate (len - key.length) 0

theorem length_extendedTo (len : Nat) (key : Bytes) :
    (extendedTo len key).length = max key.length len := by
  rw [extendedTo, List.length_append, List.length_replicate]
  omega

theorem extendedTo_of_le {len : Nat} {key : Bytes} (h : len ≤ key.length) :
    extendedTo len key = key := by
  rw [extendedTo, Nat.sub_eq_zero_of_le h, List.replicate_zero, List.append_nil]

theorem withPageNumber_zero_page (offset : Nat) (key : Bytes) :
    withPageNumber offset 0 key = extendedTo (offset + 4) key := by
  refine ext_getD ?_ ?_
  · rw [length_withPageNumber, length_extendedTo]
  · intro i _
    rw [getD_withPageNumber, pageMask_zero, UInt8.xor_zero, extendedTo,
      getD_append_replicate_zero]

theorem getElem?_withPageNumber_of_outside {offset i : Nat} (h : i < offset ∨ offset + 4 ≤ i)
    (page : UInt32) (key : Bytes) :
    (withPageNumber offset page key)[i]? = (extendedTo (offset + 4) key)[i]? := by
  have hlen : (withPageNumber offset page key).length = (extendedTo (offset + 4) key).length := by
    rw [length_withPageNumber, length_extendedTo]
  have hbyte : (withPageNumber offset page key).getD i 0
      = (extendedTo (offset + 4) key).getD i 0 := by
    rw [getD_withPageNumber, pageMask_of_outside h, UInt8.xor_zero, extendedTo,
      getD_append_replicate_zero]
  rcases Nat.lt_or_ge i (withPageNumber offset page key).length with hi | hi
  · have hi' : i < (extendedTo (offset + 4) key).length := hlen ▸ hi
    rw [List.getD_eq_getElem _ _ hi, List.getD_eq_getElem _ _ hi'] at hbyte
    rw [List.getElem?_eq_getElem hi, List.getElem?_eq_getElem hi', hbyte]
  · rw [List.getElem?_eq_none hi, List.getElem?_eq_none (hlen ▸ hi)]

/-- **Different pages have different keys.** -/
theorem withPageNumber_injective (offset : Nat) (key : Bytes) :
    Function.Injective fun page => withPageNumber offset page key := by
  intro page page' h
  refine eq_of_pageMask_eq offset fun i => ?_
  have hbyte := congrArg (fun b : Bytes => b.getD i 0) h
  dsimp only at hbyte
  rw [getD_withPageNumber, getD_withPageNumber] at hbyte
  exact (UInt8.xor_right_inj _).mp hbyte

/-- **Two page numbers one after the other are their exclusive or.** -/
theorem withPageNumber_withPageNumber (offset : Nat) (page page' : UInt32) (key : Bytes) :
    withPageNumber offset page' (withPageNumber offset page key)
      = withPageNumber offset (page ^^^ page') key := by
  refine ext_getD ?_ ?_
  · simp only [length_withPageNumber]
    omega
  · intro i _
    rw [getD_withPageNumber, getD_withPageNumber, getD_withPageNumber, pageMask_xor,
      UInt8.xor_assoc]

end Bytes

/-! ## §4  The algebra of page numbers -/

/-- An open file whose pages are kept apart by their numbers alone, one of the Jet and MSISAM
families, has an RC4 key for each page. -/
theorem Handler.Opened.injective_pageKey {c : Codec} (ho : (coded c).Opened)
    (hs : c.scheme = .jet ∨ c.scheme = .msisamOld ∨ c.scheme = .msisamModern) :
    c.transform = .stream ∧ Function.Injective fun page => (c.keys.params page).key := by
  rcases ho.issued with hplain | ⟨c', hc, hissued⟩
  · cases hplain
  · cases hc
    cases hissued with
    | jet keys | msisamOld keys =>
        exact ⟨rfl, Bytes.withPageNumber_injective 0 keys.encodingKey⟩
    | msisamModern keys =>
        exact ⟨rfl, Bytes.withPageNumber_injective Msisam.passwordDigestLength keys.baseHash⟩
    | standard hscheme => rcases hscheme with rfl | rfl <;> simp [Codec.fresh] at hs
    | cryptoApi | binaryDocument | agile => simp [Codec.fresh] at hs

/-- **The algebra of page numbers**, for keys of every length and every offset that a machine
word holds.  The steps of the call stay within their bounds.  Its result reaches as far as the
key and the four bytes at the offset do, and is the key with zeros behind it outside of those
four.  Different pages have different keys, so that no two pages of a Jet or MSISAM file are
coded with one RC4 key.  A second page number adds to the first one, and the same one takes
it back.  Page zero leaves a key as it is. -/
theorem Bytes.withPageNumber_algebra (offset : Nat) (hoffset : offset + 4 < 2 ^ 64)
    (key : Bytes) (page page' : UInt32) :
    let extended := extendedTo (offset + 4) key
    Checked.withPageNumber offset page key = .ok (withPageNumber offset page key)
      ∧ (withPageNumber offset page key).length = max key.length (offset + 4)
      ∧ (∀ i, i < offset ∨ offset + 4 ≤ i →
        (withPageNumber offset page key)[i]? = extended[i]?)
      ∧ (page ≠ page' → withPageNumber offset page key ≠ withPageNumber offset page' key)
      ∧ (∀ c : Codec, (Handler.coded c).Opened →
        c.scheme = .jet ∨ c.scheme = .msisamOld ∨ c.scheme = .msisamModern →
        c.transform = .stream
          ∧ (page ≠ page' → (c.keys.params page).key ≠ (c.keys.params page').key))
      ∧ withPageNumber offset page' (withPageNumber offset page key)
        = withPageNumber offset (page ^^^ page') key
      ∧ withPageNumber offset page (withPageNumber offset page key) = extended
      ∧ (offset + 4 ≤ key.length → withPageNumber offset 0 key = key) := by
  intro extended
  refine ⟨Checked.withPageNumber_eq hoffset page key, length_withPageNumber offset page key, ?_,
    ?_, ?_, withPageNumber_withPageNumber offset page page' key, ?_, ?_⟩
  · intro i hi
    exact getElem?_withPageNumber_of_outside hi page key
  · intro hne
    exact (withPageNumber_injective offset key).ne hne
  · intro c ho hs
    obtain ⟨hstream, hinjective⟩ := ho.injective_pageKey hs
    exact ⟨hstream, hinjective.ne⟩
  · rw [withPageNumber_withPageNumber, UInt32.xor_self, withPageNumber_zero_page]
  · intro hcovers
    rw [withPageNumber_zero_page, extendedTo_of_le hcovers]

/-- A key that ends under the page number, and a Jet file with a key of its own. -/
theorem Bytes.withPageNumber_algebra_straddling :
    let key : Bytes := [1, 2, 3, 4, 5]
    let jet := Codec.fresh .jet (.jet ⟨[9, 0, 0, 7]⟩) .stream lastJetPage
    3 + 4 < 2 ^ 64
      ∧ Checked.withPageNumber 3 0x04030201 key = .ok [1, 2, 3, 5, 7, 3, 4]
      ∧ withPageNumber 3 0x04030201 (withPageNumber 3 0x04030201 key) = [1, 2, 3, 4, 5, 0, 0]
      ∧ (Handler.coded jet).Opened
      ∧ (jet.keys.params 0x04030201).key ≠ (jet.keys.params 1).key := by
  intro key jet
  have hjet : (Handler.coded jet).Opened := Handler.opened_jet rfl (by decide)
  obtain ⟨hchecked, -, -, -, hfiles, -, htwice, -⟩ :=
    withPageNumber_algebra 3 (by decide) key 0x04030201 1
  refine ⟨by decide, hchecked.trans ?_, htwice.trans ?_, hjet, ?_⟩
  · decide
  · decide
  · exact (hfiles jet hjet (Or.inl rfl)).2 (by decide)

end PageVault
