import Mathlib.Data.Nat.Bitwise
import PageVault.Proofs.Files.Footprint

/-!
# The key of an older MSISAM file in closed form

The key is made step by step: one mask is put over the front of the old password field and
one over its back, every second byte is taken, and each byte is moved into the key.  All of
these steps are linear over exclusive or.  So the key is the exclusive or of four words, one
for each part of the header that goes into it, and the masks may overlap in any way.

§1 bytes spread over a word · §2 every second byte · §3 the masks as one pattern ·
§4 the fields · §5 the key.
-/

namespace PageVault

namespace Msisam

/-! ## §1  Bytes spread over a word -/

/-- The exclusive or of words. -/
def xorAll (words : List UInt32) : UInt32 :=
  words.foldr (· ^^^ ·) 0

/-- Byte `i` of a string, moved left by `i` modulo 24 bits: what `combine` does to it. -/
def shifted (d : Bytes) (i : Nat) : UInt32 :=
  (d.getD i 0).toUInt32 <<< UInt32.ofNat (i % 24)

/-- All bytes of a string, each one moved to its place and all of them combined. -/
def spread (d : Bytes) : UInt32 :=
  xorAll ((List.range d.length).map (shifted d))

theorem foldl_xor (words : List UInt32) (key : UInt32) :
    words.foldl (· ^^^ ·) key = key ^^^ xorAll words := by
  induction words generalizing key with
  | nil => exact UInt32.xor_zero.symm
  | cons w words ih =>
      rw [List.foldl_cons, ih, UInt32.xor_assoc]
      rfl

theorem xorAll_map_xor (f g : Nat → UInt32) (indices : List Nat) :
    xorAll (indices.map fun i => f i ^^^ g i)
      = xorAll (indices.map f) ^^^ xorAll (indices.map g) := by
  induction indices with
  | nil => exact UInt32.xor_zero.symm
  | cons i indices ih =>
      simp only [xorAll, List.map_cons, List.foldr_cons] at ih ⊢
      rw [ih]
      ac_rfl

theorem zipIdx_map_shifted (d : Bytes) :
    (d.zipIdx.map fun b => b.1.toUInt32 <<< UInt32.ofNat (b.2 % 24))
      = (List.range d.length).map (shifted d) := by
  apply List.ext_getElem
  · rw [List.length_map, List.length_map, List.length_zipIdx, List.length_range]
  · intro i hi hi'
    have hi : i < d.length := by simpa using hi
    simp [shifted, hi]

/-- Moving bytes into a key one after another. -/
theorem combine_eq_xor_spread (key : UInt32) (d : Bytes) : combine key d = key ^^^ spread d := by
  have hmap : combine key d
      = (d.zipIdx.map fun b => b.1.toUInt32 <<< UInt32.ofNat (b.2 % 24)).foldl (· ^^^ ·) key :=
    List.foldl_map.symm
  rw [hmap, foldl_xor, zipIdx_map_shifted]
  rfl

theorem spread_xor {a b : Bytes} (h : a.length = b.length) :
    spread (Bytes.xor a b) = spread a ^^^ spread b := by
  have hshifted : shifted (Bytes.xor a b) = fun i => shifted a i ^^^ shifted b i := by
    funext i
    rw [shifted, Bytes.getD_xor h, UInt8.toUInt32_xor, UInt32.shiftLeft_xor]
    rfl
  rw [spread, Bytes.length_xor_of_length_eq h, hshifted, xorAll_map_xor]
  unfold spread
  rw [h]

/-- A byte that is moved by 23 bits at most does not get as far as bit 31. -/
theorem byte_mul_lt (d : Bytes) (i : Nat) : (d.getD i 0).toNat * 2 ^ (i % 24) < 2 ^ 31 := by
  have hpow : 2 ^ (i % 24) ≤ 2 ^ 23 := Nat.pow_le_pow_right (by decide) (by omega)
  have hbyte : (d.getD i 0).toNat < 2 ^ 8 := UInt8.toNat_lt _
  calc (d.getD i 0).toNat * 2 ^ (i % 24)
      ≤ (d.getD i 0).toNat * 2 ^ 23 := Nat.mul_le_mul_left _ hpow
    _ < 2 ^ 8 * 2 ^ 23 := Nat.mul_lt_mul_of_pos_right hbyte (by decide)
    _ = 2 ^ 31 := by decide

/-- No bit of a byte is lost. -/
theorem toNat_shifted (d : Bytes) (i : Nat) :
    (shifted d i).toNat = (d.getD i 0).toNat * 2 ^ (i % 24) := by
  have hi : i % 24 < 32 := by omega
  have hplace : (UInt32.ofNat (i % 24)).toNat = i % 24 :=
    UInt32.toNat_ofNat_of_lt' (Nat.lt_trans hi (by decide))
  have hfits : (d.getD i 0).toNat * 2 ^ (i % 24) < 2 ^ 32 :=
    Nat.lt_trans (byte_mul_lt d i) (by decide)
  rw [shifted, UInt32.toNat_shiftLeft, hplace, Nat.mod_eq_of_lt hi, UInt8.toNat_toUInt32,
    Nat.shiftLeft_eq, Nat.mod_eq_of_lt hfits]

theorem xorAll_lt {words : List UInt32} {n : Nat} (h : ∀ w ∈ words, w.toNat < 2 ^ n) :
    (xorAll words).toNat < 2 ^ n := by
  induction words with
  | nil => exact Nat.two_pow_pos n
  | cons w words ih =>
      rw [List.forall_mem_cons] at h
      have hstep : xorAll (w :: words) = w ^^^ xorAll words := rfl
      rw [hstep, UInt32.toNat_xor]
      exact Nat.xor_lt_two_pow h.1 (ih h.2)

/-- The top bit of a word stays free. -/
theorem spread_lt (d : Bytes) : (spread d).toNat < 2 ^ 31 := by
  refine xorAll_lt fun w hw => ?_
  obtain ⟨i, -, rfl⟩ := List.mem_map.mp hw
  rw [toNat_shifted]
  exact byte_mul_lt d i

/-! ## §2  Every second byte -/

/-- The bytes at even positions. -/
def evens (d : Bytes) : Bytes :=
  (List.range ((d.length + 1) / 2)).map fun i => d.getD (2 * i) 0

theorem everySecond_eq_evens (d : Bytes) : Bytes.everySecond d = evens d := by
  induction d using Bytes.everySecond.induct with
  | case1 => rfl
  | case2 x => simp [Bytes.everySecond, evens]
  | case3 x y rest ih =>
      have hcount : ((x :: y :: rest).length + 1) / 2 = (rest.length + 1) / 2 + 1 := by
        simp only [List.length_cons]
        omega
      rw [Bytes.everySecond, ih, evens, evens, hcount, List.range_succ_eq_map, List.map_cons,
        List.map_map]
      congr 1

theorem evens_xor {a b : Bytes} (h : a.length = b.length) :
    evens (Bytes.xor a b) = Bytes.xor (evens a) (evens b) := by
  unfold evens
  rw [Bytes.length_xor_of_length_eq h, ← h]
  unfold Bytes.xor
  rw [List.zipWith_map, List.zipWith_self]
  refine List.map_congr_left fun i _ => ?_
  exact Bytes.getD_xor h (2 * i)

theorem length_evens (d : Bytes) : (evens d).length = (d.length + 1) / 2 := by
  rw [evens, List.length_map, List.length_range]

/-! ## §3  The masks as one pattern -/

/-- What the two masks over a field of `2 * size` bytes do to byte `i`: one covers the first
`size` bytes, the other one the last twenty, and each starts at its own first byte.  Where
they overlap, both apply. -/
def maskAt (size : Nat) (mask : Bytes) (i : Nat) : UInt8 :=
  (if i < size then mask.getD (i % 4) 0 else 0)
    ^^^ (if 2 * size - 20 ≤ i then mask.getD ((i - (2 * size - 20)) % 4) 0 else 0)

/-- Both masks over the whole field; without a date there are none. -/
def maskPattern (size : Nat) : Option Bytes → Bytes
  | none => List.replicate (2 * size) 0
  | some mask => (List.range (2 * size)).map (maskAt size mask)

theorem length_maskPattern (size : Nat) (mask : Option Bytes) :
    (maskPattern size mask).length = 2 * size := by
  cases mask with
  | none => exact List.length_replicate
  | some mask => rw [maskPattern, List.length_map, List.length_range]

theorem length_maskFront (mask : Bytes) (n : Nat) (b : Bytes) :
    (maskFront mask n b).length = b.length := by
  simp only [maskFront, List.length_append, Bytes.length_xor, Bytes.length_cycle,
    List.length_take, List.length_drop]
  omega

theorem length_maskBack (mask : Bytes) (n : Nat) (b : Bytes) :
    (maskBack mask n b).length = b.length := by
  simp only [maskBack, List.length_append, Bytes.length_xor, Bytes.length_cycle,
    List.length_take, List.length_drop]
  omega

theorem getElem?_maskFront (mask : Bytes) (n : Nat) (b : Bytes) {i : Nat} (hi : i < b.length) :
    (maskFront mask n b)[i]?
      = some (b[i] ^^^ if i < n then mask.getD (i % mask.length) 0 else 0) := by
  by_cases hn : i < n
  · have hfront : i < (Bytes.xor (b.take n) (Bytes.cycle mask n)).length := by
      simp
      omega
    rw [maskFront, List.getElem?_append_left hfront, List.getElem?_eq_getElem hfront, if_pos hn]
    simp [Bytes.xor, Bytes.cycle]
  · have hfront : (Bytes.xor (b.take n) (Bytes.cycle mask n)).length = n := by
      simp
      omega
    rw [maskFront, List.getElem?_append_right (by omega), hfront, List.getElem?_drop,
      Nat.add_sub_cancel' (Nat.not_lt.mp hn), List.getElem?_eq_getElem hi, if_neg hn,
      UInt8.xor_zero]

theorem getElem?_maskBack (mask : Bytes) (n : Nat) {b : Bytes} {len i : Nat}
    (hb : b.length = len) (hi : i < b.length) :
    (maskBack mask n b)[i]?
      = some (b[i] ^^^ if len - n ≤ i then mask.getD ((i - (len - n)) % mask.length) 0 else 0) := by
  subst hb
  have hfront : (b.take (b.length - n)).length = b.length - n :=
    List.length_take_of_le (Nat.sub_le _ _)
  by_cases hn : b.length - n ≤ i
  · have hback : i - (b.length - n)
        < (Bytes.xor (b.drop (b.length - n)) (Bytes.cycle mask n)).length := by
      simp
      omega
    rw [maskBack, List.getElem?_append_right (by omega), hfront, List.getElem?_eq_getElem hback,
      if_pos hn]
    simp [Bytes.xor, Bytes.cycle, Nat.add_sub_cancel' hn]
  · rw [maskBack, List.getElem?_append_left (by omega), List.getElem?_take_of_lt (by omega),
      List.getElem?_eq_getElem hi, if_neg hn, UInt8.xor_zero]

/-- Taking the masks off is one exclusive or, wherever they overlap. -/
theorem unmasked_eq_xor {size : Nat} {field : Bytes} (hf : field.length = 2 * size)
    {mask : Option Bytes} (hm : ∀ m, mask = some m → m.length = 4) :
    unmasked size field mask = Bytes.xor field (maskPattern size mask) := by
  cases mask with
  | none =>
      rw [unmasked, maskPattern, ← hf, Bytes.xor_replicate_zero]
  | some mask =>
      have hm := hm mask rfl
      have hl : (maskFront mask size field).length = 2 * size := (length_maskFront _ _ _).trans hf
      have hlength : (unmasked size field (some mask)).length
          = (Bytes.xor field (maskPattern size (some mask))).length := by
        rw [unmasked, length_maskBack, hl,
          Bytes.length_xor_of_length_eq (hf.trans (length_maskPattern _ _).symm), hf]
      refine List.ext_getElem hlength fun i hi hi' => ?_
      rw [unmasked, length_maskBack] at hi
      -- The back is masked as the front has left it.
      have hfield : i < field.length := hf.symm ▸ hl ▸ hi
      have hfront := getElem?_maskFront mask size field hfield
      have hback := getElem?_maskBack mask 20 hl hi
      rw [List.getElem?_eq_getElem hi, Option.some_inj] at hfront
      rw [hfront, hm, UInt8.xor_assoc] at hback
      have hpattern : (Bytes.xor field (maskPattern size (some mask)))[i]
          = field[i] ^^^ maskAt size mask i := by
        simp [Bytes.xor, maskPattern]
      rw [hpattern]
      exact Option.some_inj.mp ((List.getElem?_eq_getElem _).symm.trans hback)

/-! ## §4  The fields -/

/-- The header contains everything that the key of an older file is made from. -/
structure HasOldFields (layout : Layout) (header : Bytes) : Prop where
  salt : 0x72 + 4 ≤ header.length
  passwordSize : 2 * layout.passwordSize.toNat < 2 ^ 64
  password : layout.passwordOffset.toNat + 2 * layout.passwordSize.toNat ≤ header.length
  date : ∀ offset, layout.dateOffset = some offset → offset.toNat + 8 ≤ header.length
  engineName : layout.engineNameOffset.toNat + layout.engineNameLength.toNat ≤ header.length

section

variable (layout : Layout) (header : Bytes)

def saltWord : UInt32 :=
  UInt32.ofNat (Bytes.toNatLE ((header.drop 0x72).take 4))

/-- The old password field under its masks. -/
def storedPassword : Bytes :=
  (header.drop layout.passwordOffset.toNat).take (2 * layout.passwordSize.toNat)

/-- The bytes of the whole part of the creation date, if the format masks with it. -/
def dateBytes : Option Bytes :=
  layout.dateOffset.map fun offset =>
    Bytes.ofNatLE 4 (Binary64.toWord32 (Bytes.toNatLE ((header.drop offset.toNat).take 8)))

def engineName : Bytes :=
  (header.drop layout.engineNameOffset.toNat).take layout.engineNameLength.toNat

/-- The key as a number: the salt combined with the old password field, with the masks over
it and with the name of the engine. -/
def closedKey : UInt32 :=
  saltWord header ^^^ spread (evens (storedPassword layout header))
    ^^^ spread (evens (maskPattern layout.passwordSize.toNat (dateBytes layout header)))
    ^^^ spread (engineName layout header)

end

variable {layout : Layout} {header : Bytes}

/-- Only the salt has a part in the top bit of the key. -/
theorem testBit_closedKey :
    (closedKey layout header).toNat.testBit 31 = (saltWord header).toNat.testBit 31 := by
  have hfree : ∀ d, (spread d).toNat.testBit 31 = false := fun d =>
    Nat.testBit_lt_two_pow (spread_lt d)
  simp only [closedKey, UInt32.toNat_xor, Nat.testBit_xor, hfree, Bool.xor_false]

theorem length_of_dateBytes {mask : Bytes} (h : dateBytes layout header = some mask) :
    mask.length = 4 := by
  obtain ⟨offset, -, rfl⟩ := Option.map_eq_some_iff.mp h
  exact Bytes.length_ofNatLE _ _

section

variable {α β : Type} {p q : Prop} {r : Except Error α} {a : α}

/-- A step that comes to a value exactly if a condition holds; otherwise the format of the
header is at fault. -/
def Yields (p : Prop) (r : Except Error α) (a : α) : Prop :=
  (p → r = .ok a) ∧ (¬ p → ∃ fault, r = .error (.format fault))

theorem Yields.congr (h : Yields p r a) (hpq : p ↔ q) : Yields q r a :=
  propext hpq ▸ h

/-- Steps in a row come to a value if all conditions hold, and each of them may be used behind
its step. -/
theorem Yields.bind {f : α → Except Error β} {b : β} (h : Yields p r a)
    (hf : p → Yields q (f a) b) : Yields (p ∧ q) (r >>= f) b := by
  constructor
  · rintro ⟨hp, hq⟩
    exact Outcome.bind_eq_ok.mpr ⟨a, h.1 hp, (hf hp).1 hq⟩
  · intro hpq
    by_cases hp : p
    · obtain ⟨fault, he⟩ := (hf hp).2 fun hq => hpq ⟨hp, hq⟩
      exact ⟨fault, Outcome.bind_eq_error.mpr (Or.inr ⟨a, h.1 hp, he⟩)⟩
    · obtain ⟨fault, he⟩ := h.2 hp
      exact ⟨fault, Outcome.bind_eq_error.mpr (Or.inl he)⟩

/-- What is made of the value of a step cannot fail. -/
theorem Yields.map (h : Yields p r a) (g : α → β) :
    Yields p (r >>= fun x => pure (g x)) (g a) := by
  have hpure : p → Yields True (pure (g a) : Except Error β) (g a) := fun _ =>
    ⟨fun _ => rfl, fun hf => absurd trivial hf⟩
  exact (h.bind hpure).congr (and_iff_left trivial)

end

theorem yields_field (offset len : Nat) (name : String) (header : Bytes) :
    Yields (offset + len ≤ header.length) (Bytes.field offset len name header)
      ((header.drop offset).take len) :=
  ⟨Bytes.field_eq_ok, fun h => ⟨_, Bytes.field_eq_error (Nat.not_le.mp h)⟩⟩

theorem yields_oldPasswordField (layout : Layout) (header : Bytes) :
    Yields (2 * layout.passwordSize.toNat < 2 ^ 64
        ∧ layout.passwordOffset.toNat + 2 * layout.passwordSize.toNat ≤ header.length)
      (oldPasswordField layout header) (storedPassword layout header) := by
  unfold oldPasswordField
  simp only [Nat.mul_comm layout.passwordSize.toNat 2]
  by_cases hsize : 2 * layout.passwordSize.toNat < UInt64.size
  · rw [if_pos hsize]
    exact (yields_field _ _ _ header).congr (and_iff_right hsize).symm
  · rw [if_neg hsize]
    exact ⟨fun h => absurd h.1 hsize, fun _ => ⟨_, rfl⟩⟩

theorem yields_dateMask (layout : Layout) (header : Bytes) :
    Yields (∀ offset, layout.dateOffset = some offset → offset.toNat + 8 ≤ header.length)
      (dateMask layout header) (dateBytes layout header) := by
  unfold dateMask dateBytes
  cases layout.dateOffset with
  | none => exact ⟨fun _ => rfl, fun h => absurd nofun h⟩
  | some offset =>
      have hdate := (yields_field offset.toNat 8 "header date" header).map fun date =>
        some (Bytes.ofNatLE 4 (Binary64.toWord32 (Bytes.toNatLE date)))
      refine hdate.congr ⟨?_, fun h => h offset rfl⟩
      rintro h offset' ⟨rfl⟩
      exact h

/-! ## §5  The key -/

/-- With the old password field there, what the steps come to is the closed form. -/
theorem combine_eq_closedKey
    (hpassword : layout.passwordOffset.toNat + 2 * layout.passwordSize.toNat ≤ header.length) :
    combine
        (combine (saltWord header)
          (Bytes.everySecond (unmasked layout.passwordSize.toNat (storedPassword layout header)
            (dateBytes layout header))))
        (engineName layout header)
      = closedKey layout header := by
  have hlength : (storedPassword layout header).length = 2 * layout.passwordSize.toNat := by
    rw [storedPassword, List.length_take, List.length_drop]
    omega
  have hpattern := length_maskPattern layout.passwordSize.toNat (dateBytes layout header)
  have hmask : ∀ m, dateBytes layout header = some m → m.length = 4 := fun _ hm =>
    length_of_dateBytes hm
  -- Field and pattern are equally long, so every second byte of one is beside one of the other.
  have hevens : (evens (storedPassword layout header)).length
      = (evens (maskPattern layout.passwordSize.toNat (dateBytes layout header))).length := by
    rw [length_evens, length_evens, hlength, hpattern]
  rw [combine_eq_xor_spread, combine_eq_xor_spread, everySecond_eq_evens,
    unmasked_eq_xor hlength hmask, evens_xor (hlength.trans hpattern.symm), spread_xor hevens,
    ← UInt32.xor_assoc]
  rfl

/-- **The key is made exactly if all fields are there.** -/
theorem yields_oldKey (layout : Layout) (header : Bytes) :
    Yields (HasOldFields layout header) (oldKey layout header)
      ⟨Bytes.le32 (closedKey layout header)⟩ := by
  have hsteps : Yields
      (0x72 + 4 ≤ header.length
        ∧ (2 * layout.passwordSize.toNat < 2 ^ 64
          ∧ layout.passwordOffset.toNat + 2 * layout.passwordSize.toNat ≤ header.length)
        ∧ (∀ offset, layout.dateOffset = some offset → offset.toNat + 8 ≤ header.length)
        ∧ layout.engineNameOffset.toNat + layout.engineNameLength.toNat ≤ header.length)
      (oldKey layout header) ⟨Bytes.le32 (closedKey layout header)⟩ := by
    refine (yields_field _ _ _ header).bind fun _ => ?_
    refine (yields_oldPasswordField layout header).bind fun hpassword => ?_
    refine (yields_dateMask layout header).bind fun _ => ?_
    rw [← combine_eq_closedKey hpassword.2]
    exact (yields_field _ _ _ header).map _
  refine hsteps.congr ⟨?_, ?_⟩
  · rintro ⟨hsalt, ⟨hsize, hpassword⟩, hdate, hname⟩
    exact ⟨hsalt, hsize, hpassword, hdate, hname⟩
  · intro h
    exact ⟨h.salt, ⟨h.passwordSize, h.password⟩, h.date, h.engineName⟩

/-- **The key of an older file in closed form.**  The key is made exactly if the salt, the old
password field, the creation date, if the format has one, and the name of the engine lie inside
the header, and twice the number of password characters is a 64-bit number; otherwise the
header is malformed.  The key, as a little-endian number, is the exclusive or of the salt and
of the words that the stored password field, the masks over it and the name of the engine are
spread over.  No byte loses a bit on the way, and none gets as far as the top bit, which is the
one of the salt. -/
theorem oldKey_closed_form (layout : Layout) (header : Bytes) :
    ((∃ keys, oldKey layout header = .ok keys) ↔ HasOldFields layout header)
      ∧ (¬ HasOldFields layout header → ∃ fault, oldKey layout header = .error (.format fault))
      ∧ (∀ keys, oldKey layout header = .ok keys →
          keys.encodingKey = Bytes.le32 (closedKey layout header)
            ∧ (Bytes.toNatLE keys.encodingKey).testBit 31 = (saltWord header).toNat.testBit 31)
      ∧ ∀ d i, (shifted d i).toNat = (d.getD i 0).toNat * 2 ^ (i % 24) := by
  obtain ⟨hok, herror⟩ := yields_oldKey layout header
  have hfields : ∀ keys, oldKey layout header = .ok keys → HasOldFields layout header := by
    intro keys hkeys
    by_contra h
    obtain ⟨fault, hfault⟩ := herror h
    rw [hfault] at hkeys
    cases hkeys
  refine ⟨⟨?_, ?_⟩, herror, ?_, toNat_shifted⟩
  · rintro ⟨keys, hkeys⟩
    exact hfields keys hkeys
  · intro h
    exact ⟨_, hok h⟩
  · intro keys hkeys
    rw [hok (hfields keys hkeys)] at hkeys
    cases hkeys
    exact ⟨rfl, by rw [Bytes.toNatLE_le32, testBit_closedKey]⟩

/-- A field of thirteen characters, over which the two masks overlap and are out of step; and
the same header without its last byte, which belongs to the date. -/
theorem oldKey_closed_form_overlapping :
    let layout : Layout := { Layout.msisam with passwordSize := 13 }
    let header : Bytes := (List.range 0x72).map UInt8.ofNat
      ++ [0x01, 0x00, 0x00, 0x80, 0x00, 0x88, 0xE3, 0x40]
    dateBytes layout header = some (Bytes.le32 40000)
      ∧ oldKey layout header = .ok ⟨[0xFD, 0xB8, 0x03, 0x80]⟩
      ∧ ∃ fault, oldKey layout (header.take 0x79) = .error (.format fault) := by
  intro layout header
  have hfields : HasOldFields layout header :=
    { salt := by decide +kernel
      passwordSize := by decide +kernel
      password := by decide +kernel
      date := by
        rintro offset hd
        cases hd
        decide +kernel
      engineName := by decide +kernel }
  have hshort : ¬ HasOldFields layout (header.take 0x79) := by
    intro h
    exact absurd (h.date 0x72 rfl) (by decide +kernel)
  have hclosed : Bytes.le32 (closedKey layout header) = [0xFD, 0xB8, 0x03, 0x80] := by
    decide +kernel
  obtain ⟨⟨-, hsuccess⟩, -, hkey, -⟩ := oldKey_closed_form layout header
  obtain ⟨-, herror, -, -⟩ := oldKey_closed_form layout (header.take 0x79)
  obtain ⟨⟨key⟩, hkeys⟩ := hsuccess hfields
  have hbytes : key = [0xFD, 0xB8, 0x03, 0x80] := (hkey _ hkeys).1.trans hclosed
  refine ⟨by decide +kernel, ?_, herror hshort⟩
  rw [hkeys, hbytes]

end Msisam

end PageVault
