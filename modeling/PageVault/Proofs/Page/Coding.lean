import PageVault.Proofs.Cipher.Rc4
import PageVault.Proofs.Page.History

/-!
# What an open file does with its pages

A handler `Codes` its pages with a function if, in every state that it can reach, it
decodes and encodes exactly the pages up to a last one, each as the function says.  A
codec that was just made codes pages with its transform, under the parameters that its
keys give; where the transform is a stream, that is exclusive or with a keystream.
-/

namespace PageVault

namespace Handler

/-- The handler has the given scheme, the pages from one to `lastPage` are encoded, and
whatever was asked of it before, it decodes and encodes them with `code`. -/
structure Codes (h : Handler) (scheme : Scheme) (lastPage : UInt32)
    (code : UInt32 → Direction → Bytes → Except Error Bytes) : Prop where
  scheme_eq : h.scheme = scheme
  isEncoded_iff : ∀ page, h.isEncoded page = true ↔ 0 < page ∧ page ≤ lastPage
  decode_eq : ∀ page, 0 < page → page ≤ lastPage → ∀ calls buffer,
    ((h.after calls).decode page buffer).1 = .ofTransform buffer (code page .decrypt buffer)
  encode_eq : ∀ page, 0 < page → page ≤ lastPage → ∀ calls data offset, offset ≤ data.length →
    ((h.after calls).encode page data offset).1 = code page .encrypt data

/-- **A codec that was just made codes pages with its transform.** -/
theorem codes_fresh (scheme : Scheme) (keys : PageKeys) (transform : PageTransform)
    (lastPage : UInt32) :
    (coded (.fresh scheme keys transform lastPage)).Codes scheme lastPage
      fun page direction data => transform.apply direction (keys.params page) data := by
  have hs : (coded (.fresh scheme keys transform lastPage)).Sound :=
    Codec.sound_fresh scheme keys transform lastPage
  have he : ∀ page, (coded (.fresh scheme keys transform lastPage)).isEncoded page = true
      ↔ 0 < page ∧ page ≤ lastPage := by
    intro page
    show (0 < page && page ≤ lastPage : Bool) = true ↔ _
    rw [Bool.and_eq_true, decide_eq_true_eq, decide_eq_true_eq]
  -- What an encoded page is transformed with, in either direction.
  have ht : ∀ page, 0 < page → page ≤ lastPage → ∀ direction data,
      (coded (.fresh scheme keys transform lastPage)).transformed direction page data
        = transform.apply direction (keys.params page) data := by
    intro page h0 hl direction data
    rw [transformed_coded]
    exact if_pos ((he page).mpr ⟨h0, hl⟩)
  refine ⟨rfl, he, ?_, ?_⟩
  · intro page h0 hl calls buffer
    rw [decode_after hs, decoded, ht page h0 hl]
  · intro page h0 hl calls data offset ho
    rw [encode_after hs, encoded, if_neg, ht page h0 hl]
    rintro ⟨-, hlt⟩
    exact Nat.not_lt.mpr ho hlt

/-- What pages are coded with may be said in another way. -/
theorem Codes.congr {h : Handler} {scheme : Scheme} {lastPage : UInt32}
    {code code' : UInt32 → Direction → Bytes → Except Error Bytes}
    (hc : h.Codes scheme lastPage code) (he : ∀ page, code page = code' page) :
    h.Codes scheme lastPage code' := by
  have hcode : code = code' := funext he
  exact hcode ▸ hc

end Handler

/-- A page combined with the keystream of a key, in either direction. -/
def Rc4.code (key : Bytes) (_ : Direction) (data : Bytes) : Except Error Bytes :=
  .ok (Bytes.xor data ((ofKey key).keystream data.length))

theorem Rc4.crypt_eq_xor (key data : Bytes) :
    crypt key data = Bytes.xor data ((ofKey key).keystream data.length) := by
  rw [crypt, apply_eq]

/-- A page that is short enough to be computed. -/
theorem Rc4.code_eq_numbers {key : Bytes} (h : key ≠ []) (direction : Direction) (data : Bytes) :
    code key direction data
      = .ok (Bytes.xor data ((Numbers.ofKey key).keystream data.length)) := by
  rw [code, keystream_ofKey h]

theorem PageTransform.apply_stream (direction : Direction) (params : PageParams) (data : Bytes) :
    stream.apply direction params data = Rc4.code params.key direction data :=
  congrArg Except.ok (Rc4.crypt_eq_xor params.key data)

/-- **A codec of a stream combines pages with the keystream of their key.** -/
theorem Handler.codes_stream (scheme : Scheme) (keys : PageKeys) (lastPage : UInt32) :
    (coded (.fresh scheme keys .stream lastPage)).Codes scheme lastPage
      fun page => Rc4.code (keys.params page).key := by
  refine (codes_fresh scheme keys .stream lastPage).congr ?_
  intro page
  funext direction data
  exact PageTransform.apply_stream direction (keys.params page) data

end PageVault
