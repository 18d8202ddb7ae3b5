import PageVault.Proofs.Keys.Unlocking
import PageVault.Proofs.Page.History

/-!
# Open files fail only when they are misused

Every codec that a provider makes has, for each page, a key and an initialisation
vector that its cipher takes (`Codec.WellKeyed`).  So a page is refused for its length
alone, and a host that passes whole blocks where they are needed never sees an error.

§1 keys and vectors of issued codecs · §2 pages · §3 calls.
-/

namespace PageVault

/-! ## §1  Keys and vectors of issued codecs -/

namespace Codec

/-- Every page has a key and a vector that the cipher takes. -/
def WellKeyed (c : Codec) : Prop :=
  ∀ spec, c.transform = .block spec → ∀ page,
    spec.cipher.supportsKeyLength (c.keys.params page).key.length = true
      ∧ spec.HasVector (c.keys.params page).iv

/-- **Providers make codecs with the right keys**: standard ones because the key size
was checked in the header, agile ones because the suite was checked in the descriptor
and the key value after it was unwrapped. -/
theorem Issued.wellKeyed {c : Codec} (h : c.Issued) : c.WellKeyed := by
  intro spec hspec page
  cases h with
  | jet | msisamOld | msisamModern | cryptoApi | binaryDocument =>
      -- A keystream takes any key.
      cases hspec
  | standard hs password hl hk =>
      cases hspec
      rw [StandardLock.eq_keysOf_of_unlock hl hk]
      constructor
      · show CipherAlgorithm.aes.supportsKeyLength (StandardKeys.derive _ _ _).length = true
        rw [StandardKeys.length_derive]
        exact hl.takes_key
      · intro hm
        cases hm
  | @agile lock keys password hk =>
      cases hspec
      obtain ⟨hsuite, hlen⟩ := AgileLock.length_keyValue_of_unlock hk
      constructor
      · show lock.pageSuite.spec.cipher.supportsKeyLength keys.keyValue.length = true
        rw [hlen]
        exact lock.pageSuite.takes_key
      · intro _
        -- The vector was cut or padded to a block, whatever the digest gave.
        refine ⟨_, rfl, ?_⟩
        rw [Suite.length_vectorOf, hsuite]

end Codec

/-! ## §2  Pages -/

/-- A length that is not that of whole blocks where it has to be. -/
def PageTransform.Misaligned (t : PageTransform) (length : Nat) : Prop :=
  ∃ spec, t = .block spec ∧ spec.mode ≠ .cfb ∧ spec.cipher ≠ .rc4
    ∧ length % spec.blockSize ≠ 0

theorem CipherSpec.not_fits_iff {spec : CipherSpec} {length : Nat} :
    ¬ spec.Fits length
      ↔ spec.mode ≠ .cfb ∧ spec.cipher ≠ .rc4 ∧ length % spec.blockSize ≠ 0 := by
  rw [fits_iff]
  tauto

namespace Handler

variable {h : Handler} {page : UInt32}

@[inherit_doc PageTransform.Misaligned]
def Misaligned : Handler → (length : Nat) → Prop
  | plain, _ => False
  | coded c, length => c.transform.Misaligned length

/-- Every page has a key and a vector that the cipher takes. -/
def WellKeyed : Handler → Prop
  | plain => True
  | coded c => c.WellKeyed

/-- A misaligned page is refused with an error that says so. -/
theorem transformed_of_misaligned {data : Bytes} (he : h.isEncoded page = true)
    (hm : h.Misaligned data.length) (direction : Direction) :
    ∃ cipher, h.transformed direction page data
      = .error (.format (.partialBlock data.length cipher)) := by
  cases h with
  | plain => cases hm
  | coded c =>
      obtain ⟨spec, hspec, hfit⟩ := hm
      have he : c.isEncoded page = true := he
      have hr : spec.refusal (c.keys.params page).key.length (c.keys.params page).iv data.length
          = some (.format (.partialBlock data.length spec.cipher)) :=
        CipherSpec.refusal_of_not_fits (CipherSpec.not_fits_iff.mpr hfit)
      refine ⟨spec.cipher, ?_⟩
      rw [transformed_coded, if_pos he]
      unfold Codec.transformed
      rw [hspec]
      exact CipherSpec.transform_of_refusal hr direction

/-- Any other page is transformed, and keeps its length. -/
theorem transformed_of_not_misaligned {data : Bytes} (hk : h.WellKeyed)
    (hm : ¬ (h.isEncoded page = true ∧ h.Misaligned data.length)) (direction : Direction) :
    ∃ out, h.transformed direction page data = .ok out ∧ out.length = data.length := by
  cases h with
  | plain => exact ⟨data, rfl, rfl⟩
  | coded c =>
      rw [transformed_coded]
      by_cases he : c.isEncoded page = true
      · rw [if_pos he]
        unfold Codec.transformed
        cases ht : c.transform with
        | stream => exact ⟨_, rfl, Rc4.length_crypt _ _⟩
        | block spec =>
            have hf : spec.Fits data.length := by
              by_contra hf
              exact hm ⟨he, spec, ht, CipherSpec.not_fits_iff.mp hf⟩
            obtain ⟨hkey, hv⟩ := hk spec ht page
            obtain ⟨out, hout, hlen, -⟩ := CipherSpec.transform_of_not_refused
              (CipherSpec.refusal_eq_none.mpr ⟨hf, hkey, hv⟩) direction
            exact ⟨out, hout, hlen⟩
      · exact ⟨data, by rw [if_neg he], rfl⟩

/-! ## §3  Calls -/

theorem wellKeyed_forget (h : Handler) : h.forget.WellKeyed ↔ h.WellKeyed := by
  cases h with
  | plain => exact Iff.rfl
  | coded c => exact Iff.rfl

/-- What a host has to do wrong with a page for a call to fail, and what the call does
then: the handler fails on nothing else, says so with a format error, and keeps the
length of what it transforms. -/
structure FailsOnMisuseOnly (s : Handler) (page : UInt32) : Prop where
  decode_fails_iff : ∀ buffer, (∃ e, (s.decode page buffer).1.outcome = .error e)
    ↔ s.isEncoded page = true ∧ s.Misaligned buffer.length
  encode_fails_iff : ∀ data offset, (∃ e, (s.encode page data offset).1 = .error e)
    ↔ s.isEncoded page = true ∧ (data.length < offset ∨ s.Misaligned data.length)
  decodeInto_fails_iff : ∀ input output,
    (∃ e, (s.decodeInto page input output).1.outcome = .error e)
      ↔ output.length < input.length ∨ ∃ e, (s.decode page input).1.outcome = .error e
  decode_error : ∀ buffer e, (s.decode page buffer).1.outcome = .error e →
    (∃ fault, e = .format fault) ∧ (s.decode page buffer).1.buffer = buffer
  encode_error : ∀ data offset e, (s.encode page data offset).1 = .error e →
    ∃ fault, e = .format fault
  decodeInto_error : ∀ input output e, (s.decodeInto page input output).1.outcome = .error e →
    ∃ fault, e = .format fault
  length_decode : ∀ buffer, (s.decode page buffer).1.outcome = .ok () →
    (s.decode page buffer).1.buffer.length = buffer.length
  length_encode : ∀ data offset out, (s.encode page data offset).1 = .ok out →
    out.length = data.length
  length_decodeInto : ∀ input output, (s.decodeInto page input output).1.outcome = .ok () →
    ∃ plain, plain.length = input.length
      ∧ (s.decodeInto page input output).1.buffer = plain ++ output.drop input.length

/-- Decoding a page fails on misalignment, and otherwise keeps the length. -/
theorem decoded_cases (hk : h.WellKeyed) (page : UInt32) (buffer : Bytes) :
    ((h.isEncoded page = true ∧ h.Misaligned buffer.length)
        ∧ ∃ cipher, h.decoded page buffer
          = ⟨.error (.format (.partialBlock buffer.length cipher)), buffer⟩)
      ∨ (¬ (h.isEncoded page = true ∧ h.Misaligned buffer.length)
        ∧ ∃ plain, plain.length = buffer.length ∧ h.decoded page buffer = ⟨.ok (), plain⟩) := by
  unfold decoded
  by_cases hm : h.isEncoded page = true ∧ h.Misaligned buffer.length
  · obtain ⟨cipher, ht⟩ := transformed_of_misaligned hm.1 hm.2 .decrypt
    exact Or.inl ⟨hm, cipher, by rw [ht]; rfl⟩
  · obtain ⟨plain, ht, hlen⟩ := transformed_of_not_misaligned hk hm .decrypt
    exact Or.inr ⟨hm, plain, hlen, by rw [ht]; rfl⟩

/-- Encoding a page fails on an offset past its end or on misalignment, and otherwise
keeps the length. -/
theorem encoded_cases (hk : h.WellKeyed) (page : UInt32) (data : Bytes) (offset : Nat) :
    ((h.isEncoded page = true ∧ (data.length < offset ∨ h.Misaligned data.length))
        ∧ ∃ fault, h.encoded page data offset = .error (.format fault))
      ∨ (¬ (h.isEncoded page = true ∧ (data.length < offset ∨ h.Misaligned data.length))
        ∧ ∃ out, out.length = data.length ∧ h.encoded page data offset = .ok out) := by
  unfold encoded
  by_cases ho : h.isEncoded page = true ∧ data.length < offset
  · exact Or.inl ⟨⟨ho.1, Or.inl ho.2⟩, _, if_pos ho⟩
  · rw [if_neg ho]
    by_cases hm : h.isEncoded page = true ∧ h.Misaligned data.length
    · obtain ⟨cipher, ht⟩ := transformed_of_misaligned hm.1 hm.2 .encrypt
      exact Or.inl ⟨⟨hm.1, Or.inr hm.2⟩, _, ht⟩
    · obtain ⟨out, ht, hlen⟩ := transformed_of_not_misaligned hk hm .encrypt
      refine Or.inr ⟨?_, out, hlen, ht⟩
      rintro ⟨he, hlt | hmis⟩
      · exact ho ⟨he, hlt⟩
      · exact hm ⟨he, hmis⟩

/-- A handler with the right keys, and right in what it remembers, fails on misuse only. -/
theorem failsOnMisuseOnly (hs : h.Sound) (hk : h.WellKeyed) (page : UInt32) :
    h.FailsOnMisuseOnly page where
  decode_fails_iff := by
    intro buffer
    rw [decode_fst hs]
    refine Outcome.exists_error_iff ?_
    rcases decoded_cases hk page buffer with ⟨hm, cipher, hd⟩ | ⟨hm, plain, -, hd⟩
    · exact Or.inl ⟨hm, _, by rw [hd]⟩
    · exact Or.inr ⟨hm, (), by rw [hd]⟩
  encode_fails_iff := by
    intro data offset
    rw [encode_fst hs]
    refine Outcome.exists_error_iff ?_
    rcases encoded_cases hk page data offset with ⟨hm, fault, hd⟩ | ⟨hm, out, -, hd⟩
    · exact Or.inl ⟨hm, _, hd⟩
    · exact Or.inr ⟨hm, out, hd⟩
  decodeInto_fails_iff := by
    intro input output
    unfold decodeInto
    by_cases hlt : output.length < input.length
    · rw [if_pos hlt]
      exact ⟨fun _ => Or.inl hlt, fun _ => ⟨_, rfl⟩⟩
    · rw [if_neg hlt]
      exact (or_iff_right hlt).symm
  decode_error := by
    intro buffer e he
    rw [decode_fst hs] at he ⊢
    rcases decoded_cases hk page buffer with ⟨-, cipher, hd⟩ | ⟨-, plain, -, hd⟩
    · rw [hd] at he ⊢
      cases he
      exact ⟨⟨_, rfl⟩, rfl⟩
    · rw [hd] at he
      cases he
  encode_error := by
    intro data offset e he
    rw [encode_fst hs] at he
    rcases encoded_cases hk page data offset with ⟨-, fault, hd⟩ | ⟨-, out, -, hd⟩
    · rw [hd] at he
      cases he
      exact ⟨fault, rfl⟩
    · rw [hd] at he
      cases he
  decodeInto_error := by
    intro input output e he
    rw [decodeInto_fst hs] at he
    unfold decodedInto at he
    split at he
    · cases he
      exact ⟨_, rfl⟩
    · rcases decoded_cases hk page input with ⟨-, cipher, hd⟩ | ⟨-, plain, -, hd⟩
      · rw [hd] at he
        cases he
        exact ⟨_, rfl⟩
      · rw [hd] at he
        cases he
  length_decode := by
    intro buffer hok
    rw [decode_fst hs] at hok ⊢
    rcases decoded_cases hk page buffer with ⟨-, cipher, hd⟩ | ⟨-, plain, hlen, hd⟩
    · rw [hd] at hok
      cases hok
    · rw [hd]
      exact hlen
  length_encode := by
    intro data offset out hok
    rw [encode_fst hs] at hok
    rcases encoded_cases hk page data offset with ⟨-, fault, hd⟩ | ⟨-, out', hlen, hd⟩
    · rw [hd] at hok
      cases hok
    · rw [hd] at hok
      cases hok
      exact hlen
  length_decodeInto := by
    intro input output hok
    rw [decodeInto_fst hs] at hok ⊢
    unfold decodedInto at hok ⊢
    split at hok
    · cases hok
    · rename_i hlt
      rw [if_neg hlt]
      rcases decoded_cases hk page input with ⟨-, cipher, hd⟩ | ⟨-, plain, hlen, hd⟩
      · rw [hd] at hok
        cases hok
      · rw [hd]
        exact ⟨plain, hlen, rfl⟩

theorem Opened.wellKeyed (ho : h.Opened) : h.WellKeyed := by
  rcases ho.issued with rfl | ⟨c, rfl, hc⟩
  · trivial
  · exact hc.wellKeyed

/-- **An open file fails on misuse only**, in every state it can reach, and so does the
handler a host starts with. -/
theorem failsOnMisuseOnly_after (ho : h.Opened ∨ h = default) (calls : List Call)
    (page : UInt32) : (h.after calls).FailsOnMisuseOnly page := by
  have ho : h.Opened := by
    rcases ho with ho | rfl
    · exact ho
    · exact opened_default
  have hk : (h.after calls).WellKeyed := by
    rw [← wellKeyed_forget, forget_after, wellKeyed_forget]
    exact ho.wellKeyed
  exact failsOnMisuseOnly (sound_after ho.sound calls) hk page

/-- A file with standard encryption: a page of sixteen bytes is decoded and one of
fifteen is not, also after another call. -/
theorem failsOnMisuseOnly_after_standard :
    let h := coded (.fresh .officeStandard (.standard (uncheckedLock.keysOf []))
      (.block .aesEcb) lastOfficePage)
    let s := h.after [.encode 3 [7] 2]
    h.Opened ∧ s.FailsOnMisuseOnly 2
      ∧ (∃ e, (s.decode 2 (List.replicate 15 0)).1.outcome = .error e)
      ∧ (s.decode 2 (List.replicate 16 0)).1.outcome = .ok () := by
  intro h s
  have ho : h.Opened := ⟨.absent, _, _, 0, openFile_uncheckedHeader .absent 0⟩
  have hf : s.FailsOnMisuseOnly 2 := failsOnMisuseOnly_after (Or.inl ho) _ 2
  refine ⟨ho, hf, ?_, ?_⟩
  · exact (hf.decode_fails_iff _).mpr ⟨rfl, .aesEcb, rfl, by decide, by decide, by decide⟩
  · cases hd : (s.decode 2 (List.replicate 16 0)).1.outcome with
    | ok u => rfl
    | error e =>
        obtain ⟨-, spec, hspec, -, -, hn⟩ := (hf.decode_fails_iff _).mp ⟨e, hd⟩
        cases hspec
        exact absurd rfl hn

end Handler

end PageVault
