import PageVault.Descriptor.Reading
import PageVault.Proofs.Outcome

/-!
# Descriptors as documents

A document is read from bytes in two turns: first the bytes have to be text, then the
text is walked.  What is written in UTF-8 between brackets is the text that was written
(`text?_utf8`), so a descriptor can be read off the events of its document
(`ofBytes_utf8`).  `document` writes the simplest kind of descriptor.
-/

namespace PageVault

namespace Descriptor

open Markup (events)

/-- Text in UTF-8. -/
def utf8 (cs : List Char) : Bytes :=
  cs.flatMap String.utf8EncodeChar

theorem fromUTF8?_utf8 (cs : List Char) :
    String.fromUTF8? ⟨(utf8 cs).toArray⟩ = some (String.ofList cs) := by
  have he : cs.utf8Encode = ⟨(utf8 cs).toArray⟩ :=
    ByteArray.ext List.data_toByteArray
  rw [← he]
  exact dif_pos ⟨cs, rfl⟩

/-- Text between brackets has no byte order mark in front and no zeros at the end. -/
theorem text?_utf8 (cs : List Char) :
    text? (utf8 ('<' :: cs ++ ['>'])) = some ('<' :: cs ++ ['>']) := by
  have hb : utf8 ('<' :: cs ++ ['>']) = 0x3C :: utf8 cs ++ [0x3E] := by
    simp [utf8, String.utf8EncodeChar]
  have hz : Bytes.trimZeros (0x3C :: utf8 cs ++ [0x3E]) = utf8 ('<' :: cs ++ ['>']) := by
    rw [hb, Bytes.trimZeros, List.reverse_append, List.reverse_singleton, List.singleton_append,
      List.dropWhile_cons_of_neg (by decide), List.reverse_cons, List.reverse_reverse]
  have hu : text? (0x3C :: utf8 cs ++ [0x3E])
      = (String.fromUTF8? ⟨(Bytes.trimZeros (0x3C :: utf8 cs ++ [0x3E])).toArray⟩).map
          String.toList := rfl
  rw [hb, hu, hz, fromUTF8?_utf8, Option.map_some, String.toList_ofList]

/-- A document whose walk runs to its end, with what was kept of it. -/
theorem ofBytes_utf8 {cs : List Char} {w : Walk} {d : Descriptor}
    (hw : Walk.start.run (events ('<' :: cs ++ ['>'])).items = .ok w)
    (hf : (events ('<' :: cs ++ ['>'])).fault = none) (hb : w.gathered.build = .ok d) :
    ofBytes (utf8 ('<' :: cs ++ ['>'])) = .ok d := by
  unfold ofBytes
  rw [text?_utf8]
  refine Outcome.bind_eq_ok.mpr ⟨w, hw, ?_⟩
  rw [hf]
  exact hb

/-- Attributes as a tag has them. -/
def attributesText (values : List (String × String)) : List Char :=
  values.flatMap fun v => ' ' :: v.1.toList ++ '=' :: '"' :: v.2.toList ++ ['"']

open Text (decimal)

/-- The attributes of a description. -/
def suiteValues (d : CipherDescription) : List (String × String) :=
  [("saltSize", decimal d.saltSize.toNat), ("blockSize", decimal d.blockSize.toNat),
    ("keyBits", decimal d.keyBits.toNat), ("hashSize", decimal d.hashSize.toNat),
    ("cipherAlgorithm", d.cipherName), ("cipherChaining", d.modeName),
    ("hashAlgorithm", d.hashName), ("saltValue", String.ofList (Text.Base64.encode d.salt))]

/-- The attributes of a password encryptor. -/
def encryptorValues (e : PasswordEncryptor) : List (String × String) :=
  suiteValues e.suite ++
    [("spinCount", decimal e.spinCount.toNat),
      ("encryptedVerifierHashInput", String.ofList (Text.Base64.encode e.encryptedVerifier)),
      ("encryptedVerifierHashValue", String.ofList (Text.Base64.encode e.encryptedVerifierHash)),
      ("encryptedKeyValue", String.ofList (Text.Base64.encode e.encryptedKeyValue))]

/-- The document of a descriptor with one password encryptor and nothing optional. -/
def document (keyData : CipherDescription) (e : PasswordEncryptor) : List Char :=
  '<' :: ("encryption".toList ++ attributesText [("xmlns", encryptionNamespace)]
    ++ "><keyData".toList ++ attributesText (suiteValues keyData) ++ "/><keyEncryptors>".toList
    ++ "<keyEncryptor".toList ++ attributesText [("uri", passwordNamespace)]
    ++ "><p:encryptedKey".toList
    ++ attributesText (("xmlns:p", passwordNamespace) :: encryptorValues e)
    ++ "/></keyEncryptor></keyEncryptors></encryption".toList) ++ ['>']

end Descriptor

end PageVault
