import PageVault.Proofs.Descriptor.Encryptors

/-!
# Whose key it is

A key encryptor is meant to be described by a key of its own: one in it, and in no other
encryptor further in (`OwnKey`).  The walk gives a key to the encryptor that began last, which
need not be the innermost one around the key: it may have ended already.  Then an encryptor
without a key of its own comes to one that belongs to the encryptor around it
(`keys_given_to_last_encryptor`, `not_attributed_nestedDocument`).  Where encryptors stand side
by side, every key goes where it belongs.

§1 own keys · §2 what is built · §3 the descriptor.
-/

namespace PageVault.Descriptor

open Markup

variable {es : List Event} {uri : String} {i j : Nat}

/-! ## §1  Own keys -/

/-- The key is the encryptor's own: it is inside, and not inside another `keyEncryptor` further
in. -/
def OwnKey (es : List Event) (uri : String) (i j : Nat) : Prop :=
  NamedAt es uri "encryptedKey" j ∧ Inside es i j
    ∧ ∀ k < j, NamedAt es encryptionNamespace "keyEncryptor" k → Inside es i k → ¬ Inside es k j

/-- No encryptor is inside another one. -/
def SideBySide (es : List Event) : Prop :=
  ∀ i k, EncryptorAt es i → EncryptorAt es k → ¬ Inside es i k

theorem EncryptorAt.of_inside {k : Nat} (h : EncryptorAt es i) (hik : Inside es i k)
    (hname : NamedAt es encryptionNamespace "keyEncryptor" k) : EncryptorAt es k := by
  obtain ⟨-, r, -, hr, hri⟩ := h
  exact ⟨hname, r, Nat.lt_trans hri.lt hik.lt, hr, hri.trans hik⟩

/-- A key that is given to an encryptor around it is its own. -/
theorem GivenTo.ownKey (h : GivenTo es uri i j) (hij : Inside es i j) : OwnKey es uri i j := by
  obtain ⟨hname, -, hi, -, hlast⟩ := h
  refine ⟨hname, hij, fun k hk hek hik hkj => ?_⟩
  exact absurd (hlast k hk (hi.of_inside hik hek)) (Nat.not_le.mpr hik.lt)

/-- An encryptor that takes a key from outside has none of its own. -/
theorem FirstGiven.not_ownKey (h : FirstGiven es uri i j) (hij : ¬ Inside es i j) (j' : Nat) :
    ¬ OwnKey es uri i j' := by
  rintro ⟨hname, hij', -⟩
  obtain ⟨⟨-, -, hi, hlt, hlast⟩, hfirst⟩ := h
  -- It would stand in front of the key that was taken, and be given to the encryptor before.
  have hj' : j' < j := by
    by_contra hle
    exact hij (hij'.of_le hlt (Nat.not_lt.mp hle))
  exact hfirst j' hj' ⟨hname, ⟨i, hij'.lt, hi, hij'⟩, hi, hij'.lt,
    fun k hk => hlast k (Nat.lt_trans hk hj')⟩

/-- Without nesting no key comes from outside. -/
theorem GivenTo.inside_of_sideBySide (h : GivenTo es uri i j) (hs : SideBySide es) :
    Inside es i j := by
  obtain ⟨-, ⟨k, hkj, hk, hin⟩, hi, hij, hlast⟩ := h
  rcases Nat.lt_or_eq_of_le (hlast k hkj hk) with hki | rfl
  · exact absurd (hin.of_le hki (Nat.le_of_lt hij)) (hs k i hk hi)
  · exact hin

/-! ## §2  What is built -/

/-- The kind of an encryptor; keys for it are in the namespace of that name. -/
def kindOf : KeyEncryptor → String
  | .password _ => passwordNamespace
  | .certificate _ => certificateNamespace

/-- The encryptor is what the attributes of a key say. -/
def ReadFrom (entries : Entries) : KeyEncryptor → Prop
  | .password e => entries.passwordEncryptor = .ok e
  | .certificate e => entries.certificateEncryptor = .ok e

/-- The first place holds the kind of the encryptor, and the second one its attributes. -/
structure Describes (es : List Event) (i j : Nat) (k : KeyEncryptor) : Prop where
  kind_eq : ∃ m ∈ meaningAt es i, Entries.get? ⟨"keyEncryptor", m.values⟩ "uri" = some (kindOf k)
  readFrom : ∃ m ∈ meaningAt es j, ReadFrom ⟨"encryptedKey", m.values⟩ k

/-- Every encryptor of the descriptor is described by its element and a key of its own. -/
def Attributed (es : List Event) (d : Descriptor) : Prop :=
  List.Forall₂ (fun i k => ∃ j, OwnKey es (kindOf k) i j ∧ Describes es i j k)
    (encryptorPlaces es) d.keyEncryptors

theorem OpenEncryptor.of_build {o : OpenEncryptor} {k : KeyEncryptor} (h : o.build = .ok k) :
    o.uri = some (kindOf k)
      ∧ ∃ entries, ReadFrom entries k
        ∧ (kindOf k = passwordNamespace ∧ o.password = some entries
          ∨ kindOf k = certificateNamespace ∧ o.certificate = some entries) := by
  have hrequired : ∀ {r : Option Entries} {entries : Entries},
      required "encryptedKey" "keyEncryptor" r = .ok entries → r = some entries := by
    intro r entries hr
    cases r with
    | none => cases hr
    | some _ => exact congrArg some (Except.ok.inj hr)
  unfold build at h
  split at h
  · cases h
  · rename_i uri huri
    split at h
    · rename_i hp
      obtain ⟨entries, hr, h⟩ := Outcome.bind_eq_ok.mp h
      obtain ⟨e, he, h⟩ := Outcome.bind_eq_ok.mp h
      cases h
      exact ⟨huri.trans (congrArg some hp), entries, he, Or.inl ⟨rfl, hrequired hr⟩⟩
    · split at h
      · rename_i hc
        obtain ⟨entries, hr, h⟩ := Outcome.bind_eq_ok.mp h
        obtain ⟨e, he, h⟩ := Outcome.bind_eq_ok.mp h
        cases h
        exact ⟨huri.trans (congrArg some hc), entries, he, Or.inr ⟨rfl, hrequired hr⟩⟩
      · cases h

/-- What is built of an encryptor comes from the first key of its kind that is given to it. -/
theorem describes_of_build {k : KeyEncryptor} (h : (described es i).build = .ok k) :
    ∃ j, FirstGiven es (kindOf k) i j ∧ Describes es i j k := by
  obtain ⟨huri, entries, hread, hkept⟩ := OpenEncryptor.of_build h
  have hkey : (firstKey es (kindOf k) i).bind (keyAt es) = some entries := by
    rcases hkept with ⟨hkind, hp⟩ | ⟨hkind, hc⟩
    · rw [hkind]
      exact hp
    · rw [hkind]
      exact hc
  obtain ⟨m, hm, hkind⟩ := Option.bind_eq_some_iff.mp huri
  obtain ⟨j, hj, hkeyAt⟩ := Option.bind_eq_some_iff.mp hkey
  obtain ⟨mj, hmj, rfl⟩ := Option.map_eq_some_iff.mp hkeyAt
  exact ⟨j, firstKey_eq_some_iff.mp hj, ⟨m, hm, hkind⟩, ⟨mj, hmj, hread⟩⟩

theorem forall₂_of_mapM_eq_ok {α β : Type} {f : α → Except Error β} {as : List α} {bs : List β}
    (h : as.mapM f = .ok bs) : List.Forall₂ (fun a b => f a = .ok b) as bs := by
  induction as generalizing bs with
  | nil =>
      cases h
      exact .nil
  | cons a as ih =>
      rw [List.mapM_cons] at h
      obtain ⟨b, hb, h⟩ := Outcome.bind_eq_ok.mp h
      obtain ⟨bs, hbs, h⟩ := Outcome.bind_eq_ok.mp h
      cases h
      exact .cons hb (ih hbs)

/-- The encryptors of a descriptor are built in order from what was described. -/
theorem forall₂_build {d : Descriptor} (h : ofEvents es = .ok d) :
    List.Forall₂ (fun i k => (described es i).build = .ok k) (encryptorPlaces es)
      d.keyEncryptors := by
  obtain ⟨w, hw, hb⟩ := Outcome.bind_eq_ok.mp h
  have hkept := (Kept.of_run hw).keyEncryptors_eq
  unfold Gathered.build at hb
  split at hb
  · obtain ⟨entries, -, hb⟩ := Outcome.bind_eq_ok.mp hb
    obtain ⟨keyData, -, hb⟩ := Outcome.bind_eq_ok.mp hb
    obtain ⟨dataIntegrity, -, hb⟩ := Outcome.bind_eq_ok.mp hb
    obtain ⟨keyEncryptors, hencryptors, hb⟩ := Outcome.bind_eq_ok.mp hb
    cases hb
    unfold Gathered.buildEncryptors at hencryptors
    split at hencryptors
    · rw [hkept, List.reverse_reverse] at hencryptors
      exact List.forall₂_map_left_iff.mp (forall₂_of_mapM_eq_ok hencryptors)
    · cases hencryptors
  · cases hb

/-! ## §3  The descriptor -/

/-- What is read of bytes is decided by them. -/
theorem HasEvents.unique {b : Bytes} {fs : List Event} (h : HasEvents b es)
    (h' : HasEvents b fs) : es = fs := by
  obtain ⟨cs, htext, hevents⟩ := h
  obtain ⟨cs', htext', hevents'⟩ := h'
  rw [htext] at htext'
  cases htext'
  rw [hevents] at hevents'
  exact congrArg Sequence.items hevents'

/-- A document with a descriptor was read to its end. -/
theorem exists_hasEvents {b : Bytes} {d : Descriptor} (h : ofBytes b = .ok d) :
    ∃ es, HasEvents b es ∧ ofEvents es = .ok d := by
  unfold ofBytes at h
  cases htext : text? b with
  | none =>
      rw [htext] at h
      cases h
  | some cs =>
      rw [htext] at h
      obtain ⟨w, hw, hb⟩ := Outcome.bind_eq_ok.mp h
      cases hfault : (events cs).fault with
      | some fault =>
          rw [hfault] at hb
          cases hb
      | none =>
          rw [hfault] at hb
          refine ⟨(events cs).items, ⟨cs, htext, ?_⟩, Outcome.bind_eq_ok.mpr ⟨w, hw, hb⟩⟩
          rw [← hfault]

/-- **A key is given to the encryptor that began last.**  The encryptors of a descriptor are in
the order of the `keyEncryptor` elements inside the first `keyEncryptors`, one for each of
them, and each comes from the first key of its kind that is given to its element.  If the
element is still open at that key, the key is its own; if not, it has no key of its own at all.
So every encryptor comes from a key of its own exactly if every element is still open at the
key that it takes, and always if no encryptor is inside another one. -/
theorem keys_given_to_last_encryptor {b : Bytes} {d : Descriptor} (h : ofBytes b = .ok d) :
    ∃ es, HasEvents b es
      ∧ List.Forall₂ (fun i k => ∃ j, FirstGiven es (kindOf k) i j ∧ Describes es i j k
          ∧ (Inside es i j → OwnKey es (kindOf k) i j)
          ∧ (¬ Inside es i j → ∀ j', ¬ OwnKey es (kindOf k) i j'))
        (encryptorPlaces es) d.keyEncryptors
      ∧ (Attributed es d
        ↔ List.Forall₂ (fun i k => ∀ j, FirstGiven es (kindOf k) i j → Inside es i j)
          (encryptorPlaces es) d.keyEncryptors)
      ∧ (SideBySide es → Attributed es d) := by
  obtain ⟨es, hes, hd⟩ := exists_hasEvents h
  have htaken : List.Forall₂ (fun i k => ∃ j, FirstGiven es (kindOf k) i j ∧ Describes es i j k)
      (encryptorPlaces es) d.keyEncryptors :=
    (forall₂_build hd).imp fun i k hk => describes_of_build hk
  refine ⟨es, hes, htaken.imp ?_, ⟨?_, ?_⟩, ?_⟩
  · rintro i k ⟨j, hj, hdescribes⟩
    exact ⟨j, hj, hdescribes, hj.1.ownKey, hj.not_ownKey⟩
  · intro hown
    refine hown.imp ?_
    rintro i k ⟨j', hj', -⟩ j hj
    by_contra hnot
    exact hj.not_ownKey hnot j' hj'
  · intro hin
    refine List.Forall₂.mp ?_ htaken hin
    rintro i k ⟨j, hj, hdescribes⟩ hopen
    exact ⟨j, hj.1.ownKey (hopen j hj), hdescribes⟩
  · intro hs
    refine htaken.imp ?_
    rintro i k ⟨j, hj, hdescribes⟩
    exact ⟨j, hj.1.ownKey (hj.1.inside_of_sideBySide hs), hdescribes⟩

/-- A key for a password that wraps nothing; such keys differ in their numbers of rounds. -/
def sampleKey (rounds : UInt32) : PasswordEncryptor :=
  ⟨sampleDescription, rounds, [0], [0], [0]⟩

/-- The attributes of a key for a certificate that wraps nothing. -/
def sampleCertificateValues : List (String × String) :=
  [("encryptedKeyValue", "AA=="), ("x509Certificate", "AA=="), ("certVerifier", "AA==")]

/-- A document with the given text in its `keyEncryptors`. -/
def encryptorsDocument (content : List Char) : List Char :=
  '<' :: ("encryption".toList
    ++ attributesText [("xmlns", encryptionNamespace), ("xmlns:p", passwordNamespace),
      ("xmlns:c", certificateNamespace)]
    ++ "><keyData".toList ++ attributesText (suiteValues sampleDescription)
    ++ "/><keyEncryptors>".toList ++ content ++ "</keyEncryptors></encryption".toList) ++ ['>']

/-- The same as events. -/
def encryptorsEvents (content : List Event) : List Event :=
  [.start ⟨⟨none, "encryption"⟩, [⟨⟨none, "xmlns"⟩, encryptionNamespace⟩,
      ⟨⟨some "xmlns", "p"⟩, passwordNamespace⟩, ⟨⟨some "xmlns", "c"⟩, certificateNamespace⟩]⟩,
    .empty sampleKeyData, .start encryptorsTag] ++ content ++ [.close, .close]

/-- The tag of a key encryptor, without its brackets. -/
def encryptorText (kind : String) : List Char :=
  "keyEncryptor".toList ++ attributesText [("uri", kind)]

def encryptorTag (kind : String) : Element :=
  ⟨⟨none, "keyEncryptor"⟩, [⟨⟨none, "uri"⟩, kind⟩]⟩

/-- The tag of a key. -/
def keyTag (qualifier : String) (values : List (String × String)) : Element :=
  ⟨⟨some qualifier, "encryptedKey"⟩, values.map fun v => ⟨⟨none, v.1⟩, v.2⟩⟩

/-- Two encryptors of different kinds side by side. -/
def pairDocument : List Char :=
  encryptorsDocument ('<' :: encryptorText passwordNamespace ++ "><p:encryptedKey".toList
    ++ attributesText (encryptorValues (sampleKey 1)) ++ "/></keyEncryptor><".toList
    ++ encryptorText certificateNamespace ++ "><c:encryptedKey".toList
    ++ attributesText sampleCertificateValues ++ "/></keyEncryptor>".toList)

def pairEvents : List Event :=
  encryptorsEvents [.start (encryptorTag passwordNamespace),
    .empty (keyTag "p" (encryptorValues (sampleKey 1))), .close,
    .start (encryptorTag certificateNamespace), .empty (keyTag "c" sampleCertificateValues), .close]

theorem hasEvents_pairDocument : HasEvents (utf8 pairDocument) pairEvents := by
  have hparts : (events pairDocument).items = pairEvents ∧ (events pairDocument).fault = none := by
    decide +kernel
  exact hasEvents_utf8 hparts.1 hparts.2

def pairDescriptor : Descriptor :=
  ⟨sampleDescription, none, [.password (sampleKey 1), .certificate ⟨[0], [0], [0]⟩]⟩

/-- Each of them has its key. -/
theorem keys_given_to_last_encryptor_pairDocument :
    ofBytes (utf8 pairDocument) = .ok pairDescriptor
      ∧ encryptorPlaces pairEvents = [3, 6] ∧ Attributed pairEvents pairDescriptor := by
  have hbytes : ofBytes (utf8 pairDocument) = .ok pairDescriptor := by
    rw [ofBytes_of_hasEvents hasEvents_pairDocument]
    decide +kernel
  have hplaces : encryptorPlaces pairEvents = [3, 6] := by decide +kernel
  have hside : SideBySide pairEvents := by
    intro i k hi hk
    have hi' := mem_encryptorPlaces.mpr hi
    have hk' := mem_encryptorPlaces.mpr hk
    rw [hplaces] at hi' hk'
    simp only [List.mem_cons, List.not_mem_nil, or_false] at hi' hk'
    rcases hi' with rfl | rfl <;> rcases hk' with rfl | rfl <;> decide
  obtain ⟨es, hes, -, -, hattributed⟩ := keys_given_to_last_encryptor hbytes
  obtain rfl := hes.unique hasEvents_pairDocument
  exact ⟨hbytes, hplaces, hattributed hside⟩

/-- An encryptor with a key, then in it an encryptor without content, and another key. -/
def nestedDocument : List Char :=
  encryptorsDocument ('<' :: encryptorText passwordNamespace ++ "><p:encryptedKey".toList
    ++ attributesText (encryptorValues (sampleKey 1)) ++ "/><".toList
    ++ encryptorText passwordNamespace ++ "/><p:encryptedKey".toList
    ++ attributesText (encryptorValues (sampleKey 2)) ++ "/></keyEncryptor>".toList)

def nestedEvents : List Event :=
  encryptorsEvents [.start (encryptorTag passwordNamespace),
    .empty (keyTag "p" (encryptorValues (sampleKey 1))),
    .empty (encryptorTag passwordNamespace),
    .empty (keyTag "p" (encryptorValues (sampleKey 2))), .close]

theorem hasEvents_nestedDocument : HasEvents (utf8 nestedDocument) nestedEvents := by
  have hparts : (events nestedDocument).items = nestedEvents
      ∧ (events nestedDocument).fault = none := by
    decide +kernel
  exact hasEvents_utf8 hparts.1 hparts.2

def nestedDescriptor : Descriptor :=
  ⟨sampleDescription, none, [.password (sampleKey 1), .password (sampleKey 2)]⟩

/-- The encryptor without content comes to the second key, which is in the other one. -/
theorem not_attributed_nestedDocument :
    HasEvents (utf8 nestedDocument) nestedEvents
      ∧ ofBytes (utf8 nestedDocument) = .ok nestedDescriptor
      ∧ encryptorPlaces nestedEvents = [3, 5] ∧ ¬ Attributed nestedEvents nestedDescriptor := by
  have hplaces : encryptorPlaces nestedEvents = [3, 5] := by decide +kernel
  refine ⟨hasEvents_nestedDocument, ?_, hplaces, ?_⟩
  · rw [ofBytes_of_hasEvents hasEvents_nestedDocument]
    decide +kernel
  · unfold Attributed
    rw [hplaces]
    rintro (_ | ⟨-, _ | ⟨⟨j, ⟨-, ⟨⟨e, he⟩, -⟩, -⟩, -⟩, -⟩⟩)
    -- An element without content has no key in it.
    cases he

end PageVault.Descriptor
