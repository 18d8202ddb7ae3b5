import Mathlib.Data.List.Basic
import PageVault.Proofs.Descriptor.BinaryValue
import PageVault.Proofs.Text.UpperCase

/-!
# Names of algorithms

Producers of descriptors write the names of digests, ciphers and chaining modes in many ways:
`SHA-512`, `sha512`, or `SHA_512` with blanks around it.  What a name stands for depends on its
letters and digits alone, in upper case; they are called its *stem*.  A normal form is a stem,
with an underscore in front of it if it begins with a digit.  The underscore is a separator
itself, so a normal form has the stem that it was made of and is not changed by being brought
to normal form again.

Normal forms show their stems, so no two names are taken for each other by mistake: `3DES` and
`3DES_112` differ, however they are written.

§1 characters · §2 names as they are written · §3 normal forms · §4 lookups ·
§5 names and stems.
-/

namespace PageVault

/-! ## §1  Characters -/

namespace Text

variable {before core after : List Char}

theorem dropWhile_of_forall_not {p : Char → Bool} (h : ∀ c ∈ core, p c = false) :
    core.dropWhile p = core := by
  cases core with
  | nil => rfl
  | cons c core =>
      have hc : p c = false := h c List.mem_cons_self
      exact List.dropWhile_cons_of_neg (by rw [hc]; nofun)

/-- White space around a text without any is what is trimmed. -/
theorem trimChars_surrounded (hb : ∀ c ∈ before, isBlank c = true)
    (hc : ∀ c ∈ core, isBlank c = false) (ha : ∀ c ∈ after, isBlank c = true) :
    trimChars (before ++ (core ++ after)) = core := by
  cases core with
  | nil =>
      refine trimChars_of_forall_isBlank fun c hmem => ?_
      rcases List.mem_append.mp hmem with hmem | hmem
      · exact hb c hmem
      · exact ha c hmem
  | cons c core =>
      have hfront : (before ++ (c :: core ++ after)).dropWhile isBlank = c :: core ++ after := by
        rw [List.dropWhile_append_of_pos hb, List.cons_append]
        exact List.dropWhile_cons_of_neg (by rw [hc c List.mem_cons_self]; nofun)
      have hback : ((c :: core ++ after).reverse).dropWhile isBlank = (c :: core).reverse := by
        rw [List.reverse_append,
          List.dropWhile_append_of_pos fun c hmem => ha c (List.mem_reverse.mp hmem)]
        exact dropWhile_of_forall_not fun c hmem => hc c (List.mem_reverse.mp hmem)
      rw [trimChars, hfront, hback, List.reverse_reverse]

theorem upperChars_of_ascii (h : ∀ c ∈ core, c.toNat < 128) :
    upperChars core = core.map Char.toUpper := by
  induction core with
  | nil => rfl
  | cons c core ih =>
      rw [List.forall_mem_cons] at h
      rw [upperChars, List.flatMap_cons, upperChar_of_ascii h.1, ← upperChars, ih h.2]
      rfl

end Text

/-! ## §2  Names as they are written -/

namespace AlgorithmName

/-- The ASCII letters and digits, and the two separators. -/
def isSymbol (c : Char) : Bool :=
  c.toNat < 128 && (c.isAlphanum || c == '-' || c == '_')

/-- A name as it is written: white space, then letters, digits and separators in any order,
then white space. -/
structure Written (name : String) (core : List Char) : Prop where
  symbols : ∀ c ∈ core, isSymbol c = true
  surrounded : ∃ before after, name.toList = before ++ (core ++ after)
    ∧ (∀ c ∈ before, Text.isBlank c = true) ∧ ∀ c ∈ after, Text.isBlank c = true

/-- The letters and digits, in order and in upper case. -/
def stem (core : List Char) : List Char :=
  (core.filter Char.isAlphanum).map Char.toUpper

/-- A stem with an underscore in front of it exactly if it begins with a digit. -/
def marked (s : List Char) : List Char :=
  if s.head?.any Char.isDigit then '_' :: s else s

/-! ## §3  Normal forms -/

variable {name name' : String} {core core' : List Char} {c : Char}

theorem toNat_lt_of_isSymbol (h : isSymbol c = true) : c.toNat < 128 := by
  rw [isSymbol, Bool.and_eq_true] at h
  exact of_decide_eq_true h.1

theorem isBlank_of_isSymbol (h : isSymbol c = true) : Text.isBlank c = false :=
  Text.forall_ascii (P := fun c => isSymbol c = true → Text.isBlank c = false) (by decide)
    (toNat_lt_of_isSymbol h) h

theorem isAlphanum_of_isSymbol (h : isSymbol c = true) :
    (!(c == '-' || c == '_')) = c.isAlphanum :=
  Text.forall_ascii (P := fun c => isSymbol c = true → (!(c == '-' || c == '_')) = c.isAlphanum)
    (by decide) (toNat_lt_of_isSymbol h) h

theorem upper_of_isSymbol (h : isSymbol c = true) (ha : c.isAlphanum = true) :
    isSymbol c.toUpper = true ∧ c.toUpper.isAlphanum = true ∧ c.toUpper.toUpper = c.toUpper :=
  Text.forall_ascii (P := fun c => isSymbol c = true → c.isAlphanum = true →
      isSymbol c.toUpper = true ∧ c.toUpper.isAlphanum = true ∧ c.toUpper.toUpper = c.toUpper)
    (by decide) (toNat_lt_of_isSymbol h) h ha

theorem nameKey_eq (h : Written name core) : nameKey name.toList = marked (stem core) := by
  obtain ⟨before, after, hname, hbefore, hafter⟩ := h.surrounded
  have htrim : Text.trimChars name.toList = core := by
    rw [hname]
    exact Text.trimChars_surrounded hbefore (fun c hc => isBlank_of_isSymbol (h.symbols c hc)) hafter
  have hfilter : (core.filter fun c => !(c == '-' || c == '_')) = core.filter Char.isAlphanum :=
    List.filter_congr fun c hc => isAlphanum_of_isSymbol (h.symbols c hc)
  have hupper : Text.upperChars (core.filter Char.isAlphanum) = stem core :=
    Text.upperChars_of_ascii fun c hc =>
      toNat_lt_of_isSymbol (h.symbols c (List.mem_of_mem_filter hc))
  unfold nameKey
  dsimp only
  rw [htrim, hfilter, hupper, marked]
  cases stem core with
  | nil => rfl
  | cons c cs => rfl

theorem normalizedName_eq (h : Written name core) :
    normalizedName name = String.ofList (marked (stem core)) := by
  rw [normalizedName, nameKey_eq h]

/-- A letter or digit of a stem. -/
theorem of_mem_stem (h : ∀ c ∈ core, isSymbol c = true) (hc : c ∈ stem core) :
    isSymbol c = true ∧ c.isAlphanum = true ∧ c.toUpper = c := by
  obtain ⟨d, hd, rfl⟩ := List.mem_map.mp hc
  obtain ⟨hmem, halnum⟩ := List.mem_filter.mp hd
  exact upper_of_isSymbol (h d hmem) halnum

theorem stem_of_forall (h : ∀ c ∈ core, c.isAlphanum = true ∧ c.toUpper = c) :
    stem core = core := by
  have hmap : core.map Char.toUpper = core.map id :=
    List.map_congr_left fun c hc => (h c hc).2
  rw [stem, List.filter_eq_self.mpr fun c hc => (h c hc).1, hmap, List.map_id]

/-- The mark of a stem is a separator. -/
theorem stem_marked (s : List Char) : stem (marked s) = stem s := by
  unfold marked
  split
  · rfl
  · rfl

theorem stem_marked_stem (h : ∀ c ∈ core, isSymbol c = true) :
    stem (marked (stem core)) = stem core := by
  rw [stem_marked]
  exact stem_of_forall fun c hc => (of_mem_stem h hc).2

/-- **Normal forms show their stems.** -/
theorem marked_stem_inj (h : ∀ c ∈ core, isSymbol c = true) (h' : ∀ c ∈ core', isSymbol c = true) :
    marked (stem core) = marked (stem core') ↔ stem core = stem core' := by
  constructor
  · intro heq
    rw [← stem_marked_stem h, heq, stem_marked_stem h']
  · exact congrArg marked

/-- A normal form is a way to write its name. -/
theorem written_normalizedName (h : Written name core) :
    Written (normalizedName name) (marked (stem core)) := by
  constructor
  · intro c hc
    unfold marked at hc
    split at hc
    · rcases List.mem_cons.mp hc with rfl | hc
      · decide
      · exact (of_mem_stem h.symbols hc).1
    · exact (of_mem_stem h.symbols hc).1
  · refine ⟨[], [], ?_, nofun, nofun⟩
    rw [normalizedName_eq h, String.toList_ofList, List.nil_append, List.append_nil]

/-! ## §4  Lookups -/

section

variable {α : Type} {resolve : String → Except Error α} {key : α → String}

/-- A lookup that goes by normal forms: an algorithm is found under its key, and a name whose
normal form is no key is refused. -/
structure ByNormalForm (resolve : String → Except Error α) (key : α → String) : Prop where
  ok_iff : ∀ name a, resolve name = .ok a ↔ normalizedName name = key a
  refused : ∀ name, (∀ a, normalizedName name ≠ key a) →
    resolve name = .error (.configuration (.unknownName name))

theorem find?_key_eq_some_iff {all : List α} (hall : ∀ a, a ∈ all)
    (hkey : ∀ a ∈ all, ∀ b ∈ all, key a = key b → a = b) {form : String} {a : α} :
    all.find? (fun a => key a == form) = some a ↔ form = key a := by
  constructor
  · intro h
    have hform := List.find?_some h
    exact (beq_iff_eq.mp hform).symm
  · rintro rfl
    have hsome : (all.find? fun b => key b == key a).isSome = true :=
      List.find?_isSome.mpr ⟨a, hall a, beq_self_eq_true _⟩
    obtain ⟨b, hb⟩ := Option.isSome_iff_exists.mp hsome
    have hform := List.find?_some hb
    rw [hb, hkey b (hall b) a (hall a) (beq_iff_eq.mp hform)]

/-- Searching a list of all algorithms with different keys. -/
theorem byNormalForm_of_find? {all : List α} (hall : ∀ a, a ∈ all)
    (hkey : ∀ a ∈ all, ∀ b ∈ all, key a = key b → a = b)
    (hresolve : ∀ name, resolve name
      = match all.find? fun a => key a == normalizedName name with
        | some a => .ok a
        | none => .error (.configuration (.unknownName name))) :
    ByNormalForm resolve key := by
  constructor
  · intro name a
    rw [← find?_key_eq_some_iff hall hkey, hresolve]
    cases all.find? fun a => key a == normalizedName name with
    | none => simp
    | some b => simp
  · intro name hnone
    have hfind : (all.find? fun a => key a == normalizedName name) = none :=
      List.find?_eq_none.mpr fun a _ h => hnone a (beq_iff_eq.mp h).symm
    rw [hresolve, hfind]

/-- Two names have the same algorithm, or neither of them has one. -/
def Alike (resolve : String → Except Error α) (name name' : String) : Prop :=
  (∃ a, resolve name = .ok a ∧ resolve name' = .ok a)
    ∨ resolve name = .error (.configuration (.unknownName name))
      ∧ resolve name' = .error (.configuration (.unknownName name'))

theorem ByNormalForm.alike (hb : ByNormalForm resolve key)
    (h : normalizedName name = normalizedName name') : Alike resolve name name' := by
  by_cases hsome : ∃ a, normalizedName name = key a
  · obtain ⟨a, ha⟩ := hsome
    exact Or.inl ⟨a, (hb.ok_iff name a).mpr ha, (hb.ok_iff name' a).mpr (h ▸ ha)⟩
  · have hnone : ∀ a, normalizedName name ≠ key a := fun a ha => hsome ⟨a, ha⟩
    exact Or.inr ⟨hb.refused name hnone, hb.refused name' fun a ha => hnone a (h.trans ha)⟩

/-- The text is a normal form. -/
def IsNormal (form : String) : Prop :=
  form.toList.all isSymbol = true ∧ marked (stem form.toList) = form.toList

instance (form : String) : Decidable (IsNormal form) :=
  inferInstanceAs (Decidable (_ ∧ _))

/-- An algorithm is found under the names that have the stem of its key. -/
theorem ByNormalForm.ok_iff_stem (hb : ByNormalForm resolve key)
    (hkey : ∀ a, IsNormal (key a)) (h : Written name core) (a : α) :
    resolve name = .ok a ↔ stem core = stem (key a).toList := by
  obtain ⟨hsymbols, hnormal⟩ := hkey a
  rw [hb.ok_iff, normalizedName_eq h, ← marked_stem_inj h.symbols (List.all_eq_true.mp hsymbols),
    hnormal, ← String.toList_inj, String.toList_ofList]

end

theorem hash_byNormalForm : ByNormalForm HashAlgorithm.resolve HashAlgorithm.key := by
  refine byNormalForm_of_find? HashAlgorithm.mem_all (by decide) fun name => ?_
  unfold HashAlgorithm.resolve HashAlgorithm.named?
  cases HashAlgorithm.all.find? fun a => a.key == normalizedName name <;> rfl

theorem cipher_byNormalForm : ByNormalForm CipherAlgorithm.resolve CipherAlgorithm.key := by
  refine byNormalForm_of_find? CipherAlgorithm.mem_all (by decide) fun name => ?_
  unfold CipherAlgorithm.resolve CipherAlgorithm.named?
  cases CipherAlgorithm.all.find? fun a => a.key == normalizedName name <;> rfl

theorem chaining_byNormalForm : ByNormalForm ChainingMode.resolve ChainingMode.key := by
  refine byNormalForm_of_find? ChainingMode.mem_all (by decide) fun name => ?_
  unfold ChainingMode.resolve ChainingMode.named?
  cases ChainingMode.all.find? fun a => a.key == normalizedName name <;> rfl

theorem hash_isNormal (a : HashAlgorithm) : IsNormal a.key := by
  cases a <;> decide

theorem cipher_isNormal (a : CipherAlgorithm) : IsNormal a.key := by
  cases a <;> decide

theorem chaining_isNormal (a : ChainingMode) : IsNormal a.key := by
  cases a <;> decide

/-! ## §5  Names and stems -/

/-- **A name is known by its stem**, whatever white space is around it, whatever separators it
has and whatever the case of its letters is.  Its normal form is the stem, marked if it begins
with a digit, and is its own normal form.  Names with the same stem, and only these, have the
same normal form.  In each of the three lookups they stand for the same algorithm, the one
whose key has their stem, or are refused alike as unknown. -/
theorem known_by_stem (h : Written name core) (h' : Written name' core') :
    normalizedName name = String.ofList (marked (stem core))
      ∧ normalizedName (normalizedName name) = normalizedName name
      ∧ (normalizedName name = normalizedName name' ↔ stem core = stem core')
      ∧ (stem core = stem core' →
        Alike HashAlgorithm.resolve name name'
          ∧ Alike CipherAlgorithm.resolve name name'
          ∧ Alike ChainingMode.resolve name name')
      ∧ (∀ a, HashAlgorithm.resolve name = .ok a ↔ stem core = stem a.key.toList)
      ∧ (∀ a, CipherAlgorithm.resolve name = .ok a ↔ stem core = stem a.key.toList)
      ∧ ∀ a, ChainingMode.resolve name = .ok a ↔ stem core = stem a.key.toList := by
  have hforms : normalizedName name = normalizedName name' ↔ stem core = stem core' := by
    rw [normalizedName_eq h, normalizedName_eq h', String.ofList_inj,
      marked_stem_inj h.symbols h'.symbols]
  refine ⟨normalizedName_eq h, ?_, hforms, ?_, hash_byNormalForm.ok_iff_stem hash_isNormal h,
    cipher_byNormalForm.ok_iff_stem cipher_isNormal h,
    chaining_byNormalForm.ok_iff_stem chaining_isNormal h⟩
  · rw [normalizedName_eq (written_normalizedName h), stem_marked_stem h.symbols,
      ← normalizedName_eq h]
  · intro hstem
    have hform := hforms.mpr hstem
    exact ⟨hash_byNormalForm.alike hform, cipher_byNormalForm.alike hform,
      chaining_byNormalForm.alike hform⟩

/-- Two ways to write the name of triple DES with two keys. -/
theorem known_by_stem_tripleDes112 :
    Written " 3des_112\u3000" "3des_112".toList
      ∧ Written "--3DES1_12" "--3DES1_12".toList
      ∧ normalizedName " 3des_112\u3000" = "_3DES112"
      ∧ normalizedName "--3DES1_12" = "_3DES112"
      ∧ normalizedName "_3DES112" = "_3DES112"
      ∧ Alike HashAlgorithm.resolve " 3des_112\u3000" "--3DES1_12"
      ∧ CipherAlgorithm.resolve " 3des_112\u3000" = .ok .tripleDes112
      ∧ CipherAlgorithm.resolve " 3des_112\u3000" ≠ .ok .tripleDes := by
  have h : Written " 3des_112\u3000" "3des_112".toList :=
    ⟨List.all_eq_true.mp (by decide), [' '], ['\u3000'], by decide,
      List.forall_mem_singleton.mpr (by decide), List.forall_mem_singleton.mpr (by decide)⟩
  have h' : Written "--3DES1_12" "--3DES1_12".toList :=
    ⟨List.all_eq_true.mp (by decide), [], [], by decide, nofun, nofun⟩
  obtain ⟨hform, hidem, hsame, hlookups, -, hcipher, -⟩ := known_by_stem h h'
  have hform : normalizedName " 3des_112\u3000" = "_3DES112" := hform.trans (by decide)
  have hstems : stem "3des_112".toList = stem "--3DES1_12".toList := by decide
  refine ⟨h, h', hform, ?_, ?_, (hlookups hstems).1, (hcipher _).mpr (by decide), fun hok => ?_⟩
  · rw [← hsame.mpr hstems, hform]
  · rw [hform] at hidem
    exact hidem
  · exact absurd ((hcipher _).mp hok) (by decide)

end AlgorithmName

end PageVault
