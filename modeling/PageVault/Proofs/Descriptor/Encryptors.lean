import PageVault.Proofs.Descriptor.Place
import PageVault.Proofs.Descriptor.Scoping

/-!
# What is kept of key encryptors

A walk keeps, of every key encryptor, its kind and the attributes of one key of each kind.  It
does not look for the encryptor around a key: it notes whether it is in the first
`keyEncryptors` and whether it is in any `keyEncryptor`, and a key goes to the encryptor that
began last (`GivenTo`).

Said by places in the document: what a walk has kept behind any events are the encryptors of
these events in order, each with the first key of each kind that was given to it
(`Kept.of_run`).  One event keeps this true (`Kept.step`).

§1 one element · §2 encryptors and their keys · §3 what is kept.
-/

namespace PageVault.Descriptor

open Markup

/-! ## §1  One element -/

/-- An element of the descriptor's own namespace. -/
def Resolved.IsOwn (e : Resolved) (name : String) : Prop :=
  e.uri = encryptionNamespace ∧ e.localName = name

instance (e : Resolved) (name : String) : Decidable (e.IsOwn name) :=
  inferInstanceAs (Decidable (_ ∧ _))

/-- An encryptor with one more key, unless it has one of that kind. -/
def OpenEncryptor.add (k : OpenEncryptor) (uri : String) (entries : Entries) : OpenEncryptor where
  uri := k.uri
  password := k.password.or (if uri = passwordNamespace then some entries else none)
  certificate := k.certificate.or (if uri = certificateNamespace then some entries else none)

namespace Gathered

variable {g g' : Gathered} {opened : List Region} {region : Region} {e : Resolved}

theorem keyEncryptors_addEncryptedKey {latest : OpenEncryptor} {earlier : List OpenEncryptor}
    (h : g.keyEncryptors = latest :: earlier) (uri : String) (entries : Entries) :
    (g.addEncryptedKey uri entries).keyEncryptors = latest.add uri entries :: earlier := by
  have hne : passwordNamespace ≠ certificateNamespace := by decide
  obtain ⟨kind, password, certificate⟩ := latest
  unfold addEncryptedKey OpenEncryptor.add
  rw [h]
  dsimp only
  by_cases hp : uri = passwordNamespace
  · cases password <;> simp [hp, hne, h]
  · by_cases hc : uri = certificateNamespace
    · cases certificate <;> simp [hc, hne.symm, h]
    · simp [hp, hc, h]

theorem sawKeyEncryptors_addEncryptedKey (g : Gathered) (uri : String) (entries : Entries) :
    (g.addEncryptedKey uri entries).sawKeyEncryptors = g.sawKeyEncryptors := by
  unfold addEncryptedKey
  split
  · rfl
  · split
    · rfl
    · split <;> rfl

/-- The descriptor's own namespace is none of the kinds of keys. -/
theorem addEncryptedKey_encryptionNamespace (g : Gathered) (entries : Entries) :
    g.addEncryptedKey encryptionNamespace entries = g := by
  have hp : encryptionNamespace ≠ passwordNamespace := by decide
  have hc : encryptionNamespace ≠ certificateNamespace := by decide
  unfold addEncryptedKey
  split
  · rfl
  · rw [if_neg (fun h => hp h.1), if_neg (fun h => hc h.1)]

/-- What an element does as far as key encryptors go. -/
theorem of_visit (h : g.visit opened e = .ok (g', region)) :
    (g'.sawKeyEncryptors = true ↔ g.sawKeyEncryptors = true ∨ e.IsOwn "keyEncryptors")
    ∧ region = (if e.IsOwn "keyEncryptors" ∧ g.sawKeyEncryptors = false then .keyEncryptors
        else if e.IsOwn "keyEncryptor" ∧ .keyEncryptors ∈ opened then .keyEncryptor else .other)
    ∧ g'.keyEncryptors = (if e.IsOwn "keyEncryptor" ∧ .keyEncryptors ∈ opened then
          ⟨Entries.get? ⟨"keyEncryptor", e.values⟩ "uri", none, none⟩ :: g.keyEncryptors
        else if e.localName = "encryptedKey" ∧ .keyEncryptor ∈ opened then
          (g.addEncryptedKey e.uri ⟨"encryptedKey", e.values⟩).keyEncryptors
        else g.keyEncryptors) := by
  unfold visit at h
  unfold Resolved.IsOwn
  split at h
  · -- A root is none of these elements.
    split at h
    · rename_i hroot
      cases h
      simp [hroot.1]
    · cases h
  · split at h
    · rename_i huri
      have hr : g.visitOwn opened e = (g', region) := Except.ok.inj h
      unfold visitOwn at hr
      split at hr
      · rename_i hname
        cases hr
        simp [hname.1]
      · split at hr
        · rename_i hname
          cases hr
          simp [hname.1]
        · split at hr
          · rename_i hname
            cases hr
            simp [huri, hname]
          · split at hr
            · rename_i hname
              cases hr
              simp [huri, hname]
            · rename_i hseen hout
              cases hr
              refine ⟨?_, ?_, ?_⟩
              · simpa [huri] using hseen
              · simp [huri, hout, hseen]
              · by_cases hkey : e.localName = "encryptedKey" ∧ .keyEncryptor ∈ opened
                · simp [huri, hkey, addEncryptedKey_encryptionNamespace]
                · simp [huri, hout, hkey]
    · rename_i huri
      cases h
      unfold visitForeign
      by_cases hkey : e.localName = "encryptedKey" ∧ .keyEncryptor ∈ opened
      · simp [huri, hkey, sawKeyEncryptors_addEncryptedKey]
      · simp [huri, hkey]

end Gathered

/-! ## §2  Encryptors and their keys -/

variable {es : List Event} {x : Event} {uri : String} {i j : Nat}

/-- The first `keyEncryptors` element of a document. -/
def FirstEncryptors (es : List Event) (r : Nat) : Prop :=
  NamedAt es encryptionNamespace "keyEncryptors" r
    ∧ ∀ i < r, ¬ NamedAt es encryptionNamespace "keyEncryptors" i

instance (es : List Event) (r : Nat) : Decidable (FirstEncryptors es r) :=
  inferInstanceAs (Decidable (_ ∧ _))

/-- A `keyEncryptor` element inside it. -/
def EncryptorAt (es : List Event) (i : Nat) : Prop :=
  NamedAt es encryptionNamespace "keyEncryptor" i
    ∧ ∃ r, r < i ∧ FirstEncryptors es r ∧ Inside es r i

instance (es : List Event) (i : Nat) : Decidable (EncryptorAt es i) :=
  inferInstanceAs (Decidable (_ ∧ _))

/-- The places of these, in the order of the document. -/
def encryptorPlaces (es : List Event) : List Nat :=
  (List.range es.length).filter fun i => EncryptorAt es i

/-- Some encryptor is open at the place. -/
def EncryptorOpen (es : List Event) (j : Nat) : Prop :=
  ∃ k, k < j ∧ EncryptorAt es k ∧ Inside es k j

instance (es : List Event) (j : Nat) : Decidable (EncryptorOpen es j) :=
  inferInstanceAs (Decidable (∃ k, k < j ∧ EncryptorAt es k ∧ Inside es k j))

/-- The key is given to the encryptor: some encryptor is open, and this one began last. -/
def GivenTo (es : List Event) (uri : String) (i j : Nat) : Prop :=
  NamedAt es uri "encryptedKey" j ∧ EncryptorOpen es j
    ∧ EncryptorAt es i ∧ i < j ∧ ∀ k < j, EncryptorAt es k → k ≤ i

instance (es : List Event) (uri : String) (i j : Nat) : Decidable (GivenTo es uri i j) :=
  inferInstanceAs (Decidable (_ ∧ _))

/-- The first key in a namespace that is given to the encryptor. -/
def FirstGiven (es : List Event) (uri : String) (i j : Nat) : Prop :=
  GivenTo es uri i j ∧ ∀ k < j, ¬ GivenTo es uri i k

theorem EncryptorAt.lt_length (h : EncryptorAt es i) : i < es.length :=
  h.1.lt_length

theorem mem_encryptorPlaces : i ∈ encryptorPlaces es ↔ EncryptorAt es i := by
  rw [encryptorPlaces, List.mem_filter, List.mem_range, decide_eq_true_iff]
  exact and_iff_right_of_imp EncryptorAt.lt_length

theorem pairwise_encryptorPlaces (es : List Event) : (encryptorPlaces es).Pairwise (· < ·) :=
  List.pairwise_lt_range.filter _

/-- In a list of all encryptors the last one began last. -/
theorem isLast_of_encryptorPlaces {earlier : List Nat} {last : Nat}
    (h : encryptorPlaces es = earlier ++ [last]) :
    EncryptorAt es last ∧ ∀ k, EncryptorAt es k → k ≤ last ∧ (k ∈ earlier → k < last) := by
  have hmem : ∀ k, EncryptorAt es k ↔ k ∈ earlier ∨ k = last := by
    intro k
    rw [← mem_encryptorPlaces, h, List.mem_append, List.mem_singleton]
  have hlt : ∀ k ∈ earlier, k < last := by
    intro k hk
    have hsorted := pairwise_encryptorPlaces es
    rw [h] at hsorted
    exact (List.pairwise_append.mp hsorted).2.2 k hk last List.mem_cons_self
  refine ⟨(hmem last).mpr (Or.inr rfl), fun k hk => ⟨?_, hlt k⟩⟩
  rcases (hmem k).mp hk with hk | rfl
  · exact Nat.le_of_lt (hlt k hk)
  · exact Nat.le_refl _

/-! What is said of a place does not change when more is read. -/

theorem firstEncryptors_append (h : i < es.length) (fs : List Event) :
    FirstEncryptors (es ++ fs) i ↔ FirstEncryptors es i := by
  unfold FirstEncryptors
  rw [namedAt_append h]
  refine and_congr_right fun _ => forall₂_congr fun k hk => ?_
  rw [namedAt_append (Nat.lt_trans hk h)]

theorem encryptorAt_append (h : i < es.length) (fs : List Event) :
    EncryptorAt (es ++ fs) i ↔ EncryptorAt es i := by
  unfold EncryptorAt
  rw [namedAt_append h]
  refine and_congr_right fun _ => exists_congr fun r => and_congr_right fun hr => ?_
  rw [firstEncryptors_append (Nat.lt_trans hr h), inside_append (Nat.le_of_lt h)]

theorem encryptorOpen_append (h : j ≤ es.length) (fs : List Event) :
    EncryptorOpen (es ++ fs) j ↔ EncryptorOpen es j := by
  refine exists_congr fun k => and_congr_right fun hk => ?_
  rw [encryptorAt_append (Nat.lt_of_lt_of_le hk h), inside_append h]

theorem givenTo_append (h : j < es.length) (fs : List Event) :
    GivenTo (es ++ fs) uri i j ↔ GivenTo es uri i j := by
  have hlast : (∀ k < j, EncryptorAt (es ++ fs) k → k ≤ i) ↔ ∀ k < j, EncryptorAt es k → k ≤ i :=
    forall₂_congr fun k hk => by rw [encryptorAt_append (Nat.lt_trans hk h)]
  unfold GivenTo
  rw [namedAt_append h, encryptorOpen_append (Nat.le_of_lt h), hlast]
  refine and_congr_right fun _ => and_congr_right fun _ => ?_
  constructor
  · rintro ⟨hi, hij, hk⟩
    exact ⟨(encryptorAt_append (Nat.lt_trans hij h) fs).mp hi, hij, hk⟩
  · rintro ⟨hi, hij, hk⟩
    exact ⟨(encryptorAt_append (Nat.lt_trans hij h) fs).mpr hi, hij, hk⟩

theorem encryptorPlaces_append_singleton (es : List Event) (x : Event) :
    encryptorPlaces (es ++ [x])
      = encryptorPlaces es ++ if EncryptorAt (es ++ [x]) es.length then [es.length] else [] := by
  unfold encryptorPlaces
  rw [List.length_append, List.length_singleton, List.range_succ, List.filter_append]
  congr 1
  · refine List.filter_congr fun i hi => ?_
    rw [decide_eq_decide, encryptorAt_append (List.mem_range.mp hi)]
  · by_cases h : EncryptorAt (es ++ [x]) es.length <;> simp [h]

/-! ## §3  What is kept -/

/-- The first key in a namespace that is given to the encryptor, if there is one. -/
def firstKey (es : List Event) (uri : String) (i : Nat) : Option Nat :=
  (List.range es.length).find? fun j => GivenTo es uri i j

/-- The attributes of a key. -/
def keyAt (es : List Event) (j : Nat) : Option Entries :=
  (meaningAt es j).map fun m => ⟨"encryptedKey", m.values⟩

/-- An encryptor with the first key of each kind that is given to it. -/
def described (es : List Event) (i : Nat) : OpenEncryptor where
  uri := (meaningAt es i).bind fun m => Entries.get? ⟨"keyEncryptor", m.values⟩ "uri"
  password := (firstKey es passwordNamespace i).bind (keyAt es)
  certificate := (firstKey es certificateNamespace i).bind (keyAt es)

theorem firstKey_append_singleton (es : List Event) (x : Event) (uri : String) (i : Nat) :
    firstKey (es ++ [x]) uri i
      = (firstKey es uri i).or
          (if GivenTo (es ++ [x]) uri i es.length then some es.length else none) := by
  have hold : (List.range es.length).find? (fun j => GivenTo (es ++ [x]) uri i j)
      = firstKey es uri i := by
    rw [firstKey, ← List.head?_filter, ← List.head?_filter]
    refine congrArg List.head? (List.filter_congr fun j hj => ?_)
    rw [decide_eq_decide, givenTo_append (List.mem_range.mp hj)]
  unfold firstKey at hold ⊢
  rw [List.length_append, List.length_singleton, List.range_succ, List.find?_append, hold]
  by_cases h : GivenTo (es ++ [x]) uri i es.length <;> simp [h]

theorem firstKey_eq_some_iff : firstKey es uri i = some j ↔ FirstGiven es uri i j := by
  rw [firstKey, List.find?_range_eq_some, FirstGiven]
  simp only [decide_eq_true_iff, List.mem_range, Bool.not_eq_eq_eq_not, Bool.not_true,
    decide_eq_false_iff_not]
  constructor
  · rintro ⟨hj, -, hfirst⟩
    exact ⟨hj, hfirst⟩
  · rintro ⟨hj, hfirst⟩
    exact ⟨hj, hj.1.lt_length, hfirst⟩

/-- The first key of a kind, as it is kept, with one more event read. -/
theorem bind_firstKey_append_singleton (es : List Event) (x : Event) (uri : String) (i : Nat) :
    (firstKey (es ++ [x]) uri i).bind (keyAt (es ++ [x]))
      = ((firstKey es uri i).bind (keyAt es)).or
          (if GivenTo (es ++ [x]) uri i es.length then keyAt (es ++ [x]) es.length else none) := by
  rw [firstKey_append_singleton]
  cases hfirst : firstKey es uri i with
  | some j =>
      obtain ⟨⟨m, hm, -⟩, -⟩ := (firstKey_eq_some_iff.mp hfirst).1
      have hlt := (firstKey_eq_some_iff.mp hfirst).1.1.lt_length
      have hkey : keyAt (es ++ [x]) j = keyAt es j := by
        rw [keyAt, meaningAt_append hlt, keyAt]
      have hsome : keyAt es j = some ⟨"encryptedKey", m.values⟩ := by
        rw [keyAt, Option.mem_def.mp hm]
        rfl
      simp [hkey, hsome]
  | none =>
      by_cases h : GivenTo (es ++ [x]) uri i es.length <;> simp [h]

/-- An encryptor takes a key if the key is given to it, unless it has one of that kind. -/
theorem described_append_singleton {m : Meaning} (hi : i < es.length)
    (hm : meaningAt (es ++ [x]) es.length = some m) :
    described (es ++ [x]) i
      = if GivenTo (es ++ [x]) m.uri i es.length then
          (described es i).add m.uri ⟨"encryptedKey", m.values⟩
        else described es i := by
  have hgiven : ∀ {uri}, GivenTo (es ++ [x]) uri i es.length → uri = m.uri := by
    rintro uri ⟨⟨m', hm', huri, -⟩, -⟩
    rw [hm] at hm'
    cases hm'
    exact huri.symm
  have hkey : keyAt (es ++ [x]) es.length = some ⟨"encryptedKey", m.values⟩ := by
    rw [keyAt, hm]
    rfl
  unfold described OpenEncryptor.add
  rw [meaningAt_append hi, bind_firstKey_append_singleton, bind_firstKey_append_singleton, hkey]
  by_cases h : GivenTo (es ++ [x]) m.uri i es.length
  · have hiff : ∀ uri, GivenTo (es ++ [x]) uri i es.length ↔ m.uri = uri := by
      intro uri
      exact ⟨fun hg => (hgiven hg).symm, fun hu => hu ▸ h⟩
    rw [if_pos h]
    simp only [hiff]
  · have hnot : ∀ uri, ¬ GivenTo (es ++ [x]) uri i es.length := by
      intro uri hg
      exact h (hgiven hg ▸ hg)
    rw [if_neg h, if_neg (hnot _), if_neg (hnot _), Option.or_none, Option.or_none]

/-- Nothing changes for an encryptor that no key is given to. -/
theorem described_append_of_not_givenTo (hi : i < es.length)
    (h : ∀ uri, ¬ GivenTo (es ++ [x]) uri i es.length) :
    described (es ++ [x]) i = described es i := by
  unfold described
  rw [meaningAt_append hi, bind_firstKey_append_singleton, bind_firstKey_append_singleton,
    if_neg (h _), if_neg (h _), Option.or_none, Option.or_none]

/-- What the element at a place means for the elements in it. -/
def regionAt (es : List Event) (i : Nat) : Region :=
  if FirstEncryptors es i then .keyEncryptors
  else if EncryptorAt es i then .keyEncryptor
  else .other

theorem regionAt_append (h : i < es.length) (fs : List Event) :
    regionAt (es ++ fs) i = regionAt es i := by
  unfold regionAt
  simp only [firstEncryptors_append h, encryptorAt_append h]

theorem regionAt_eq_keyEncryptors_iff : regionAt es i = .keyEncryptors ↔ FirstEncryptors es i := by
  unfold regionAt
  split
  · simp [*]
  · split <;> simp [*]

theorem regionAt_eq_keyEncryptor_iff : regionAt es i = .keyEncryptor ↔ EncryptorAt es i := by
  have hne : EncryptorAt es i → ¬ FirstEncryptors es i := by
    intro he hf
    exact absurd (he.1.unique hf.1).2 (by decide)
  unfold regionAt
  split
  · rename_i hf
    exact iff_of_false nofun fun he => hne he hf
  · split <;> simp [*]

/-- How far a walk is behind events: it holds the scopes and the regions of the open elements,
and of the encryptors what was described of them. -/
structure Kept (es : List Event) (w : Walk) : Prop where
  scopes_eq : w.scopes = Scopes.after [] es
  opened_eq : w.opened = (openPlaces es).map (regionAt es)
  saw_iff : w.gathered.sawKeyEncryptors = true
    ↔ ∃ i, NamedAt es encryptionNamespace "keyEncryptors" i
  keyEncryptors_eq :
    w.gathered.keyEncryptors = ((encryptorPlaces es).map (described es)).reverse

namespace Kept

variable {w w' : Walk}

theorem nothing : Kept [] .start :=
  ⟨rfl, rfl, by simp [Walk.start, Gathered.nothing, NamedAt, meaningAt], rfl⟩

/-- The walk is in the first `keyEncryptors` if that is open. -/
theorem keyEncryptors_mem_iff (h : Kept es w) :
    .keyEncryptors ∈ w.opened
      ↔ ∃ r, r < es.length ∧ FirstEncryptors es r ∧ Inside es r es.length := by
  rw [h.opened_eq, List.mem_map]
  refine exists_congr fun r => ?_
  rw [mem_openPlaces_iff, regionAt_eq_keyEncryptors_iff]
  exact ⟨fun ⟨hi, hf⟩ => ⟨hi.lt, hf, hi⟩, fun ⟨_, hf, hi⟩ => ⟨hi, hf⟩⟩

/-- The walk is in an encryptor if one is open. -/
theorem keyEncryptor_mem_iff (h : Kept es w) :
    .keyEncryptor ∈ w.opened ↔ EncryptorOpen es es.length := by
  rw [h.opened_eq, List.mem_map]
  refine exists_congr fun k => ?_
  rw [mem_openPlaces_iff, regionAt_eq_keyEncryptor_iff]
  exact ⟨fun ⟨hi, hf⟩ => ⟨hi.lt, hf, hi⟩, fun ⟨_, hf, hi⟩ => ⟨hi, hf⟩⟩

/-! The same for the next event. -/

theorem firstEncryptors_length_iff (h : Kept es w) (x : Event) :
    FirstEncryptors (es ++ [x]) es.length
      ↔ NamedAt (es ++ [x]) encryptionNamespace "keyEncryptors" es.length
        ∧ w.gathered.sawKeyEncryptors = false := by
  rw [← Bool.not_eq_true, h.saw_iff, not_exists]
  refine and_congr_right fun _ => ⟨fun hnot i hi => ?_, fun hnot i hi hname => ?_⟩
  · exact hnot i hi.lt_length ((namedAt_append hi.lt_length [x]).mpr hi)
  · exact hnot i ((namedAt_append hi [x]).mp hname)

theorem encryptorAt_length_iff (h : Kept es w) (x : Event) :
    EncryptorAt (es ++ [x]) es.length
      ↔ NamedAt (es ++ [x]) encryptionNamespace "keyEncryptor" es.length
        ∧ .keyEncryptors ∈ w.opened := by
  rw [h.keyEncryptors_mem_iff]
  refine and_congr_right fun _ => exists_congr fun r => and_congr_right fun hr => ?_
  rw [firstEncryptors_append hr, inside_append (Nat.le_refl _)]

theorem givenTo_length_iff (h : Kept es w) (x : Event) (uri : String) (i : Nat) :
    GivenTo (es ++ [x]) uri i es.length
      ↔ NamedAt (es ++ [x]) uri "encryptedKey" es.length ∧ .keyEncryptor ∈ w.opened
        ∧ EncryptorAt es i ∧ ∀ k, EncryptorAt es k → k ≤ i := by
  rw [h.keyEncryptor_mem_iff, GivenTo, encryptorOpen_append (Nat.le_refl _)]
  refine and_congr_right fun _ => and_congr_right fun _ => ?_
  constructor
  · rintro ⟨hi, hlt, hlast⟩
    refine ⟨(encryptorAt_append hlt [x]).mp hi, fun k hk => ?_⟩
    exact hlast k hk.lt_length ((encryptorAt_append hk.lt_length [x]).mpr hk)
  · rintro ⟨hi, hlast⟩
    refine ⟨(encryptorAt_append hi.lt_length [x]).mpr hi, hi.lt_length, fun k hk hek => ?_⟩
    exact hlast k ((encryptorAt_append hk [x]).mp hek)

/-- A new encryptor comes behind the others, and has no keys yet. -/
theorem map_described_of_encryptor {m : Meaning}
    (hm : meaningAt (es ++ [x]) es.length = some m) (hn : EncryptorAt (es ++ [x]) es.length) :
    (encryptorPlaces (es ++ [x])).map (described (es ++ [x]))
      = (encryptorPlaces es).map (described es)
        ++ [⟨Entries.get? ⟨"keyEncryptor", m.values⟩ "uri", none, none⟩] := by
  have hold : ∀ i ∈ encryptorPlaces es, described (es ++ [x]) i = described es i := by
    intro i hi
    refine described_append_of_not_givenTo (mem_encryptorPlaces.mp hi).lt_length ?_
    intro uri hg
    exact absurd (hg.1.unique hn.1).2 (by decide)
  have hnone : ∀ uri, firstKey (es ++ [x]) uri es.length = none := by
    intro uri
    cases hfirst : firstKey (es ++ [x]) uri es.length with
    | none => rfl
    | some j =>
        obtain ⟨hname, -, -, hlt, -⟩ := (firstKey_eq_some_iff.mp hfirst).1
        have hbound := hname.lt_length
        rw [List.length_append, List.length_singleton] at hbound
        omega
  have hnew : described (es ++ [x]) es.length
      = ⟨Entries.get? ⟨"keyEncryptor", m.values⟩ "uri", none, none⟩ := by
    unfold described
    rw [hm, hnone, hnone]
    rfl
  rw [encryptorPlaces_append_singleton, if_pos hn, List.map_append, List.map_congr_left hold,
    List.map_singleton, hnew]

/-- A key is taken by the last encryptor if one is open, and by none if not. -/
theorem map_described_of_not_encryptor (h : Kept es w) {m : Meaning}
    (hm : meaningAt (es ++ [x]) es.length = some m)
    (hn : ¬ EncryptorAt (es ++ [x]) es.length) :
    ((encryptorPlaces (es ++ [x])).map (described (es ++ [x]))).reverse
      = if m.localName = "encryptedKey" ∧ .keyEncryptor ∈ w.opened then
          (w.gathered.addEncryptedKey m.uri ⟨"encryptedKey", m.values⟩).keyEncryptors
        else w.gathered.keyEncryptors := by
  have hname : NamedAt (es ++ [x]) m.uri "encryptedKey" es.length
      ↔ m.localName = "encryptedKey" := by
    simp [NamedAt, hm]
  rw [encryptorPlaces_append_singleton, if_neg hn, List.append_nil]
  by_cases hkey : m.localName = "encryptedKey" ∧ .keyEncryptor ∈ w.opened
  · rw [if_pos hkey]
    obtain ⟨k, -, hk, -⟩ := h.keyEncryptor_mem_iff.mp hkey.2
    rcases List.eq_nil_or_concat' (encryptorPlaces es) with hnil | ⟨earlier, last, hplaces⟩
    · exact absurd (hnil ▸ mem_encryptorPlaces.mpr hk) List.not_mem_nil
    · obtain ⟨hlast, hle⟩ := isLast_of_encryptorPlaces hplaces
      have hgiven : GivenTo (es ++ [x]) m.uri last es.length := by
        rw [h.givenTo_length_iff, hname]
        exact ⟨hkey.1, hkey.2, hlast, fun k hk => (hle k hk).1⟩
      have hearlier : ∀ i ∈ earlier, described (es ++ [x]) i = described es i := by
        intro i hi
        have hei : EncryptorAt es i :=
          mem_encryptorPlaces.mp (hplaces ▸ List.mem_append_left _ hi)
        rw [described_append_singleton hei.lt_length hm, if_neg]
        rw [h.givenTo_length_iff]
        rintro ⟨-, -, -, hlater⟩
        exact absurd (hlater last hlast) (Nat.not_le.mpr ((hle i hei).2 hi))
      have hkept : w.gathered.keyEncryptors
          = described es last :: (earlier.map (described es)).reverse := by
        rw [h.keyEncryptors_eq, hplaces, List.map_append, List.reverse_append]
        rfl
      rw [Gathered.keyEncryptors_addEncryptedKey hkept, hplaces, List.map_append,
        List.reverse_append, List.map_congr_left hearlier, List.map_singleton,
        described_append_singleton hlast.lt_length hm, if_pos hgiven]
      rfl
  · rw [if_neg hkey, h.keyEncryptors_eq]
    refine congrArg List.reverse (List.map_congr_left fun i hi => ?_)
    rw [described_append_singleton (mem_encryptorPlaces.mp hi).lt_length hm, if_neg]
    rw [h.givenTo_length_iff, hname]
    exact fun hg => hkey ⟨hg.1, hg.2.1⟩

/-- What an element does to what is kept, with content or without. -/
theorem of_visit (h : Kept es w) {e : Element} {g : Gathered} {region : Region}
    (ht : tag? x = some e)
    (hv : w.gathered.visit w.opened (resolve (e.declarations :: w.scopes) e) = .ok (g, region)) :
    (g.sawKeyEncryptors = true ↔ ∃ i, NamedAt (es ++ [x]) encryptionNamespace "keyEncryptors" i)
    ∧ region = regionAt (es ++ [x]) es.length
    ∧ g.keyEncryptors = ((encryptorPlaces (es ++ [x])).map (described (es ++ [x]))).reverse := by
  have hm : meaningAt (es ++ [x]) es.length = some (Meaning.of w.scopes e) := by
    rw [meaningAt_length, ht, h.scopes_eq]
    rfl
  have hown : ∀ name, (resolve (e.declarations :: w.scopes) e).IsOwn name
      ↔ NamedAt (es ++ [x]) encryptionNamespace name es.length := by
    intro name
    simp [NamedAt, hm, Resolved.IsOwn, resolve, Meaning.of]
  obtain ⟨hsaw, hregion, hencryptors⟩ := Gathered.of_visit hv
  simp only [hown] at hsaw hregion hencryptors
  refine ⟨?_, ?_, ?_⟩
  · rw [hsaw, h.saw_iff, exists_namedAt_append_singleton]
  · rw [hregion, regionAt]
    simp only [h.firstEncryptors_length_iff, h.encryptorAt_length_iff]
  · rw [hencryptors]
    by_cases hn : EncryptorAt (es ++ [x]) es.length
    · rw [if_pos ((h.encryptorAt_length_iff x).mp hn), map_described_of_encryptor hm hn,
        List.reverse_append, h.keyEncryptors_eq]
      rfl
    · rw [if_neg fun hc => hn ((h.encryptorAt_length_iff x).mpr hc),
        h.map_described_of_not_encryptor hm hn]
      rfl

/-- **Every event keeps it.** -/
theorem step (h : Kept es w) (hs : w.step x = .ok w') : Kept (es ++ [x]) w' := by
  have hscopes : Scopes.next w.scopes x = Scopes.after [] (es ++ [x]) := by
    rw [h.scopes_eq]
    exact (Scopes.after_append [] es [x]).symm
  have hopened : w.opened = (openPlaces es).map (regionAt (es ++ [x])) := by
    rw [h.opened_eq]
    refine List.map_congr_left fun i hi => ?_
    rw [regionAt_append (lt_length_of_mem_openPlaces hi)]
  cases x with
  | start e =>
      obtain ⟨⟨g, region⟩, hv, hs⟩ := Outcome.bind_eq_ok.mp hs
      cases hs
      obtain ⟨hsaw, hregion, hencryptors⟩ := h.of_visit (x := .start e) rfl hv
      refine ⟨hscopes, ?_, hsaw, hencryptors⟩
      rw [openPlaces_append_singleton, List.map_cons, ← hopened, ← hregion]
  | empty e =>
      obtain ⟨⟨g, region⟩, hv, hs⟩ := Outcome.bind_eq_ok.mp hs
      cases hs
      obtain ⟨hsaw, -, hencryptors⟩ := h.of_visit (x := .empty e) rfl hv
      refine ⟨hscopes, ?_, hsaw, hencryptors⟩
      rw [openPlaces_append_singleton, ← hopened]
  | close =>
      cases hs
      have hnone : ∀ uri name, ¬ NamedAt (es ++ [.close]) uri name es.length := by
        rintro uri name ⟨m, hm, -⟩
        rw [meaningAt_length] at hm
        cases hm
      refine ⟨hscopes, ?_, ?_, ?_⟩
      · rw [openPlaces_append_singleton, List.map_tail, ← hopened]
      · rw [exists_namedAt_append_singleton, or_iff_left (hnone _ _)]
        exact h.saw_iff
      · rw [encryptorPlaces_append_singleton, if_neg fun he => hnone _ _ he.1, List.append_nil]
        refine h.keyEncryptors_eq.trans (congrArg List.reverse (List.map_congr_left ?_))
        intro i hi
        exact (described_append_of_not_givenTo (mem_encryptorPlaces.mp hi).lt_length
          fun uri hg => hnone _ _ hg.1).symm

/-- **And so it is behind every document.** -/
theorem of_run (h : Walk.start.run es = .ok w) : Kept es w := by
  induction es using List.reverseRecOn generalizing w with
  | nil =>
      cases h
      exact nothing
  | append_singleton es x ih =>
      rw [Walk.run_append] at h
      obtain ⟨w₁, hbefore, h⟩ := Outcome.bind_eq_ok.mp h
      obtain ⟨w₂, hstep, h⟩ := Outcome.bind_eq_ok.mp h
      cases h
      exact (ih hbefore).step hstep

end Kept

end PageVault.Descriptor
