import PageVault.Proofs.Descriptor.Meaning

/-!
# Elements that do not matter

Below the root of a descriptor there may be elements of other namespaces, alone or around
elements that matter.  Such an element keeps nothing, and the elements in it see the same
regions around them as without it.  It may declare namespaces, as long as none of the
elements in it changes its URI.

§1 complete elements · §2 regions · §3 insertion · §4 the descriptor.
-/

namespace PageVault.Descriptor

open Markup

/-! ## §1  Complete elements -/

/-- Complete elements side by side, with all that is in them. -/
inductive Siblings : List Event → Prop
  | nil : Siblings []
  | empty (e : Element) {rest : List Event} (hr : Siblings rest) : Siblings (.empty e :: rest)
  | element (e : Element) {content rest : List Event} (hc : Siblings content)
      (hr : Siblings rest) : Siblings (.start e :: (content ++ .close :: rest))

/-- The tags among events, without the closing ones. -/
def tagsOf (es : List Event) : List Element :=
  es.filterMap fun
    | .start e => some e
    | .empty e => some e
    | .close => none

theorem Scopes.after_append (scopes : Scopes) (es fs : List Event) :
    Scopes.after scopes (es ++ fs) = Scopes.after (Scopes.after scopes es) fs :=
  List.foldl_append

/-- Complete elements leave the scopes as they were. -/
theorem Siblings.after_eq {es : List Event} (h : Siblings es) (scopes : Scopes) :
    Scopes.after scopes es = scopes := by
  induction h generalizing scopes with
  | nil => rfl
  | empty e _ ih => exact ih scopes
  | @element e content rest _ _ ihc ihr =>
      show Scopes.after (e.declarations :: scopes) (content ++ .close :: rest) = scopes
      rw [Scopes.after_append, ihc]
      exact ihr scopes

/-- The marks of an element with content, and of what follows it. -/
theorem marks_element {content : List Event} (hc : Siblings content) (scopes : Scopes)
    (e : Element) (rest : List Event) :
    marks scopes (.start e :: (content ++ .close :: rest))
      = .enter (.of scopes e)
        :: (marks (e.declarations :: scopes) content ++ .leave :: marks scopes rest) := by
  show .enter (.of scopes e) :: marks (e.declarations :: scopes) (content ++ .close :: rest) = _
  rw [marks_append, hc.after_eq]
  rfl

/-- Scopes in which all qualifiers of complete elements stand for the same give the same
marks. -/
theorem Siblings.marks_congr {es : List Event} (h : Siblings es) {scopes scopes' : Scopes}
    (hu : ∀ e ∈ tagsOf es, uriOf scopes (e.name.qualifier.getD "")
      = uriOf scopes' (e.name.qualifier.getD "")) :
    marks scopes es = marks scopes' es := by
  -- What the frame of an element declares comes before the scopes around it.
  have hframe : ∀ {scopes scopes' : Scopes} {q : String} (frame : Frame),
      uriOf scopes q = uriOf scopes' q →
        uriOf (frame :: scopes) q = uriOf (frame :: scopes') q := by
    intro scopes scopes' q frame hq
    rw [uriOf_cons, uriOf_cons, hq]
  have hmeaning : ∀ {scopes scopes' : Scopes} {e : Element},
      uriOf scopes (e.name.qualifier.getD "") = uriOf scopes' (e.name.qualifier.getD "") →
        Meaning.of scopes e = Meaning.of scopes' e := by
    intro scopes scopes' e hq
    unfold Meaning.of
    rw [hframe e.declarations hq]
  induction h generalizing scopes scopes' with
  | nil => rfl
  | @empty e rest _ ih =>
      have hhead := hmeaning (hu e List.mem_cons_self)
      have hrest := ih fun f hf => hu f (List.mem_cons_of_mem _ hf)
      show .enter (.of scopes e) :: .leave :: marks scopes rest = _
      rw [hhead, hrest]
      rfl
  | @element e content rest hc _ ihc ihr =>
      have htags : tagsOf (.start e :: (content ++ .close :: rest))
          = e :: (tagsOf content ++ tagsOf rest) := by
        simp [tagsOf]
      rw [htags] at hu
      have hhead := hmeaning (hu e List.mem_cons_self)
      have hcontent : marks (e.declarations :: scopes) content
          = marks (e.declarations :: scopes') content := by
        refine ihc fun f hf => hframe e.declarations ?_
        exact hu f (List.mem_cons_of_mem _ (List.mem_append_left _ hf))
      have hrest := ihr fun f hf => hu f (List.mem_cons_of_mem _ (List.mem_append_right _ hf))
      rw [marks_element hc, marks_element hc, hhead, hcontent, hrest]

/-! ## §2  Regions -/

/-- Open elements that mean the same for the elements in them. -/
def SameRegions (opened opened' : List Region) : Prop :=
  (.keyEncryptors ∈ opened ↔ .keyEncryptors ∈ opened')
    ∧ (.keyEncryptor ∈ opened ↔ .keyEncryptor ∈ opened')

theorem SameRegions.cons {opened opened' : List Region} (h : SameRegions opened opened')
    (region : Region) : SameRegions (region :: opened) (region :: opened') := by
  unfold SameRegions
  rw [List.mem_cons, List.mem_cons, List.mem_cons, List.mem_cons, h.1, h.2]
  exact ⟨Iff.rfl, Iff.rfl⟩

theorem sameRegions_other (opened : List Region) : SameRegions opened (.other :: opened) := by
  simp [SameRegions]

theorem SameRegions.enter_eq {opened opened' : List Region} (h : SameRegions opened opened')
    (g : Gathered) (m : Meaning) : g.enter opened m = g.enter opened' m := by
  unfold Gathered.enter Gathered.visit Gathered.visitOwn Gathered.visitForeign
  simp only [h.1, h.2]

/-- **Complete elements leave the regions around them as they were**, and keep the same in
regions that mean the same. -/
theorem Siblings.follow_eq {es : List Event} (h : Siblings es) {opened opened' : List Region}
    (hr : SameRegions opened opened') (scopes : Scopes) (g : Gathered) :
    ∃ kept : Option Gathered,
      (⟨opened, g⟩ : Progress).follow (marks scopes es) = kept.map (⟨opened, ·⟩)
        ∧ (⟨opened', g⟩ : Progress).follow (marks scopes es) = kept.map (⟨opened', ·⟩) := by
  induction h generalizing opened opened' scopes g with
  | nil => exact ⟨some g, rfl, rfl⟩
  | @empty e rest _ ih =>
      have hmarks : marks scopes (.empty e :: rest)
          = .enter (.of scopes e) :: .leave :: marks scopes rest := rfl
      rw [hmarks, Progress.follow_enter, Progress.follow_enter]
      show ∃ kept, Option.bind (g.enter opened _) _ = _ ∧ Option.bind (g.enter opened' _) _ = _
      rw [← hr.enter_eq]
      cases g.enter opened (.of scopes e) with
      | none => exact ⟨none, rfl, rfl⟩
      | some r => exact ih hr scopes r.1
  | @element e content rest hc _ ihc ihr =>
      rw [marks_element hc, Progress.follow_enter, Progress.follow_enter]
      show ∃ kept, Option.bind (g.enter opened _) _ = _ ∧ Option.bind (g.enter opened' _) _ = _
      rw [← hr.enter_eq]
      cases g.enter opened (.of scopes e) with
      | none => exact ⟨none, rfl, rfl⟩
      | some r =>
          obtain ⟨kept, hk, hk'⟩ := ihc (hr.cons r.2) (e.declarations :: scopes) r.1
          simp only [Option.bind_some, Progress.follow_append, hk, hk']
          cases kept with
          | none => exact ⟨none, rfl, rfl⟩
          | some g' => exact ihr hr scopes g'

/-! ## §3  Insertion -/

/-- An element behind `before` whose URI is none of those that descriptors use. -/
def Foreign (before : List Event) (e : Element) : Prop :=
  (Meaning.of (Scopes.after [] before) e).uri
    ∉ [encryptionNamespace, passwordNamespace, certificateNamespace]

/-- Somewhere behind the tag of the root a foreign element was put in, either an empty one or
one around complete elements that were there before.  None of the qualifiers used in it is
bound anew by its declarations. -/
inductive Inserted : List Event → List Event → Prop
  | empty (before after : List Event) (e : Element) (hroot : tagsOf before ≠ [])
      (hf : Foreign before e) : Inserted (before ++ after) (before ++ .empty e :: after)
  | around (before content after : List Event) (e : Element) (hroot : tagsOf before ≠ [])
      (hf : Foreign before e) (hc : Siblings content)
      (hu : ∀ f ∈ tagsOf content,
        uriOf (e.declarations :: Scopes.after [] before) (f.name.qualifier.getD "")
          = uriOf (Scopes.after [] before) (f.name.qualifier.getD "")) :
      Inserted (before ++ (content ++ after))
        (before ++ .start e :: (content ++ .close :: after))

theorem Gathered.sawRoot_visitOwn (g : Gathered) (opened : List Region) (e : Resolved) :
    (g.visitOwn opened e).1.sawRoot = g.sawRoot := by
  unfold visitOwn
  split
  · rfl
  · split
    · rfl
    · split
      · rfl
      · split <;> rfl

theorem Gathered.sawRoot_visitForeign (g : Gathered) (opened : List Region) (e : Resolved) :
    (g.visitForeign opened e).sawRoot = g.sawRoot := by
  unfold visitForeign addEncryptedKey
  split
  · split
    · rfl
    · split
      · rfl
      · split <;> rfl
  · rfl

/-- The root was seen once an element was entered. -/
theorem Gathered.sawRoot_of_enter {g g' : Gathered} {opened : List Region} {m : Meaning}
    {region : Region} (h : g.enter opened m = some (g', region)) : g'.sawRoot = true := by
  have hv : g.visit opened (m.resolved "") = .ok (g', region) := by
    unfold enter at h
    cases hv : g.visit opened (m.resolved "") with
    | error err =>
        rw [hv] at h
        cases h
    | ok r =>
        rw [hv] at h
        exact congrArg Except.ok (Option.some.inj h)
  unfold visit at hv
  split at hv
  · split at hv
    · cases hv
      rfl
    · cases hv
  · rename_i hroot
    have hroot : g.sawRoot = true := eq_true_of_ne_false hroot
    split at hv
    · have hg : (g.visitOwn opened (m.resolved "")).1 = g' :=
        congrArg Prod.fst (Except.ok.inj hv)
      rw [← hg, sawRoot_visitOwn, hroot]
    · have hg : g.visitForeign opened (m.resolved "") = g' :=
        congrArg Prod.fst (Except.ok.inj hv)
      rw [← hg, sawRoot_visitForeign, hroot]

/-- Behind a tag the root was seen. -/
theorem Progress.sawRoot_of_follow {p p' : Progress} {es : List Event} {scopes : Scopes}
    (h : p.follow (marks scopes es) = some p')
    (hr : p.gathered.sawRoot = true ∨ tagsOf es ≠ []) : p'.gathered.sawRoot = true := by
  induction es generalizing p scopes with
  | nil =>
      cases h
      exact hr.resolve_right (fun ht => ht rfl)
  | cons e es ih =>
      rw [marks] at h
      cases e with
      | start e =>
          rw [marksOf, List.singleton_append, Progress.follow_enter] at h
          obtain ⟨r, he, h⟩ := Option.bind_eq_some_iff.mp h
          exact ih h (Or.inl (Gathered.sawRoot_of_enter he))
      | empty e =>
          rw [marksOf, List.cons_append, Progress.follow_enter] at h
          obtain ⟨r, he, h⟩ := Option.bind_eq_some_iff.mp h
          exact ih h (Or.inl (Gathered.sawRoot_of_enter he))
      | close => exact ih (p := ⟨p.opened.tail, p.gathered⟩) h hr

/-- Below the root, a foreign element keeps nothing. -/
theorem Gathered.enter_of_foreign {g : Gathered} {m : Meaning} (hroot : g.sawRoot = true)
    (hf : m.uri ∉ [encryptionNamespace, passwordNamespace, certificateNamespace])
    (opened : List Region) : g.enter opened m = some (g, .other) := by
  simp only [List.mem_cons, List.not_mem_nil, or_false, not_or] at hf
  obtain ⟨he, hp, hc⟩ := hf
  have hadd : g.addEncryptedKey m.uri ⟨"encryptedKey", m.values⟩ = g := by
    unfold addEncryptedKey
    split
    · rfl
    · rw [if_neg (fun h => hp h.1), if_neg (fun h => hc h.1)]
  have hforeign : g.visitForeign opened (m.resolved "") = g := by
    unfold visitForeign
    split
    · exact hadd
    · rfl
  unfold enter visit
  rw [if_neg (by rw [hroot]; decide), if_neg (show ¬ (m.resolved "").uri = _ from he), hforeign]
  rfl

/-- **A foreign element is followed as if it were not there.** -/
theorem Inserted.follow_eq {es fs : List Event} (h : Inserted es fs) :
    (⟨[], .nothing⟩ : Progress).follow (marks [] fs)
      = (⟨[], .nothing⟩ : Progress).follow (marks [] es) := by
  cases h with
  | empty before after e hroot hf =>
      rw [marks_append, marks_append, Progress.follow_append, Progress.follow_append]
      cases hb : (⟨[], .nothing⟩ : Progress).follow (marks [] before) with
      | none => rfl
      | some p =>
          have hseen := Progress.sawRoot_of_follow hb (Or.inr hroot)
          have henter := Gathered.enter_of_foreign hseen hf p.opened
          show p.follow (.enter _ :: .leave :: marks _ after) = p.follow (marks _ after)
          rw [Progress.follow_enter, henter]
          rfl
  | around before content after e hroot hf hc hu =>
      rw [marks_append, marks_append, Progress.follow_append, Progress.follow_append]
      cases hb : (⟨[], .nothing⟩ : Progress).follow (marks [] before) with
      | none => rfl
      | some p =>
          have hseen := Progress.sawRoot_of_follow hb (Or.inr hroot)
          have henter := Gathered.enter_of_foreign hseen hf p.opened
          -- The content means the same with the declarations of the new element in scope,
          -- and keeps the same with its region among the open ones.
          have hcontent := hc.marks_congr hu
          obtain ⟨kept, hk, hk'⟩ := hc.follow_eq (sameRegions_other p.opened)
            (Scopes.after [] before) p.gathered
          show p.follow (marks _ (.start e :: (content ++ .close :: after)))
            = p.follow (marks _ (content ++ after))
          rw [marks_element hc, hcontent, Progress.follow_enter, henter, marks_append,
            hc.after_eq, Progress.follow_append]
          simp only [Option.bind_some, Progress.follow_append, hk, hk']
          cases kept with
          | none => rfl
          | some g => rfl

/-! ## §4  The descriptor -/

/-- **A descriptor is read from the namespace-resolved elements of its document alone.**  Of
two documents whose elements have the same nesting and the same URIs, local names and
attributes, both have the same descriptor or neither has one, however their qualifiers are
spelled and wherever they are declared; in particular if the qualifiers of one were renamed
to those of the other.  And a foreign element that is put in below the root, empty or around
others, changes nothing. -/
theorem ofBytes_by_meaning :
    (∀ b b' es es', HasEvents b es → HasEvents b' es' → marks [] es = marks [] es' →
      ∀ d, ofBytes b = .ok d ↔ ofBytes b' = .ok d)
    ∧ (∀ b b' es es' rename, HasEvents b es → HasEvents b' es' → Function.Injective rename →
      List.Forall₂ (EventRenamed rename) es es' → ∀ d, ofBytes b = .ok d ↔ ofBytes b' = .ok d)
    ∧ ∀ b b' es es', HasEvents b es → HasEvents b' es' → Inserted es es' →
      ∀ d, ofBytes b = .ok d ↔ ofBytes b' = .ok d := by
  refine ⟨?_, ?_, ?_⟩
  · intro b b' es es' hb hb' hmarks d
    rw [ofBytes_of_hasEvents hb, ofBytes_of_hasEvents hb']
    exact ofEvents_eq_ok_of_marks hmarks d
  · intro b b' es es' rename hb hb' hrename hes d
    rw [ofBytes_of_hasEvents hb, ofBytes_of_hasEvents hb']
    exact ofEvents_eq_ok_of_marks (marks_renamed hrename hes []).symm d
  · intro b b' es es' hb hb' hins d
    rw [ofBytes_of_hasEvents hb, ofBytes_of_hasEvents hb', ofEvents_eq_ok_iff,
      ofEvents_eq_ok_iff, hins.follow_eq]

/-- A description that names no algorithm; a descriptor may hold it all the same. -/
def sampleDescription : CipherDescription :=
  ⟨0, 0, 0, 0, "a", "b", "c", [0]⟩

/-- A document without key encryptors, in the default namespace. -/
def sampleDocument : List Char :=
  '<' :: ("encryption".toList ++ attributesText [("xmlns", encryptionNamespace)]
    ++ "><keyData".toList ++ attributesText (suiteValues sampleDescription)
    ++ "/><keyEncryptors/></encryption".toList) ++ ['>']

/-- The same with a qualifier, which two elements declare for themselves. -/
def qualifiedDocument : List Char :=
  '<' :: ("e:encryption".toList ++ attributesText [("xmlns:e", encryptionNamespace)]
    ++ "><keyData".toList
    ++ attributesText (("xmlns", encryptionNamespace) :: suiteValues sampleDescription)
    ++ "/><e:keyEncryptors></e:keyEncryptors></e:encryption".toList) ++ ['>']

/-- The first document with a foreign element in it, around another. -/
def wrappedDocument : List Char :=
  '<' :: ("encryption".toList ++ attributesText [("xmlns", encryptionNamespace)]
    ++ "><keyData".toList ++ attributesText (suiteValues sampleDescription)
    ++ "/><o:x".toList ++ attributesText [("xmlns:o", "urn:o")]
    ++ "><keyEncryptors/></o:x></encryption".toList) ++ ['>']

def sampleRoot : Element :=
  ⟨⟨none, "encryption"⟩, [⟨⟨none, "xmlns"⟩, encryptionNamespace⟩]⟩

def sampleKeyData : Element :=
  ⟨⟨none, "keyData"⟩, (suiteValues sampleDescription).map fun v => ⟨⟨none, v.1⟩, v.2⟩⟩

def foreignTag : Element :=
  ⟨⟨some "o", "x"⟩, [⟨⟨some "xmlns", "o"⟩, "urn:o"⟩]⟩

def encryptorsTag : Element :=
  ⟨⟨none, "keyEncryptors"⟩, []⟩

theorem hasEvents_sampleDocument : HasEvents (utf8 sampleDocument)
    [.start sampleRoot, .empty sampleKeyData, .empty encryptorsTag, .close] :=
  hasEvents_utf8 (by decide +kernel) (by decide +kernel)

theorem hasEvents_wrappedDocument : HasEvents (utf8 wrappedDocument)
    [.start sampleRoot, .empty sampleKeyData, .start foreignTag, .empty encryptorsTag, .close,
      .close] :=
  hasEvents_utf8 (by decide +kernel) (by decide +kernel)

theorem inserted_wrappedDocument :
    Inserted [.start sampleRoot, .empty sampleKeyData, .empty encryptorsTag, .close]
      [.start sampleRoot, .empty sampleKeyData, .start foreignTag, .empty encryptorsTag, .close,
        .close] :=
  .around [.start sampleRoot, .empty sampleKeyData] [.empty encryptorsTag] [.close] foreignTag
    nofun (by unfold Foreign; decide) (.empty _ .nil) (by decide)

/-- Three documents with one descriptor. -/
theorem ofBytes_by_meaning_sample :
    ofBytes (utf8 sampleDocument) = .ok ⟨sampleDescription, none, []⟩
      ∧ ofBytes (utf8 qualifiedDocument) = .ok ⟨sampleDescription, none, []⟩
      ∧ ofBytes (utf8 wrappedDocument) = .ok ⟨sampleDescription, none, []⟩ := by
  have hsample : ofBytes (utf8 sampleDocument) = .ok ⟨sampleDescription, none, []⟩ := by
    rw [ofBytes_of_hasEvents hasEvents_sampleDocument]
    decide +kernel
  have hqualified : HasEvents (utf8 qualifiedDocument) (events qualifiedDocument).items :=
    hasEvents_utf8 rfl (by decide +kernel)
  refine ⟨hsample, ?_, ?_⟩
  · exact (ofBytes_by_meaning.1 _ _ _ _ hasEvents_sampleDocument hqualified
      (by decide +kernel) _).mp hsample
  · exact (ofBytes_by_meaning.2.2 _ _ _ _ hasEvents_sampleDocument hasEvents_wrappedDocument
      inserted_wrappedDocument _).mp hsample

end PageVault.Descriptor
