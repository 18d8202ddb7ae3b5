import PageVault.Proofs.Descriptor.Nesting

/-!
# Namespaces are scoped to their elements

The walk through a document keeps a frame for every open element, pushed and popped in three
places.  What the frames come to is a matter of the open elements alone: they are the
declarations of these, innermost first (`Walk.run_within`).  So the URI of an element is found
as a reader of the document finds it, at the innermost of the element itself and those around
it that declares the qualifier, and there at the first declaration of it (`StandsFor`).  What
closed elements and elements without content declare is not in any frame.

§1 declarations · §2 what a qualifier stands for · §3 the frames of a walk · §4 scoping.
-/

namespace PageVault

/-! ## §1  Declarations -/

namespace Markup

/-- The attribute says what the qualifier stands for; the default namespace has the empty
qualifier. -/
def Attribute.Declares (a : Attribute) (q : String) : Prop :=
  a.name = ⟨none, "xmlns"⟩ ∧ q = "" ∨ a.name = ⟨some "xmlns", q⟩

instance (a : Attribute) (q : String) : Decidable (a.Declares q) :=
  inferInstanceAs (Decidable (_ ∨ _))

theorem Attribute.declaration?_eq_some_iff {a : Attribute} {q uri : String} :
    a.declaration? = some (q, uri) ↔ a.Declares q ∧ a.value = uri := by
  obtain ⟨⟨qualifier, name⟩, value⟩ := a
  unfold declaration? Declares
  cases qualifier with
  | none =>
      by_cases hname : name = "xmlns"
      · simp [hname, eq_comm]
      · simp [hname]
  | some p =>
      by_cases hp : p = "xmlns"
      · simp [hp]
      · simp [hp]

namespace Element

/-- No attribute of the tag says what the qualifier stands for. -/
def Undeclared (e : Element) (q : String) : Prop :=
  ∀ a ∈ e.attributes, ¬ a.Declares q

/-- The first attribute that says what the qualifier stands for has this value. -/
def FirstDeclares (e : Element) (q uri : String) : Prop :=
  ∃ earlier a later, e.attributes = earlier ++ a :: later ∧ a.Declares q ∧ a.value = uri
    ∧ ∀ b ∈ earlier, ¬ b.Declares q

theorem lookup_declarations (e : Element) (q : String) :
    e.declarations.lookup q
      = e.attributes.findSome? fun a => if a.Declares q then some a.value else none := by
  unfold declarations
  induction e.attributes with
  | nil => rfl
  | cons a attributes ih =>
      rw [List.findSome?_cons, ← ih]
      cases h : a.declaration? with
      | none =>
          have hnot : ¬ a.Declares q := by
            intro hd
            rw [Attribute.declaration?_eq_some_iff.mpr ⟨hd, rfl⟩] at h
            cases h
          rw [List.filterMap_cons_none h, if_neg hnot]
      | some d =>
          obtain ⟨p, uri⟩ := d
          obtain ⟨hd, rfl⟩ := Attribute.declaration?_eq_some_iff.mp h
          rw [List.filterMap_cons_some h, List.lookup_cons]
          by_cases hq : q = p
          · subst hq
            rw [if_pos hd, beq_self_eq_true]
          · have hnot : ¬ a.Declares q := by
              intro hd'
              have h' := Attribute.declaration?_eq_some_iff.mpr ⟨hd', rfl⟩
              rw [h] at h'
              cases h'
              exact hq rfl
            rw [if_neg hnot, beq_false_of_ne hq]

theorem lookup_declarations_eq_none_iff {e : Element} {q : String} :
    e.declarations.lookup q = none ↔ e.Undeclared q := by
  simp [lookup_declarations, Undeclared]

theorem lookup_declarations_eq_some_iff {e : Element} {q uri : String} :
    e.declarations.lookup q = some uri ↔ e.FirstDeclares q uri := by
  rw [lookup_declarations, List.findSome?_eq_some_iff]
  simp [FirstDeclares, and_assoc]

end Element

end Markup

namespace Descriptor

open Markup

/-! ## §2  What a qualifier stands for -/

/-- In elements around each other, innermost first, a qualifier stands for the URI: the
innermost element that declares the qualifier declares it so first, or none declares it and
the URI is empty. -/
def StandsFor (elements : List Element) (q uri : String) : Prop :=
  (∃ inner e outer, elements = inner ++ e :: outer ∧ e.FirstDeclares q uri
      ∧ ∀ x ∈ inner, x.Undeclared q)
    ∨ (∀ x ∈ elements, x.Undeclared q) ∧ uri = ""

/-- **The frames of elements give what a qualifier stands for.** -/
theorem standsFor_iff {elements : List Element} {q uri : String} :
    StandsFor elements q uri ↔ uriOf (elements.map Element.declarations) q = uri := by
  have hfind : (elements.map Element.declarations).findSome? (fun frame => frame.lookup q)
      = elements.findSome? fun e => e.declarations.lookup q := List.findSome?_map
  have hstands : StandsFor elements q uri
      ↔ (elements.findSome? fun e => e.declarations.lookup q) = some uri
        ∨ (elements.findSome? fun e => e.declarations.lookup q) = none ∧ uri = "" := by
    simp only [StandsFor, List.findSome?_eq_some_iff, List.findSome?_eq_none_iff,
      Element.lookup_declarations_eq_some_iff, Element.lookup_declarations_eq_none_iff]
  rw [hstands, uriOf, hfind]
  cases elements.findSome? fun e => e.declarations.lookup q with
  | none => simp [eq_comm]
  | some found => simp

/-! ## §3  The frames of a walk -/

namespace Walk

variable {w w' : Walk} {es : List Event}

theorem run_append (w : Walk) (es fs : List Event) :
    w.run (es ++ fs) = w.run es >>= fun w' => w'.run fs := by
  induction es generalizing w with
  | nil => rfl
  | cons e es ih =>
      show w.step e >>= (fun w' => w'.run (es ++ fs)) = (w.step e >>= fun w' => w'.run es) >>= _
      cases w.step e with
      | error err => rfl
      | ok w' => exact ih w'

/-- A tag that opens an element adds a frame and a region. -/
theorem step_start {e : Element} (h : w.step (.start e) = .ok w') :
    w'.scopes = e.declarations :: w.scopes ∧ ∃ region, w'.opened = region :: w.opened := by
  obtain ⟨⟨g, region⟩, -, h⟩ := Outcome.bind_eq_ok.mp h
  cases h
  exact ⟨rfl, region, rfl⟩

/-- An element without content leaves the frames and regions as they were. -/
theorem step_empty {e : Element} (h : w.step (.empty e) = .ok w') :
    w'.scopes = w.scopes ∧ w'.opened = w.opened := by
  obtain ⟨⟨g, region⟩, -, h⟩ := Outcome.bind_eq_ok.mp h
  cases h
  exact ⟨rfl, rfl⟩

/-- **Complete elements leave the frames and regions as they were.** -/
theorem run_siblings (hs : Siblings es) (h : w.run es = .ok w') :
    w'.scopes = w.scopes ∧ w'.opened = w.opened := by
  induction hs generalizing w w' with
  | nil =>
      cases h
      exact ⟨rfl, rfl⟩
  | empty e _ ih =>
      obtain ⟨w₁, hstep, h⟩ := Outcome.bind_eq_ok.mp h
      obtain ⟨hscopes, hopened⟩ := step_empty hstep
      obtain ⟨hscopes', hopened'⟩ := ih h
      exact ⟨hscopes'.trans hscopes, hopened'.trans hopened⟩
  | @element e content rest _ _ ihc ihr =>
      obtain ⟨w₁, hstep, h⟩ := Outcome.bind_eq_ok.mp h
      obtain ⟨hscopes, region, hopened⟩ := step_start hstep
      rw [run_append] at h
      obtain ⟨w₂, hcontent, h⟩ := Outcome.bind_eq_ok.mp h
      obtain ⟨hscopes₂, hopened₂⟩ := ihc hcontent
      -- The element ends: its frame and its region go.
      obtain ⟨hscopes', hopened'⟩ := ihr h
      constructor
      · rw [hscopes', hscopes₂, hscopes]
        rfl
      · rw [hopened', hopened₂, hopened]
        rfl

/-- **The frames of a walk are the declarations of the open elements**, and there are as many
regions. -/
theorem run_within {opened : List Element} (hw : Within opened es)
    (h : start.run es = .ok w) :
    w.scopes = opened.map Element.declarations ∧ w.opened.length = opened.length := by
  induction hw generalizing w with
  | top hs =>
      obtain ⟨hscopes, hopened⟩ := run_siblings hs h
      exact ⟨hscopes, congrArg List.length hopened⟩
  | @inner opened es content _ e hc ih =>
      rw [run_append] at h
      obtain ⟨w₁, hbefore, h⟩ := Outcome.bind_eq_ok.mp h
      obtain ⟨hscopes₁, hlength₁⟩ := ih hbefore
      obtain ⟨w₂, hstep, h⟩ := Outcome.bind_eq_ok.mp h
      obtain ⟨hscopes₂, region, hopened₂⟩ := step_start hstep
      obtain ⟨hscopes, hopened⟩ := run_siblings hc h
      constructor
      · rw [hscopes, hscopes₂, hscopes₁]
        rfl
      · rw [hopened, hopened₂, List.length_cons, hlength₁]
        rfl

/-- A tag is resolved with what its qualifier stands for within the open elements. -/
theorem resolve_of_standsFor {opened : List Element} {e : Element} {uri : String}
    (hw : w.scopes = opened.map Element.declarations)
    (hu : StandsFor (e :: opened) (e.name.qualifier.getD "") uri) :
    resolve (e.declarations :: w.scopes) e = ⟨uri, e.name.localName, e.values, e.name.written⟩ := by
  have huri : uriOf (e.declarations :: w.scopes) (e.name.qualifier.getD "") = uri := by
    rw [hw]
    exact standsFor_iff.mp hu
  unfold resolve
  rw [huri]

/-! ## §4  Scoping -/

/-- **Namespaces are scoped to their elements.**  However far a walk has come through matched
events, there are elements that are open, as many as have begun and not ended.  The walk has as
many frames as there are open elements, and as many regions; the frames are the declarations of
these elements in order.  At a tag, with content or without, the walk goes on with the one URI
that the qualifier of the tag stands for in the element and the open elements around it.  And
nothing else of what came before matters: after any other events that leave the same elements
open, the frames are the same. -/
theorem step_within_open_elements {es before : List Event} (hes : Matched es)
    (hbefore : before <+: es) (hw : start.run before = .ok w) :
    ∃ opened, Within opened before
      ∧ opened.length + before.count .close = starts before
      ∧ w.scopes.length = opened.length ∧ w.opened.length = opened.length
      ∧ w.scopes = opened.map Element.declarations
      ∧ (∀ e, ∃ uri, StandsFor (e :: opened) (e.name.qualifier.getD "") uri
        ∧ (∀ other, StandsFor (e :: opened) (e.name.qualifier.getD "") other → other = uri)
        ∧ w.step (.start e) = (do
            let (g, region) ← w.gathered.visit w.opened
              ⟨uri, e.name.localName, e.values, e.name.written⟩
            return ⟨e.declarations :: w.scopes, region :: w.opened, g⟩)
        ∧ w.step (.empty e) = (do
            let (g, _) ← w.gathered.visit w.opened
              ⟨uri, e.name.localName, e.values, e.name.written⟩
            return ⟨w.scopes, w.opened, g⟩))
      ∧ ∀ before' w', Within opened before' → start.run before' = .ok w' →
        w'.scopes = w.scopes := by
  obtain ⟨opened, hopened⟩ := (hes.of_prefix hbefore).exists_within
  obtain ⟨hscopes, hlength⟩ := run_within hopened hw
  refine ⟨opened, hopened, hopened.length_add_closes, ?_, hlength, hscopes, ?_, ?_⟩
  · rw [hscopes, List.length_map]
  · intro e
    have hstands : StandsFor (e :: opened) (e.name.qualifier.getD "")
        (uriOf ((e :: opened).map Element.declarations) (e.name.qualifier.getD "")) :=
      standsFor_iff.mpr rfl
    refine ⟨_, hstands, ?_, ?_, ?_⟩
    · intro other hother
      exact (standsFor_iff.mp hother).symm
    · rw [← resolve_of_standsFor hscopes hstands]
      rfl
    · rw [← resolve_of_standsFor hscopes hstands]
      rfl
  · intro before' w' hopened' hw'
    rw [(run_within hopened' hw').1, hscopes]

/-- A root that declares two namespaces, in it an element that declares both of them anew, an
element without content that declares one, and a key. -/
def scopedDocument : List Char :=
  "<encryption".toList
    ++ attributesText [("xmlns", encryptionNamespace), ("xmlns:p", passwordNamespace)]
    ++ "><x".toList ++ attributesText [("xmlns:p", "urn:x"), ("xmlns", ""), ("xmlns:p", "urn:y")]
    ++ "><p:y/></x><z".toList ++ attributesText [("xmlns:p", "urn:z")]
    ++ "/><p:encryptedKey/></encryption>".toList

def scopedKey : Element :=
  ⟨⟨some "p", "encryptedKey"⟩, []⟩

/-- The walk in front of the key. -/
def scopedWalk : Walk :=
  ⟨[[("", encryptionNamespace), ("p", passwordNamespace)]], [.other],
    ⟨true, none, none, false, []⟩⟩

/-- The key has the namespace that the root declares. -/
theorem step_within_open_elements_scopedDocument :
    start.run ((events scopedDocument).items.take 5) = .ok scopedWalk
      ∧ ∃ opened, Within opened ((events scopedDocument).items.take 5) ∧ opened.length = 1
        ∧ StandsFor (scopedKey :: opened) "p" passwordNamespace
        ∧ scopedWalk.step (.empty scopedKey) = (do
            let (g, _) ← scopedWalk.gathered.visit scopedWalk.opened
              ⟨passwordNamespace, "encryptedKey", [], "p:encryptedKey"⟩
            return ⟨scopedWalk.scopes, scopedWalk.opened, g⟩) := by
  have hrun : start.run ((events scopedDocument).items.take 5) = .ok scopedWalk := by
    decide +kernel
  obtain ⟨opened, hopened, -, -, hlength, hscopes, htag, -⟩ :=
    step_within_open_elements (matched_events scopedDocument) (List.take_prefix 5 _) hrun
  obtain ⟨uri, huri, honly, -, hstep⟩ := htag scopedKey
  have hkey : StandsFor (scopedKey :: opened) "p" passwordNamespace := by
    rw [standsFor_iff, List.map_cons, ← hscopes]
    decide
  obtain rfl := honly _ hkey
  exact ⟨hrun, opened, hopened, hlength.symm, hkey, hstep⟩

end Walk

end Descriptor

end PageVault
