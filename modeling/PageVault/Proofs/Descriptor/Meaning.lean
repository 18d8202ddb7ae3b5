import Mathlib.Data.List.Forall2
import PageVault.Proofs.Descriptor.Document

/-!
# What a document means

A descriptor is read from the namespace-resolved elements of its document and from nothing
else.  `marks` is the document as far as that goes: where an element begins, what it means,
that is its URI, its local name and its attributes by local name, and where it ends.  How
qualifiers are spelled, and on which element a namespace is declared, is not in it.

`follow` reads marks the way the walk reads events, and the two keep step
(`toOption_run`).  So two documents with the same marks have the same descriptor, or neither
has one (`ofEvents_eq_ok_of_marks`).

§1 marks · §2 reading marks · §3 the walk keeps step · §4 renamed qualifiers.
-/

namespace PageVault.Descriptor

open Markup

/-! ## §1  Marks -/

/-- What an element means. -/
structure Meaning where
  uri : String
  localName : String
  values : List (String × String)
deriving DecidableEq

/-- The meaning of an element whose tag is within the given scopes; its own declarations
count too. -/
def Meaning.of (scopes : Scopes) (e : Element) : Meaning where
  uri := uriOf (e.declarations :: scopes) (e.name.qualifier.getD "")
  localName := e.name.localName
  values := e.values

/-- An element begins, or the innermost open one ends. -/
inductive Mark where
  | enter (meaning : Meaning)
  | leave
deriving DecidableEq

/-- An element without content begins and ends at once. -/
def marksOf (scopes : Scopes) : Event → List Mark
  | .start e => [.enter (.of scopes e)]
  | .empty e => [.enter (.of scopes e), .leave]
  | .close => [.leave]

/-- The scopes after an event. -/
def Scopes.next (scopes : Scopes) : Event → Scopes
  | .start e => e.declarations :: scopes
  | .empty _ => scopes
  | .close => scopes.tail

/-- The scopes after events in a row. -/
def Scopes.after (scopes : Scopes) (es : List Event) : Scopes :=
  es.foldl Scopes.next scopes

/-- The marks of a document, or of a part of one that begins within the given scopes. -/
def marks : Scopes → List Event → List Mark
  | _, [] => []
  | scopes, e :: es => marksOf scopes e ++ marks (scopes.next e) es

theorem marks_append (scopes : Scopes) (es fs : List Event) :
    marks scopes (es ++ fs) = marks scopes es ++ marks (scopes.after es) fs := by
  induction es generalizing scopes with
  | nil => rfl
  | cons e es ih =>
      show marksOf scopes e ++ marks (scopes.next e) (es ++ fs) = _
      rw [ih, ← List.append_assoc]
      rfl

/-! ## §2  Reading marks -/

/-- What counts of a walk when its scopes are left aside. -/
structure Progress where
  /-- The regions of the open elements, innermost first. -/
  opened : List Region
  gathered : Gathered
deriving DecidableEq

/-- An element with the given meaning; how its name was written matters to messages only. -/
def Meaning.resolved (m : Meaning) (written : String) : Resolved :=
  ⟨m.uri, m.localName, m.values, written⟩

/-- What is kept after an element with the given meaning, and its region, unless it is a root
that no descriptor has. -/
def Gathered.enter (g : Gathered) (opened : List Region) (m : Meaning) :
    Option (Gathered × Region) :=
  (g.visit opened (m.resolved "")).toOption

/-- The name as written decides about the text of an error, but not whether there is one. -/
theorem Gathered.toOption_visit (g : Gathered) (opened : List Region) (m : Meaning)
    (written : String) : (g.visit opened (m.resolved written)).toOption = g.enter opened m := by
  unfold enter visit
  by_cases hroot : g.sawRoot = false
  · rw [if_pos hroot, if_pos hroot]
    by_cases hname : m.localName = "encryption" ∧ m.uri = encryptionNamespace
    · exact congrArg Except.toOption ((if_pos hname).trans (if_pos hname).symm)
    · have hfail : ∀ w, (if (m.resolved w).localName = "encryption"
          ∧ (m.resolved w).uri = encryptionNamespace then
            (.ok ({ g with sawRoot := true }, .other) : Except Error (Gathered × Region))
          else .error (.configuration (.unexpectedRoot (m.resolved w).written))).toOption = none := by
        intro w
        rw [if_neg (show ¬ ((m.resolved w).localName = "encryption"
          ∧ (m.resolved w).uri = encryptionNamespace) from hname)]
        rfl
      rw [hfail, hfail]
  · rw [if_neg hroot, if_neg hroot]
    rfl

def Progress.step (p : Progress) : Mark → Option Progress
  | .enter m => (p.gathered.enter p.opened m).map fun r => ⟨r.2 :: p.opened, r.1⟩
  | .leave => some ⟨p.opened.tail, p.gathered⟩

/-- Marks read one after another. -/
def Progress.follow (p : Progress) (ms : List Mark) : Option Progress :=
  ms.foldlM Progress.step p

theorem Progress.follow_enter (p : Progress) (m : Meaning) (ms : List Mark) :
    p.follow (.enter m :: ms)
      = (p.gathered.enter p.opened m).bind fun r =>
          (⟨r.2 :: p.opened, r.1⟩ : Progress).follow ms := by
  show Option.bind (Option.map _ (p.gathered.enter p.opened m)) _ = _
  cases p.gathered.enter p.opened m with
  | none => rfl
  | some r => rfl

theorem Progress.follow_append (p : Progress) (ms ns : List Mark) :
    p.follow (ms ++ ns) = (p.follow ms).bind fun p' => p'.follow ns :=
  List.foldlM_append

/-! ## §3  The walk keeps step -/

def Walk.progress (w : Walk) : Progress :=
  ⟨w.opened, w.gathered⟩

theorem Walk.toOption_bind_visit {α : Type} (w : Walk) (e : Element)
    (f : Gathered × Region → Except Error α) :
    (w.gathered.visit w.opened (resolve (e.declarations :: w.scopes) e) >>= f).toOption
      = (w.gathered.enter w.opened (.of w.scopes e)).bind fun r => (f r).toOption := by
  rw [← Gathered.toOption_visit _ _ _ e.name.written]
  show _ = (w.gathered.visit w.opened (resolve (e.declarations :: w.scopes) e)).toOption.bind _
  cases w.gathered.visit w.opened (resolve (e.declarations :: w.scopes) e) with
  | error err => rfl
  | ok r => rfl

/-- One event moves the walk as its marks do, and changes the scopes as events do. -/
theorem Walk.toOption_step (w : Walk) (e : Event) :
    (w.step e).toOption
      = (w.progress.follow (marksOf w.scopes e)).map fun p =>
          ⟨w.scopes.next e, p.opened, p.gathered⟩ := by
  cases e with
  | start e =>
      refine (w.toOption_bind_visit e _).trans ?_
      show _ = Option.map _
        (Option.bind (Option.map _ (w.gathered.enter w.opened (.of w.scopes e))) some)
      cases w.gathered.enter w.opened (.of w.scopes e) with
      | none => rfl
      | some r => rfl
  | empty e =>
      refine (w.toOption_bind_visit e _).trans ?_
      show _ = Option.map _
        (Option.bind (Option.map _ (w.gathered.enter w.opened (.of w.scopes e))) _)
      cases w.gathered.enter w.opened (.of w.scopes e) with
      | none => rfl
      | some r => rfl
  | close => rfl

/-- **A walk goes where its marks lead.** -/
theorem Walk.toOption_run (w : Walk) (es : List Event) :
    ((w.run es).toOption).map Walk.progress = w.progress.follow (marks w.scopes es) := by
  induction es generalizing w with
  | nil => rfl
  | cons e es ih =>
      have hstep := w.toOption_step e
      show Option.map _ (Except.toOption (w.step e >>= fun w' => w'.run es)) = _
      rw [marks, Progress.follow_append]
      cases hw : w.step e with
      | error err =>
          rw [hw] at hstep
          cases hf : w.progress.follow (marksOf w.scopes e) with
          | none => rfl
          | some p =>
              rw [hf] at hstep
              cases hstep
      | ok w' =>
          rw [hw] at hstep
          cases hf : w.progress.follow (marksOf w.scopes e) with
          | none =>
              rw [hf] at hstep
              cases hstep
          | some p =>
              rw [hf] at hstep
              cases hstep
              exact ih _

/-- **A document has the descriptor that its marks lead to.** -/
theorem ofEvents_eq_ok_iff {es : List Event} {d : Descriptor} :
    ofEvents es = .ok d
      ↔ ∃ p, (⟨[], .nothing⟩ : Progress).follow (marks [] es) = some p
        ∧ p.gathered.build = .ok d := by
  have hrun : _ = (⟨[], .nothing⟩ : Progress).follow (marks [] es) := Walk.start.toOption_run es
  rw [← hrun]
  unfold ofEvents
  cases Walk.start.run es with
  | error err => exact iff_of_false nofun (by rintro ⟨p, ⟨⟩, -⟩)
  | ok w =>
      constructor
      · intro h
        exact ⟨w.progress, rfl, h⟩
      · rintro ⟨p, hp, hb⟩
        cases hp
        exact hb

/-- Documents with the same marks have the same descriptor. -/
theorem ofEvents_eq_ok_of_marks {es fs : List Event} (h : marks [] es = marks [] fs)
    (d : Descriptor) : ofEvents es = .ok d ↔ ofEvents fs = .ok d := by
  rw [ofEvents_eq_ok_iff, ofEvents_eq_ok_iff, h]

/-- The bytes hold a document that is read to its end, and these are its events. -/
def HasEvents (b : Bytes) (es : List Event) : Prop :=
  ∃ cs, text? b = some cs ∧ events cs = ⟨es, none⟩

theorem ofBytes_of_hasEvents {b : Bytes} {es : List Event} (h : HasEvents b es) :
    ofBytes b = ofEvents es := by
  obtain ⟨cs, htext, hevents⟩ := h
  unfold ofBytes
  rw [htext]
  show ofSequence (events cs) = _
  rw [hevents]
  rfl

theorem hasEvents_utf8 {cs : List Char} {es : List Event}
    (hi : (events ('<' :: cs ++ ['>'])).items = es)
    (hf : (events ('<' :: cs ++ ['>'])).fault = none) :
    HasEvents (utf8 ('<' :: cs ++ ['>'])) es := by
  refine ⟨'<' :: cs ++ ['>'], text?_utf8 cs, ?_⟩
  rw [← hi, ← hf]

/-! ## §4  Renamed qualifiers -/

/-- Tags that differ in their qualifiers only, those in use and those declared; the default
namespace has the empty qualifier. -/
structure Element.Renamed (rename : String → String) (e f : Element) : Prop where
  qualifier_eq : f.name.qualifier.getD "" = rename (e.name.qualifier.getD "")
  localName_eq : f.name.localName = e.name.localName
  declarations_eq : f.declarations = e.declarations.map fun d => (rename d.1, d.2)
  values_eq : f.values = e.values

/-- Events that differ in the qualifiers of their tags only. -/
inductive EventRenamed (rename : String → String) : Event → Event → Prop
  | start {e f : Element} (h : Element.Renamed rename e f) :
      EventRenamed rename (.start e) (.start f)
  | empty {e f : Element} (h : Element.Renamed rename e f) :
      EventRenamed rename (.empty e) (.empty f)
  | close : EventRenamed rename .close .close

/-- The scopes with all declared qualifiers renamed. -/
def Scopes.renamed (scopes : Scopes) (rename : String → String) : Scopes :=
  scopes.map fun frame => frame.map fun d => (rename d.1, d.2)

theorem lookup_map_rename {rename : String → String} (hr : Function.Injective rename)
    (frame : Frame) (q : String) :
    (frame.map fun d => (rename d.1, d.2)).lookup (rename q) = frame.lookup q := by
  induction frame with
  | nil => rfl
  | cons d frame ih =>
      obtain ⟨p, uri⟩ := d
      have hbeq : (rename q == rename p) = (q == p) := by
        rw [Bool.eq_iff_iff, beq_iff_eq, beq_iff_eq]
        exact hr.eq_iff
      simp only [List.map_cons, List.lookup_cons, hbeq, ih]

/-- What a qualifier stands for does not depend on its spelling. -/
theorem uriOf_renamed {rename : String → String} (hr : Function.Injective rename)
    (scopes : Scopes) (q : String) : uriOf (scopes.renamed rename) (rename q) = uriOf scopes q := by
  induction scopes with
  | nil => rfl
  | cons frame scopes ih =>
      show uriOf (_ :: Scopes.renamed scopes rename) _ = _
      rw [uriOf_cons, uriOf_cons, lookup_map_rename hr, ih]

theorem Element.Renamed.meaning_eq {rename : String → String} (hr : Function.Injective rename)
    {e f : Element} (h : Element.Renamed rename e f) (scopes : Scopes) :
    Meaning.of (scopes.renamed rename) f = Meaning.of scopes e := by
  unfold Meaning.of
  rw [h.qualifier_eq, h.localName_eq, h.declarations_eq, h.values_eq]
  congr 1
  exact uriOf_renamed hr (e.declarations :: scopes) _

/-- **Renaming qualifiers does not change the marks of a document.** -/
theorem marks_renamed {rename : String → String} (hr : Function.Injective rename)
    {es fs : List Event} (h : List.Forall₂ (EventRenamed rename) es fs) (scopes : Scopes) :
    marks (scopes.renamed rename) fs = marks scopes es := by
  induction h generalizing scopes with
  | nil => rfl
  | @cons e f es fs he hes ih =>
      have hmarks : marksOf (scopes.renamed rename) f = marksOf scopes e := by
        cases he with
        | start h => exact congrArg (fun m => [Mark.enter m]) (h.meaning_eq hr scopes)
        | empty h => exact congrArg (fun m => [Mark.enter m, Mark.leave]) (h.meaning_eq hr scopes)
        | close => rfl
      have hnext : (scopes.renamed rename).next f = (scopes.next e).renamed rename := by
        cases he with
        | start h => exact congrArg (· :: scopes.renamed rename) h.declarations_eq
        | empty h => rfl
        | close => exact List.map_tail.symm
      show marksOf _ f ++ marks _ fs = marksOf scopes e ++ marks _ es
      rw [hmarks, hnext, ih]

end PageVault.Descriptor
