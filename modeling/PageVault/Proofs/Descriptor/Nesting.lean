import Mathlib.Data.List.Induction
import PageVault.Proofs.Descriptor.Insertion

/-!
# Open elements

Events are matched if never more elements have ended than have begun.  That is so for the
events of every document (`matched_events`), also where it is read only in part.

After matched events some elements are open.  `Within` says which, innermost first, by the
shape of the events and not by a stack: in front of the tag of every open element, and behind
the innermost one, there are complete elements only.  Whatever the events are, there are such
elements (`Matched.exists_within`), and as many as have begun without an end
(`Within.length_add_closes`).

§1 matched events · §2 documents · §3 complete elements · §4 open elements.
-/

namespace PageVault.Descriptor

open Markup

/-! ## §1  Matched events -/

def isStart : Event → Bool
  | .start _ => true
  | .empty _ => false
  | .close => false

/-- How many elements begin that have their end in another event. -/
def starts (es : List Event) : Nat :=
  es.countP isStart

@[simp] theorem starts_nil : starts [] = 0 := rfl

@[simp] theorem starts_start (e : Element) (es : List Event) :
    starts (.start e :: es) = starts es + 1 :=
  List.countP_cons_of_pos rfl

@[simp] theorem starts_empty (e : Element) (es : List Event) :
    starts (.empty e :: es) = starts es :=
  List.countP_cons_of_neg nofun

@[simp] theorem starts_close (es : List Event) : starts (.close :: es) = starts es :=
  List.countP_cons_of_neg (by decide)

@[simp] theorem starts_append (es fs : List Event) : starts (es ++ fs) = starts es + starts fs :=
  List.countP_append

/-- Nothing ends that has not begun. -/
def Matched (es : List Event) : Prop :=
  ∀ part, part <+: es → part.count .close ≤ starts part

theorem Matched.of_prefix {part es : List Event} (h : Matched es) (hp : part <+: es) :
    Matched part := by
  intro shorter hs
  exact h shorter (hs.trans hp)

/-! ## §2  Documents -/

/-- The same where some elements are open already: these can end too. -/
def MatchedWithin (depth : Nat) (es : List Event) : Prop :=
  ∀ part, part <+: es → part.count .close ≤ depth + starts part

namespace MatchedWithin

variable {depth : Nat} {es : List Event}

theorem nil : MatchedWithin depth [] := by
  intro part hp
  rw [List.prefix_nil.mp hp]
  exact Nat.zero_le _

theorem start (e : Element) (h : MatchedWithin (depth + 1) es) :
    MatchedWithin depth (.start e :: es) := by
  intro part hp
  rcases List.prefix_cons_iff.mp hp with rfl | ⟨part, rfl, hpart⟩
  · exact Nat.zero_le _
  · have hle := h part hpart
    rw [List.count_cons_of_ne (show Event.start e ≠ .close from nofun), starts_start]
    omega

theorem empty (e : Element) (h : MatchedWithin depth es) :
    MatchedWithin depth (.empty e :: es) := by
  intro part hp
  rcases List.prefix_cons_iff.mp hp with rfl | ⟨part, rfl, hpart⟩
  · exact Nat.zero_le _
  · rw [List.count_cons_of_ne (show Event.empty e ≠ .close from nofun), starts_empty]
    exact h part hpart

theorem close (h : MatchedWithin depth es) : MatchedWithin (depth + 1) (.close :: es) := by
  intro part hp
  rcases List.prefix_cons_iff.mp hp with rfl | ⟨part, rfl, hpart⟩
  · exact Nat.zero_le _
  · have hle := h part hpart
    rw [List.count_cons_self, starts_close]
    omega

end MatchedWithin

/-- A closing tag is an event only where it has something to close. -/
theorem matchedWithin_eventsWithin (opened : List (List Char)) (tags : List Tag) :
    MatchedWithin opened.length (eventsWithin opened tags).items := by
  induction opened, tags using eventsWithin.induct with
  | case1 => exact .nil
  | case2 opened name tags attributes ih => exact .start _ ih
  | case3 => exact .nil
  | case4 opened name tags attributes ih => exact .empty _ ih
  | case5 => exact .nil
  | case6 => exact .nil
  | case7 opened name tags ih =>
      unfold eventsWithin
      rw [if_pos rfl]
      exact .close ih
  | case8 inner opened name tags hname =>
      unfold eventsWithin
      rw [if_neg hname]
      exact .nil

/-- **The events of a document are matched.** -/
theorem matched_events (cs : List Char) : Matched (events cs).items := by
  intro part hp
  have hle := matchedWithin_eventsWithin [] (tags cs).items part hp
  rwa [List.length_nil, Nat.zero_add] at hle

/-! ## §3  Complete elements -/

theorem Siblings.append {es fs : List Event} (h : Siblings es) (hf : Siblings fs) :
    Siblings (es ++ fs) := by
  induction h with
  | nil => exact hf
  | empty e _ ih => exact .empty e ih
  | @element e content rest hc _ _ ih =>
      have hshape : .start e :: (content ++ .close :: rest) ++ fs
          = .start e :: (content ++ .close :: (rest ++ fs)) := by
        simp only [List.cons_append, List.append_assoc]
      rw [hshape]
      exact .element e hc ih

/-- Of complete elements as many have ended as have begun. -/
theorem Siblings.count_close {es : List Event} (h : Siblings es) :
    es.count .close = starts es := by
  induction h with
  | nil => rfl
  | empty e _ ih => simp [ih]
  | @element e content rest _ _ ihc ihr =>
      simp [ihc, ihr]
      omega

/-! ## §4  Open elements -/

/-- After the events these elements are open, innermost first. -/
inductive Within : List Element → List Event → Prop
  | top {es : List Event} (hs : Siblings es) : Within [] es
  | inner {opened : List Element} {es content : List Event} (h : Within opened es) (e : Element)
      (hc : Siblings content) : Within (e :: opened) (es ++ .start e :: content)

namespace Within

variable {opened : List Element} {es fs : List Event} {e : Element}

/-- Complete elements are closed again. -/
theorem append_siblings (h : Within opened es) (hf : Siblings fs) : Within opened (es ++ fs) := by
  cases h with
  | top hs => exact .top (hs.append hf)
  | @inner outer es content h e hc =>
      rw [List.append_assoc]
      exact .inner h e (hc.append hf)

/-- The innermost element ends. -/
theorem close (h : Within (e :: opened) es) : Within opened (es ++ [.close]) := by
  cases h with
  | @inner _ es content h _ hc =>
      have hshape : es ++ .start e :: content ++ [.close]
          = es ++ .start e :: (content ++ [.close]) := by
        simp only [List.append_assoc, List.cons_append]
      rw [hshape]
      exact h.append_siblings (.element e hc .nil)

/-- **As many elements are open as have begun and not ended.** -/
theorem length_add_closes (h : Within opened es) :
    opened.length + es.count .close = starts es := by
  induction h with
  | top hs => simp [hs.count_close]
  | @inner opened es content h e hc ih =>
      simp [hc.count_close]
      omega

end Within

/-- **After matched events there are elements that are open.** -/
theorem Matched.exists_within {es : List Event} (h : Matched es) :
    ∃ opened, Within opened es := by
  induction es using List.reverseRecOn with
  | nil => exact ⟨[], .top .nil⟩
  | append_singleton es event ih =>
      obtain ⟨opened, hw⟩ := ih (h.of_prefix (List.prefix_append es [event]))
      cases event with
      | start e => exact ⟨e :: opened, .inner hw e .nil⟩
      | empty e => exact ⟨opened, hw.append_siblings (.empty e .nil)⟩
      | close =>
          -- An element is open that can end.
          have hle := h (es ++ [.close]) (List.prefix_refl _)
          have hlength := hw.length_add_closes
          rw [List.count_append, starts_append] at hle
          cases opened with
          | nil =>
              simp at hle hlength
              omega
          | cons e opened => exact ⟨opened, hw.close⟩

end PageVault.Descriptor
