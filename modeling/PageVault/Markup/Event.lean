import PageVault.Markup.Tag

/-!
# Events

A document is seen as its sequence of events: an element begins, an element
without content appears, the innermost open element ends.  A closing tag has to
repeat the name of the tag it closes; elements may still be open at the end, and
several may stand side by side at the top.

Reading stops at the first fault.  What was read before it stands, because it may
already be refused for other reasons.
-/

namespace PageVault.Markup

/-- One step through the nesting of a document. -/
inductive Event where
  | start (element : Element)
  | empty (element : Element)
  | close
deriving DecidableEq

/-- The events of a sequence of tags, within elements of the given names, innermost
first. -/
def eventsWithin : (opened : List (List Char)) → List Tag → Sequence Event
  | _, [] => .done
  | opened, .opening name attributes :: tags =>
      match attributes with
      | some as => (eventsWithin (name :: opened) tags).cons (.start ⟨QName.ofChars name, as⟩)
      | none => .stopped .descriptorAttribute
  | opened, .empty name attributes :: tags =>
      match attributes with
      | some as => (eventsWithin opened tags).cons (.empty ⟨QName.ofChars name, as⟩)
      | none => .stopped .descriptorAttribute
  | [], .closing _ :: _ => .stopped .descriptorMarkup
  | inner :: opened, .closing name :: tags =>
      if name = inner then (eventsWithin opened tags).cons .close
      else .stopped .descriptorMarkup

def events (cs : List Char) : Sequence Event :=
  let cut := tags cs
  let found := eventsWithin [] cut.items
  ⟨found.items, found.fault.orElse fun _ => cut.fault⟩

end PageVault.Markup
