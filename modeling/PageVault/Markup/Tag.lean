import PageVault.Error
import PageVault.Markup.Element

/-!
# Tags

Text is cut into tags in one pass, by an automaton that looks at one character at
a time; `Place` says where in the markup it is.  Comments, character data,
instructions and document type declarations are passed over, text between tags
is ignored, but each of them has to be finished.  An angle bracket inside quotes
does not end a tag.

The attributes of a tag are cut in the same way.  A value has to stand in quotes;
between two attributes there need not be a blank, and a name is whatever stands
before the sign of equality.
-/

namespace PageVault.Markup

/-- What was read before reading stopped, and why it stopped, if not at the end. -/
structure Sequence (α : Type) where
  items : List α
  fault : Option FormatFault

namespace Sequence

variable {α : Type}

def done : Sequence α := ⟨[], none⟩

def stopped (fault : FormatFault) : Sequence α := ⟨[], some fault⟩

def cons (a : α) (s : Sequence α) : Sequence α := ⟨a :: s.items, s.fault⟩

end Sequence

/-! ## Attributes -/

/-- Where in the attributes of a tag the automaton is.  What was read of a name or
value is kept in reverse. -/
inductive AttributePlace where
  | between
  | name (seen : List Char)
  | afterName (name : List Char)
  | beforeValue (name : List Char)
  | value (name : List Char) (quote : Char) (seen : List Char)

def attributesFrom : AttributePlace → List Char → Option (List Attribute)
  | .between, [] => some []
  | _, [] => none
  | .between, c :: cs =>
      if isBlank c then attributesFrom .between cs else attributesFrom (.name [c]) cs
  | .name seen, c :: cs =>
      if c = '=' then attributesFrom (.beforeValue seen.reverse) cs
      else if isBlank c then attributesFrom (.afterName seen.reverse) cs
      else attributesFrom (.name (c :: seen)) cs
  | .afterName name, c :: cs =>
      if c = '=' then attributesFrom (.beforeValue name) cs
      else if isBlank c then attributesFrom (.afterName name) cs
      else none
  | .beforeValue name, c :: cs =>
      if c = '"' ∨ c = '\'' then attributesFrom (.value name c []) cs
      else if isBlank c then attributesFrom (.beforeValue name) cs
      else none
  | .value name quote seen, c :: cs =>
      if c = quote then
        (attributesFrom .between cs).map fun rest =>
          ⟨QName.ofChars name, String.ofList seen.reverse⟩ :: rest
      else attributesFrom (.value name quote (c :: seen)) cs

/-- The attributes in what follows the name of a tag. -/
def attributes? (cs : List Char) : Option (List Attribute) :=
  attributesFrom .between cs

/-! ## Tags -/

/-- A tag as it was written.  Its attributes are absent if they are malformed. -/
inductive Tag where
  | opening (name : List Char) (attributes : Option (List Attribute))
  | empty (name : List Char) (attributes : Option (List Attribute))
  | closing (name : List Char)

namespace Tag

def nameOf (cs : List Char) : List Char :=
  cs.takeWhile fun c => !isBlank c

def afterName (cs : List Char) : List Char :=
  cs.dropWhile fun c => !isBlank c

/-- The tag with the given text between the brackets, read in reverse.  A slash at
the end makes it an element without content. -/
def ofReversed : List Char → Tag
  | '/' :: seen => .empty (nameOf seen.reverse) (attributes? (afterName seen.reverse))
  | seen => .opening (nameOf seen.reverse) (attributes? (afterName seen.reverse))

/-- The closing tag with the given text behind the slash, read in reverse.  Blanks
at its end do not belong to the name, unless there is nothing else. -/
def closingOfReversed (seen : List Char) : Tag :=
  match seen.dropWhile isBlank with
  | [] => .closing seen.reverse
  | name => .closing name.reverse

end Tag

/-- The kinds of markup that begin with an exclamation mark. -/
inductive Aside where
  | comment
  | characterData
  | documentType
deriving DecidableEq

namespace Aside

/-- The kind that begins with the given character. -/
def ofChar? (c : Char) : Option Aside :=
  if c = '-' then some comment
  else if c = '[' then some characterData
  else if c = 'D' ∨ c = 'd' then some documentType
  else none

/-- Whether a closing bracket ends the markup, given what was read before it, in
reverse.  Brackets within a document type declaration have to be balanced. -/
def endsAfter : Aside → (seen : List Char) → Bool
  | comment, seen => decide (4 ≤ seen.length) && ['-', '-'].isPrefixOf seen
  | characterData, seen => [']', ']'].isPrefixOf seen
  | documentType, seen => seen.count '<' == seen.count '>'

/-- Whether finished markup has the form it needs. -/
def isWellFormed : Aside → (content : List Char) → Bool
  | comment, content => ['-', '-'].isPrefixOf content
  | characterData, content => "[CDATA[".toList.isPrefixOf content
  | documentType, content =>
      "DOCTYPE".toList.isPrefixOf (content.map Char.toUpper)
        && (content.drop 7).any fun c => !isBlank c

end Aside

/-- Where in the markup the automaton is.  What was read of a piece of markup is
kept in reverse. -/
inductive Place where
  | text
  | bracket
  | exclamation
  /-- In a tag, and in quotes if a `quote` is given. -/
  | tag (closing : Bool) (quote : Option Char) (seen : List Char)
  | instruction (seen : List Char)
  /-- In markup that is passed over. -/
  | aside (kind : Aside) (seen : List Char)

/-- What one character does. -/
inductive Move where
  | on (place : Place)
  | tag (tag : Tag)
  | stop

namespace Place

def moveInTag (closing : Bool) (quote : Option Char) (seen : List Char) (c : Char) : Move :=
  match quote with
  | some q => .on (.tag closing (if c = q then none else some q) (c :: seen))
  | none =>
      if c = '>' then
        .tag (if closing then Tag.closingOfReversed seen else Tag.ofReversed seen)
      else if c = '"' ∨ c = '\'' then .on (.tag closing (some c) (c :: seen))
      else .on (.tag closing none (c :: seen))

/-- One character at a place. -/
def move : Place → Char → Move
  | text, c => .on (if c = '<' then bracket else text)
  | bracket, c =>
      if c = '!' then .on exclamation
      else if c = '/' then .on (tag true none [])
      else if c = '?' then .on (instruction [])
      else moveInTag false none [] c
  | exclamation, c =>
      match Aside.ofChar? c with
      | some kind => .on (aside kind [c])
      | none => .stop
  | tag closing quote seen, c => moveInTag closing quote seen c
  | instruction seen, c =>
      if c = '>' then
        match seen with
        | [] => .stop
        | '?' :: _ => .on text
        | _ => .on (instruction (c :: seen))
      else .on (instruction (c :: seen))
  | aside kind seen, c =>
      if c = '>' ∧ kind.endsAfter seen then
        if kind.isWellFormed seen.reverse then .on text else .stop
      else .on (aside kind (c :: seen))

end Place

/-- The tags from a place on. -/
def tagsFrom : Place → List Char → Sequence Tag
  | .text, [] => .done
  | _, [] => .stopped .descriptorMarkup
  | place, c :: cs =>
      match place.move c with
      | .on place' => tagsFrom place' cs
      | .tag tag => (tagsFrom .text cs).cons tag
      | .stop => .stopped .descriptorMarkup

def tags (cs : List Char) : Sequence Tag :=
  tagsFrom .text cs

end PageVault.Markup
