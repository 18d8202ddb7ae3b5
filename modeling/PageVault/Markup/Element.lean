/-!
# Elements and attributes

A name may be qualified: what stands before its first colon refers to a namespace
declaration, what follows is the local name.  Attribute values are kept exactly
as written; references in them are not expanded.
-/

namespace PageVault.Markup

/-- The white space of markup: space, tab, line feed and carriage return. -/
def isBlank (c : Char) : Bool :=
  c == ' ' || c == '\t' || c == '\n' || c == '\r'

structure QName where
  /-- What stands before the colon, if there is one. -/
  qualifier : Option String
  localName : String
deriving DecidableEq

namespace QName

/-- A written name, parted at its first colon. -/
def ofChars (cs : List Char) : QName :=
  match cs.dropWhile (· != ':') with
  | [] => ⟨none, String.ofList cs⟩
  | _ :: rest => ⟨some (String.ofList (cs.takeWhile (· != ':'))), String.ofList rest⟩

def written (n : QName) : String :=
  match n.qualifier with
  | none => n.localName
  | some q => q ++ ":" ++ n.localName

end QName

structure Attribute where
  name : QName
  value : String
deriving DecidableEq

namespace Attribute

/-- The namespace declaration that an attribute makes: the qualifier it declares,
empty for the default namespace, and the URI that the qualifier stands for. -/
def declaration? (a : Attribute) : Option (String × String) :=
  match a.name.qualifier with
  | none => if a.name.localName = "xmlns" then some ("", a.value) else none
  | some q => if q = "xmlns" then some (a.name.localName, a.value) else none

end Attribute

/-- A tag that opens an element, or is one. -/
structure Element where
  name : QName
  attributes : List Attribute
deriving DecidableEq

namespace Element

def declarations (e : Element) : List (String × String) :=
  e.attributes.filterMap Attribute.declaration?

/-- The attributes that are not namespace declarations, by local name, in order. -/
def values (e : Element) : List (String × String) :=
  (e.attributes.filter fun a => a.declaration?.isNone).map fun a => (a.name.localName, a.value)

end Element

end PageVault.Markup
