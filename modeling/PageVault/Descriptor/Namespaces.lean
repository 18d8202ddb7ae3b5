import PageVault.Markup.Element

/-!
# Namespaces in scope

Every open element has a frame with the namespace declarations of its tag.  The
URI of an element is the one that its qualifier stands for in the innermost frame
that declares it; a qualifier that no frame declares stands for the empty URI.
-/

namespace PageVault.Descriptor

open Markup

def encryptionNamespace : String :=
  "http://schemas.microsoft.com/office/2006/encryption"

/-- The namespace, and the kind, of key encryptors for a password. -/
def passwordNamespace : String :=
  "http://schemas.microsoft.com/office/2006/keyEncryptor/password"

/-- The namespace, and the kind, of key encryptors for a certificate. -/
def certificateNamespace : String :=
  "http://schemas.microsoft.com/office/2006/keyEncryptor/certificate"

/-- The declarations of one element: qualifiers and what they stand for, in order. -/
abbrev Frame : Type := List (String × String)

/-- The frames of the open elements, innermost first. -/
abbrev Scopes : Type := List Frame

def uriOf (scopes : Scopes) (qualifier : String) : String :=
  (scopes.findSome? fun frame => frame.lookup qualifier).getD ""

/-- An element as its meaning depends on it: its URI, its local name, and its
attributes other than namespace declarations, by local name.  The name as written
is kept for messages. -/
structure Resolved where
  uri : String
  localName : String
  values : List (String × String)
  written : String
deriving DecidableEq

/-- An element resolved in the scopes that include its own frame. -/
def resolve (scopes : Scopes) (e : Element) : Resolved where
  uri := uriOf scopes (e.name.qualifier.getD "")
  localName := e.name.localName
  values := e.values
  written := e.name.written

theorem uriOf_cons (frame : Frame) (scopes : Scopes) (qualifier : String) :
    uriOf (frame :: scopes) qualifier
      = ((frame.lookup qualifier).getD (uriOf scopes qualifier)) := by
  cases h : frame.lookup qualifier <;> simp [uriOf, h]

end PageVault.Descriptor
