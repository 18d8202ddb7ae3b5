import PageVault.Cursor
import PageVault.Keys.Params
import PageVault.Layout

/-!
# Jet keys

Four bytes of the header are the key of every page, after the page number has been
mixed into them.  No password takes part.  A key of zeros says that pages are
stored as they are.
-/

namespace PageVault

structure JetKeys where
  encodingKey : Bytes
deriving DecidableEq

namespace JetKeys

def encodingKeyLength : Nat := 4

def params (keys : JetKeys) (page : UInt32) : PageParams :=
  .ofKey (Bytes.withPageNumber 0 page keys.encodingKey)

end JetKeys

/-- The encoding key in a header; `name` names it in messages. -/
def Layout.encodingKey (layout : Layout) (name : String) (header : Bytes) : Except Error Bytes :=
  Bytes.field layout.encodingKeyOffset.toNat JetKeys.encodingKeyLength name header

end PageVault
