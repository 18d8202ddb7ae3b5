import PageVault.Bytes
import PageVault.Text.Numeral

/-!
# What a page is transformed with

A key, and for chained block ciphers an initialisation vector.
-/

namespace PageVault

/-- The key of one page, and its initialisation vector if it has one. -/
structure PageParams where
  key : Bytes
  iv : Option Bytes
deriving DecidableEq

namespace PageParams

def ofKey (key : Bytes) : PageParams :=
  ⟨key, none⟩

def describe (p : PageParams) : String :=
  let vector :=
    match p.iv with
    | none => "None"
    | some iv => "Some(" ++ Text.decimal iv.length ++ ")"
  "CipherParams \x7b key_len: " ++ Text.decimal p.key.length ++ ", iv_len: " ++ vector ++ " \x7d"

end PageParams

end PageVault
