import PageVault.Text.Invisible

/-!
# Quoted text

Error texts show a refused value between double quotes.  Inside, a quote and a
backslash are preceded by a backslash, tab, line feed, carriage return and NUL
have a letter or digit of their own, and a character without a shape of its own
is written by its number in hexadecimal.  Everything else stands for itself.
-/

namespace PageVault.Text

def quotedChar (c : Char) : List Char :=
  if c = '\x00' then ['\\', '0']
  else if c = '\t' then ['\\', 't']
  else if c = '\n' then ['\\', 'n']
  else if c = '\r' then ['\\', 'r']
  else if c = '"' then ['\\', '"']
  else if c = '\\' then ['\\', '\\']
  else if isInvisible c then ['\\', 'u', '\x7b'] ++ Nat.toDigits 16 c.toNat ++ ['\x7d']
  else [c]

def quoted (s : String) : String :=
  String.ofList ('"' :: s.toList.flatMap quotedChar ++ ['"'])

end PageVault.Text
