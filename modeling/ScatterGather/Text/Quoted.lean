import ScatterGather.Text.Visible

/-!
# Quoted — text between double quotes

* `Text.escape` : one character as it stands between quotes.
* `Text.quote` : a whole text, so that the result shows every character that it holds.
-/

namespace ScatterGather

namespace Text

/-- The hexadecimal code point of a character between braces. -/
def codePoint (c : Char) : List Char :=
  '\\' :: 'u' :: '\x7b' :: Nat.toDigits 16 c.toNat ++ ['\x7d']

def escape (c : Char) : List Char :=
  if c = '\x00' then ['\\', '0']
  else if c = '\t' then ['\\', 't']
  else if c = '\r' then ['\\', 'r']
  else if c = '\n' then ['\\', 'n']
  else if c = '"' ∨ c = '\\' then ['\\', c]
  else if isHidden c then codePoint c
  else [c]

def quote (s : String) : String :=
  String.ofList ('"' :: s.toList.flatMap escape ++ ['"'])

end Text

end ScatterGather
