import Catalogue.Text.Printable

/-!
Quoted text: the text between quotes, with every character that would not show itself escaped.
Single quotes are used unless the text holds one and no double quote.
-/

namespace Catalogue.Text

def hexadecimal : (width : Nat) → (n : Nat) → List Char
  | 0, _ => []
  | width + 1, n => hexadecimal width (n / 16) ++ [Nat.digitChar (n % 16)]

/-- The mark that encloses a text. -/
def quoteMark (s : List Char) : Char :=
  if s.contains '\'' && !s.contains '"' then '"' else '\''

def escapeChar (mark c : Char) : List Char :=
  if c = mark ∨ c = '\\' then ['\\', c]
  else if c = '\n' then ['\\', 'n']
  else if c = '\r' then ['\\', 'r']
  else if c = '\t' then ['\\', 't']
  else if isPrintable c then [c]
  else if c.toNat < 0x100 then '\\' :: 'x' :: hexadecimal 2 c.toNat
  else if c.toNat < 0x10000 then '\\' :: 'u' :: hexadecimal 4 c.toNat
  else '\\' :: 'U' :: hexadecimal 8 c.toNat

def quoted (s : String) : String :=
  let mark := quoteMark s.toList
  .ofList (mark :: s.toList.flatMap (escapeChar mark) ++ [mark])

def quotedOctets (octets : ByteArray) : String :=
  let chars := octets.toList.map fun o => Char.ofNat o.toNat
  let mark := quoteMark chars
  let escape := fun c : Char =>
    if c.toNat < 0x7f then escapeChar mark c else '\\' :: 'x' :: hexadecimal 2 c.toNat
  .ofList ('b' :: mark :: chars.flatMap escape ++ [mark])

end Catalogue.Text
