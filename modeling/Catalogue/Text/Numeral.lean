import Catalogue.Text.Blank
import Catalogue.Text.Digit

/-!
Decimal numerals for integers. A numeral may use the digits of any script and single underscores
between digits; numerals of more than 4300 digits are neither read nor written.
-/

namespace Catalogue.Text

/-- The longest numeral that is read or written. -/
def maxDigits : Nat := 4300

def decimal (n : Nat) : List Char :=
  if n < 10 then [Nat.digitChar n] else decimal (n / 10) ++ [Nat.digitChar (n % 10)]

def padded (width n : Nat) : List Char :=
  let digits := decimal n
  List.replicate (width - digits.length) '0' ++ digits

def signed (n : Int) : List Char :=
  if n < 0 then '-' :: decimal n.natAbs else decimal n.natAbs

/-- The numeral of an integer, unless it would be too long. -/
def signed? (n : Int) : Option String :=
  let digits := decimal n.natAbs
  if digits.length ≤ maxDigits then
    some (.ofList (if n < 0 then '-' :: digits else digits))
  else none

/-- The values of the digits, if every character is one. -/
def digitValues? (s : List Char) : Option (List Nat) :=
  s.mapM decimalValue?

def ofDigits (ds : List Nat) : Nat :=
  ds.foldl (fun n d => 10 * n + d) 0

/-- Removes single underscores that stand between two characters; `none` for any other underscore. -/
def dropSeparators? : List Char → Option (List Char)
  | [] => some []
  | '_' :: _ => none
  | [c] => some [c]
  | c :: '_' :: d :: rest => if d = '_' then none else (dropSeparators? (d :: rest)).map (c :: ·)
  | c :: rest => (dropSeparators? rest).map (c :: ·)

def natural? (s : List Char) : Option Nat := do
  let ds ← digitValues? (← dropSeparators? s)
  if ds.isEmpty || ds.length > maxDigits then none else some (ofDigits ds)

def integer? : List Char → Option Int
  | '-' :: rest => (natural? rest).map fun n => -(n : Int)
  | '+' :: rest => (natural? rest).map Int.ofNat
  | s => (natural? s).map Int.ofNat

/-- Reads a numeral with an optional sign and white space around it. -/
def integerIn? (s : String) : Option Int :=
  integer? (trimBy isWhite s.toList)

end Catalogue.Text
