import Catalogue.Number.Binary64
import Catalogue.Text.Numeral

/-!
Decimal notation of floating-point numbers: a sign, digits with an optional point and an optional
exponent, or one of the words for infinity and for no number.
-/

namespace Catalogue.Number

def ofDigitChars (s : List Char) : Nat :=
  Text.ofDigits (s.map fun c => c.toNat - '0'.toNat)

def exponent? : List Char → Option Int
  | [] => some 0
  | c :: rest =>
    if c = 'e' ∨ c = 'E' then
      let (negative, digits) := match rest with
        | '-' :: ds => (true, ds)
        | '+' :: ds => (false, ds)
        | ds => (false, ds)
      if digits.isEmpty || !digits.all Char.isDigit then none
      else
        let n : Int := ofDigitChars digits
        some (if negative then -n else n)
    else none

def unsigned? (negative : Bool) (s : List Char) : Option Binary64 :=
  let (whole, rest) := s.span Char.isDigit
  let (fraction, rest) := match rest with
    | '.' :: tail => tail.span Char.isDigit
    | _ => ([], rest)
  if whole.isEmpty && fraction.isEmpty then none
  else (exponent? rest).map fun e =>
    .ofDecimal negative (ofDigitChars (whole ++ fraction)) (e - fraction.length)

def Binary64.ofText? (s : List Char) : Option Binary64 :=
  let (negative, body) := match s with
    | '-' :: rest => (true, rest)
    | '+' :: rest => (false, rest)
    | _ => (false, s)
  let word := String.ofList (body.map Char.toLower)
  if word == "inf" || word == "infinity" then some (.infinite negative)
  else if word == "nan" then some .nan
  else unsigned? negative body

end Catalogue.Number
