import Catalogue.Calendar.Moment
import Catalogue.Field.Conversion

/-!
The written forms of dates and times that a lenient type rule accepts: hyphens and colons in fixed
places, or a count of seconds (of milliseconds when it is large) since the start of 1970.
-/

namespace Catalogue.TimeForm

open Number (Binary64)
open Calendar (Date)

def digits? (count : Nat) (s : List Char) : Option (Nat × List Char) :=
  let ds := s.take count
  if ds.length = count ∧ ds.all Char.isDigit then some (Number.ofDigitChars ds, s.drop count)
  else none

def mark? (c : Char) : List Char → Option (List Char)
  | d :: rest => if c = d then some rest else none
  | [] => none

def date? (s : List Char) : Option (Date × List Char) := do
  let (year, s) ← digits? 4 s
  let (month, s) ← digits? 2 (← mark? '-' s)
  let (day, s) ← digits? 2 (← mark? '-' s)
  return (← Date.ofParts? year month day, s)

/-- Reads seconds with an optional fraction, and says whether they are zero. -/
def seconds? (s : List Char) : Option (Bool × List Char) := do
  let (second, s) ← digits? 2 s
  if 60 ≤ second then none
  match s with
  | '.' :: rest | ',' :: rest =>
    let (fraction, rest) := rest.span Char.isDigit
    if fraction.isEmpty then none
    return (second = 0 ∧ (fraction.take 6).all (· == '0'), rest)
  | _ => return (second = 0, s)

/-- Reads a time of day, and says whether it is midnight. -/
def time? (s : List Char) : Option (Bool × List Char) := do
  let (hour, s) ← digits? 2 s
  let (minute, s) ← digits? 2 (← mark? ':' s)
  if 24 ≤ hour ∨ 60 ≤ minute then none
  let onTheHour := hour = 0 ∧ minute = 0
  match s with
  | ':' :: rest =>
    let (zero, rest) ← seconds? rest
    return (onTheHour ∧ zero, rest)
  | _ => return (onTheHour, s)

/-- Is the rest of a text empty or an offset from universal time? -/
def isOffset (s : List Char) : Bool :=
  match s with
  | [] | ['Z'] | ['z'] => true
  | sign :: rest =>
    (sign = '+' || sign = '-' || sign = '\u2212') &&
      match digits? 2 rest with
      | some (hours, rest) =>
        let rest := (mark? ':' rest).getD rest
        match digits? 2 rest with
        | some (minutes, []) => hours < 24 && minutes < 60
        | _ => false
      | none => false

/-- The second and fraction that a written count stands for; large counts are milliseconds. -/
def instantOf (x : Binary64) : Option Int :=
  x.truncate?.map fun n => if n.natAbs ≤ 20000000000 then n else n.fdiv 1000

/-- Does a count of seconds lie within the years that are accepted? -/
def isInRange (seconds : Int) : Bool :=
  -11676096000 ≤ seconds && seconds ≤ 253402300799

/-- Is a number the count of an accepted moment? With `midnight`, of the start of a day? -/
def isCount (midnight : Bool) (x : Binary64) : Bool :=
  match instantOf x with
  | some seconds => isInRange seconds && (!midnight || (x.isIntegral && seconds % 86400 == 0))
  | none => false

/-- Reads a text as a count: digits with a sign, and perhaps a point among them. -/
def countOfText? (s : List Char) : Option Binary64 :=
  let unsigned := match s with
    | '-' :: rest | '+' :: rest => rest
    | _ => s
  let whole := unsigned.takeWhile Char.isDigit
  match unsigned.drop whole.length with
  | [] | '.' :: _ => Binary64.ofText? s
  | _ => none

/-- Does the text write a moment? With `midnight`, the start of a day? -/
def writesMoment (midnight : Bool) (s : String) : Bool :=
  match date? s.toList with
  | some (_, []) => true
  | some (_, separator :: rest) =>
    ['T', 't', ' ', '_'].contains separator &&
      match time? rest with
      | some (isMidnight, rest) => isOffset rest && (!midnight || isMidnight)
      | none => false
  | none =>
    match countOfText? s.toList with
    | some x => isCount midnight x
    | none => false

def reads (midnight : Bool) : Value → Bool
  | .stamp s => !midnight || s.moment.isMidnight
  | .date _ => true
  | .text s => writesMoment midnight s
  | .bytes octets => ((Conversion.textOf? octets).map (writesMoment midnight)).getD false
  | .int n => isCount midnight (.ofInt n)
  | .float x => isCount midnight x
  | _ => false

def isMoment : Value → Bool := reads false

/-- Can the value be read as a date, that is, as the start of a day? -/
def isDate : Value → Bool := reads true

end Catalogue.TimeForm
