import Catalogue.Text.Numeral

/-!
Dates of the Gregorian calendar in the years 1 to 9999.
-/

namespace Catalogue.Calendar

def isLeap (year : Nat) : Bool :=
  year % 4 == 0 && (year % 100 != 0 || year % 400 == 0)

def daysInMonth (year month : Nat) : Nat :=
  if month = 2 then (if isLeap year then 29 else 28)
  else if month = 4 ∨ month = 6 ∨ month = 9 ∨ month = 11 then 30
  else 31

def isDay (year month day : Nat) : Bool :=
  1 ≤ year && year ≤ 9999 && 1 ≤ month && month ≤ 12 && 1 ≤ day && day ≤ daysInMonth year month

structure Date where
  year : Nat
  month : Nat
  day : Nat
  valid : isDay year month day = true := by decide
  deriving DecidableEq

namespace Date

instance : Inhabited Date := ⟨{ year := 1, month := 1, day := 1 }⟩

def ofParts? (year month day : Nat) : Option Date :=
  if h : isDay year month day = true then some ⟨year, month, day, h⟩ else none

def daysBeforeYear (year : Nat) : Nat :=
  let y := year - 1
  y * 365 + y / 4 - y / 100 + y / 400

/-- The number of days before a month of a year. -/
def daysBeforeMonth (year : Nat) : (month : Nat) → Nat
  | 0 => 0
  | month + 1 => daysBeforeMonth year month + if month = 0 then 0 else daysInMonth year month

/-- The day's number; the first day of year 1 has number 1. -/
def ordinal (d : Date) : Nat :=
  daysBeforeYear d.year + daysBeforeMonth d.year d.month + d.day

/-- The day of the week, with 0 for Monday. -/
def weekday (d : Date) : Nat :=
  (d.ordinal + 6) % 7

def next? (d : Date) : Option Date :=
  ofParts? d.year d.month (d.day + 1) <|> ofParts? d.year (d.month + 1) 1 <|>
    ofParts? (d.year + 1) 1 1

def previous? (d : Date) : Option Date :=
  if 1 < d.day then ofParts? d.year d.month (d.day - 1)
  else if 1 < d.month then ofParts? d.year (d.month - 1) (daysInMonth d.year (d.month - 1))
  else ofParts? (d.year - 1) 12 31

def later? (d : Date) : (days : Nat) → Option Date
  | 0 => some d
  | days + 1 => d.next?.bind fun next => next.later? days

def text (d : Date) : String :=
  .ofList (Text.padded 4 d.year ++ '-' :: Text.padded 2 d.month ++ '-' :: Text.padded 2 d.day)

end Date

end Catalogue.Calendar
