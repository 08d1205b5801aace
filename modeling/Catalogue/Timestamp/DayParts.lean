import Catalogue.Calendar.Date
import Catalogue.Timestamp.Quantity

/-!
The numbers of a timestamp that stand for a day, in the order in which they are met, and which of
them is the year, the month and the day.
-/

namespace Catalogue.Timestamp

/-- Up to three numbers, with the places of the year and the month where these are known. -/
structure DayParts where
  values : List Nat := []
  yearAt : Option Nat := none
  monthAt : Option Nat := none
  /-- Was a year written with its century? -/
  century : Bool := false

/-- Year, month and day, as far as they are given. -/
structure DayFields where
  year : Option Nat := none
  month : Option Nat := none
  day : Option Nat := none

namespace DayParts

def size (p : DayParts) : Nat :=
  p.values.length

def push (p : DayParts) (n : Nat) : DayParts :=
  { p with values := p.values ++ [n] }

def pushMonth (p : DayParts) (n : Nat) : Except Problem DayParts :=
  if p.monthAt.isSome then .error .unreadable
  else .ok { p.push n with monthAt := some p.size }

/-- Adds a year that is written with its century. -/
def pushYear (p : DayParts) (n : Nat) : Except Problem DayParts :=
  if p.yearAt.isSome then .error .unreadable
  else .ok { p.push n with yearAt := some p.size, century := true }

def isLongRun (t : Token) : Bool :=
  2 < t.length && t.all Text.isDigit

/-- Adds the number that a token writes; more than two digits are a year. -/
def pushToken (p : DayParts) (t : Token) : Except Problem DayParts := do
  let n ← natural t
  if isLongRun t then p.pushYear n else return p.push n

/-- Adds a number that was read as a decimal; above 100 it is a year. -/
def pushQuantity (p : DayParts) (q : Quantity) : Except Problem DayParts :=
  if q.atMost 100 then .ok (p.push q.whole) else p.pushYear q.whole

def couldBeDay (p : DayParts) (q : Quantity) : Bool :=
  let last := match p.monthAt, p.yearAt with
    | none, _ => 31
    | some m, none => Calendar.daysInMonth 2000 (p.values.getD m 1)
    | some m, some y => Calendar.daysInMonth (p.values.getD y 2000) (p.values.getD m 1)
  q.atLeast 1 && q.atMost last

def known (p : DayParts) : DayFields :=
  let other := (List.range 3).find? fun i => some i != p.yearAt && some i != p.monthAt
  { year := p.yearAt.bind fun i => p.values[i]?
    month := p.monthAt.bind fun i => p.values[i]?
    day := if p.size = 3 then other.bind fun i => p.values[i]? else none }

/-- Tells year, month and day apart by their places and sizes. -/
def resolve (p : DayParts) : Except Problem DayFields :=
  let marked := p.yearAt.toList.length + p.monthAt.toList.length
  if (p.size = marked ∧ 0 < marked) ∨ (p.size = 3 ∧ marked = 2) then .ok p.known
  else match p.values, p.monthAt with
    | [], _ => .ok { }
    | [a], _ => .ok (if 31 < a then { year := some a } else { day := some a })
    | [a, b], some m =>
      let (month, other) := if m = 0 then (a, b) else (b, a)
      .ok (if 31 < other then { month := some month, year := some other }
        else { month := some month, day := some other })
    | [a, b], none =>
      .ok (if 31 < a then { year := some a, month := some b }
        else if 31 < b then { month := some a, year := some b }
        else { month := some a, day := some b })
    | [a, b, c], some 0 =>
      .ok (if 31 < b then { month := some a, year := some b, day := some c }
        else { month := some a, day := some b, year := some c })
    | [a, b, c], some 1 =>
      .ok (if 31 < a then { year := some a, month := some b, day := some c }
        else { day := some a, month := some b, year := some c })
    | [a, b, c], some _ =>
      .ok (if 31 < b then { day := some a, year := some b, month := some c }
        else { year := some a, day := some b, month := some c })
    | [a, b, c], none =>
      .ok (if 31 < a ∨ p.yearAt = some 0 then { year := some a, month := some b, day := some c }
        else if 12 < a then { day := some a, month := some b, year := some c }
        else { month := some a, day := some b, year := some c })
    | _, _ => .error .unreadable

end DayParts

end Catalogue.Timestamp
