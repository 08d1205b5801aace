import Catalogue.Calendar.Moment
import Catalogue.Timestamp.Reading

/-!
Free-form timestamps. Parts that a timestamp leaves out come from the current day; a day of the
week without a day of the month moves forward to that weekday.
-/

namespace Catalogue.Timestamp

open Calendar (Date Moment Stamp)

def Reading.isEmpty (r : Reading) (day : DayFields) : Bool :=
  day.year.isNone && day.month.isNone && day.day.isNone && r.weekday.isNone && r.hour.isNone &&
    r.minute.isNone && r.second.isNone && r.microsecond.isNone

/-- The date of a reading. Only a day that was left out gives way to the length of the month. -/
def dateOf (today : Date) (day : DayFields) (weekday : Option Nat) : Except Problem Date := do
  let year := day.year.getD today.year
  let month := day.month.getD today.month
  match day.day with
  | some d => require (Date.ofParts? year month d)
  | none =>
    let date ← require (Date.ofParts? year month (min today.day (Calendar.daysInMonth year month)))
    match weekday with
    | some w => require (date.later? ((7 - date.weekday + w) % 7))
    | none => return date

def Reading.offset? (r : Reading) : Option Int :=
  match r.zoneName with
  | some name => if isUniversal name then some 0 else r.zoneOffset
  | none => r.zoneOffset

def Reading.stamp (today : Date) (r : Reading) : Except Problem Stamp := do
  let day ← r.parts.resolve
  if r.isEmpty day then .error .unreadable
  let year := if r.parts.century then day.year else day.year.map (fullYear today.year)
  let date ← dateOf today { day with year } r.weekday
  let moment ← require (Moment.ofParts? date (r.hour.getD 0) (r.minute.getD 0) (r.second.getD 0)
    (r.microsecond.getD 0))
  return { moment, offset := r.offset? }

def read (today : Date) (s : String) : Except Problem Stamp := do
  let ts := tokens s.toList
  let r ← readTokens today.year ts.length [] ts { }
  r.stamp today

/-- Reads a timestamp and turns it into universal time. Offsets of a day or more are refused. -/
def readUniversal (today : Date) (s : String) : Except Problem Moment := do
  let stamp ← read today s
  if 86400 ≤ (stamp.offset.getD 0).natAbs then .error .unreadable
  require stamp.universal?

end Catalogue.Timestamp
