import Catalogue.Calendar.Date

/-!
Points in time: a date with a time of day, to the microsecond, and the same with an offset from
universal time.
-/

namespace Catalogue.Calendar

def isTime (hour minute second microsecond : Nat) : Bool :=
  hour < 24 && minute < 60 && second < 60 && microsecond < 1000000

structure Moment where
  date : Date
  hour : Nat := 0
  minute : Nat := 0
  second : Nat := 0
  microsecond : Nat := 0
  valid : isTime hour minute second microsecond = true := by decide
  deriving DecidableEq

/-- A moment, in local time when an offset (seconds east of universal time) is present. -/
structure Stamp where
  moment : Moment
  offset : Option Int := none
  deriving DecidableEq

namespace Moment

instance : Inhabited Moment := ⟨{ date := default }⟩

def ofParts? (date : Date) (hour minute second microsecond : Nat) : Option Moment :=
  if h : isTime hour minute second microsecond = true then
    some ⟨date, hour, minute, second, microsecond, h⟩
  else none

def midnight (date : Date) : Moment := { date }

def isMidnight (m : Moment) : Bool :=
  m.hour == 0 && m.minute == 0 && m.second == 0 && m.microsecond == 0

def secondOfDay (m : Moment) : Nat :=
  m.hour * 3600 + m.minute * 60 + m.second

/-- The seconds since the start of day 0. -/
def seconds (m : Moment) : Int :=
  m.date.ordinal * 86400 + m.secondOfDay

def order (m n : Moment) : Ordering :=
  (compare m.seconds n.seconds).then (compare m.microsecond n.microsecond)

def atSecond? (m : Moment) (date : Date) (s : Nat) : Option Moment :=
  ofParts? date (s / 3600) (s / 60 % 60) (s % 60) m.microsecond

/-- The moment `offset` seconds before, for an offset of less than a day; `none` outside the
calendar. -/
def minus? (m : Moment) (offset : Int) : Option Moment :=
  let s := (m.secondOfDay : Int) - offset
  if s < 0 then m.date.previous?.bind fun d => m.atSecond? d (s + 86400).toNat
  else if s < 86400 then m.atSecond? m.date s.toNat
  else m.date.next?.bind fun d => m.atSecond? d (s - 86400).toNat

def toMillisecond (m : Moment) : Moment :=
  (ofParts? m.date m.hour m.minute m.second (m.microsecond / 1000 * 1000)).getD m

/-- The time of day; microseconds are written when `always` or when there are any. -/
def timeText (always : Bool) (m : Moment) : List Char :=
  Text.padded 2 m.hour ++ ':' :: Text.padded 2 m.minute ++ ':' :: Text.padded 2 m.second ++
    if always || m.microsecond != 0 then '.' :: Text.padded 6 m.microsecond else []

def textWith (separator : Char) (always : Bool) (m : Moment) : String :=
  .ofList (m.date.text.toList ++ separator :: m.timeText always)

end Moment

def offsetText (offset : Int) : List Char :=
  let s := offset.natAbs
  (if offset < 0 then '-' else '+') :: Text.padded 2 (s / 3600) ++
    ':' :: Text.padded 2 (s / 60 % 60) ++ if s % 60 = 0 then [] else ':' :: Text.padded 2 (s % 60)

namespace Stamp

def text (separator : Char) (s : Stamp) : String :=
  .ofList ((s.moment.textWith separator false).toList ++
    match s.offset with
    | none => []
    | some o => offsetText o)

/-- The universal time of a stamp; a stamp without an offset is taken as universal already. -/
def universal? (s : Stamp) : Option Moment :=
  match s.offset with
  | none => some s.moment
  | some o => s.moment.minus? o

/-- The seconds since the start of day 0 in universal time. -/
def instant (s : Stamp) : Int :=
  s.moment.seconds - s.offset.getD 0

/-- Chronological order; `none` when only one of the two has an offset. -/
def order (s t : Stamp) : Option Ordering :=
  if s.offset.isSome == t.offset.isSome then
    some ((compare s.instant t.instant).then (compare s.moment.microsecond t.moment.microsecond))
  else none

end Stamp

end Catalogue.Calendar
