import Catalogue.Calendar.Moment

/-!
Points in time in the notation of ISO 8601: a calendar date or a day of a numbered week, any one
character, a time of day, and an offset from universal time. An offset with a fraction of a second is
not read.
-/

namespace Catalogue.Calendar.Iso

/-- Reads a numeral of `n` digits off the front. -/
def digits? (n : Nat) (s : List Char) : Option (Nat × List Char) :=
  let front := s.take n
  if front.length = n && front.all Char.isDigit then
    (Text.natural? front).map fun value => (value, s.drop n)
  else none

def hyphen? : List Char → Option (List Char)
  | '-' :: rest => some rest
  | _ => none

/-- How many characters the date takes up at the front of a text. Without hyphens, an odd number of
digits after the week begins with the day. -/
def dateLength? (s : List Char) : Option Nat :=
  if s.length < 7 then none
  else if s.length = 7 then some 7
  else match s.drop 4 with
    | '-' :: 'W' :: _ =>
      match s.drop 8 with
      | ['-'] => none
      -- the hyphen may lead to a day or to an hour
      | '-' :: _ :: c :: _ => some (if c.isDigit then 8 else 10)
      | '-' :: _ => some 10
      | _ => some 8
    | '-' :: _ => some 10
    | 'W' :: _ =>
      let numeral := 7 + ((s.drop 7).takeWhile Char.isDigit).length
      some (if numeral < 9 then numeral else if numeral % 2 = 0 then 7 else 8)
    | _ => some 8

def earlier? (d : Date) : (days : Nat) → Option Date
  | 0 => some d
  | days + 1 => d.previous?.bind fun previous => earlier? previous days

/-- A day of a numbered week. The first week of a year is that of the fourth of January. -/
def ofWeek? (year week day : Nat) : Option Date := do
  let first ← Date.ofParts? year 1 1
  let fourth ← Date.ofParts? year 1 4
  let weeks := if first.weekday = 3 ∨ first.weekday = 2 ∧ isLeap year = true then 53 else 52
  if week = 0 ∨ weeks < week ∨ day = 0 ∨ 7 < day then none
  else
    let monday ← earlier? fourth fourth.weekday
    monday.later? ((week - 1) * 7 + (day - 1))

/-- Reads a date that takes up `n` characters. -/
def date? (n : Nat) (s : List Char) : Option Date := do
  let (year, rest) ← digits? 4 s
  let (hyphens, rest) := match rest with
    | '-' :: rest => (true, rest)
    | _ => (false, rest)
  match rest with
  | 'W' :: rest =>
    let (week, rest) ← digits? 2 rest
    if n ≤ (if hyphens then 8 else 7) then ofWeek? year week 1
    else
      let rest ← if hyphens then hyphen? rest else some rest
      let (day, _) ← digits? 1 rest
      ofWeek? year week day
  | _ =>
    let (month, rest) ← digits? 2 rest
    let rest ← if hyphens then hyphen? rest else some rest
    let (day, _) ← digits? 2 rest
    Date.ofParts? year month day

structure Clock where
  fields : List Nat
  microsecond : Nat := 0
  /-- Does the text end here? -/
  ended : Bool

def Clock.field (c : Clock) (n : Nat) : Nat :=
  c.fields.getD n 0

/-- Is this the end of a text? A null character is taken for one. -/
def isEnd (s : List Char) : Bool :=
  s.headD '\x00' == '\x00'

/-- The fraction of a second: six digits of it, and any more are passed over. -/
def fraction? (fields : List Nat) (s after : List Char) : Option Clock := do
  let n := min 6 s.length
  let (value, rest) ← digits? n s
  return {
    fields
    microsecond := value * Nat.pow 10 (6 - n)
    ended := isEnd ((rest ++ after).dropWhile Char.isDigit) }

/-- Reads the fields that remain of a clock, all with colons between them or all without. What comes
`after` the clock is looked at only for its end. -/
def clockFrom? (after : List Char) (fields : List Nat) (colons : Option Bool) :
    (remaining : Nat) → List Char → Option Clock
  | 0, s => fraction? fields s after
  | remaining + 1, s => do
    let (value, rest) ← digits? 2 s
    let fields := fields ++ [value]
    match rest with
    | [] => return { fields, ended := isEnd after }
    -- one more octet is let through here, to be refused or followed by an offset
    | [c] => if c.toNat < 128 then some { fields, ended := c == '\x00' } else none
    | c :: tail =>
      let colons := colons.getD (c == ':')
      if colons && c == ':' then clockFrom? after fields (some colons) remaining tail
      else if c == '.' || c == ',' then fraction? fields tail after
      else if colons then none
      else clockFrom? after fields (some colons) remaining rest

def clock? (s after : List Char) : Option Clock :=
  clockFrom? after [] none 3 s

/-- An offset from its sign on, in seconds east of universal time. -/
def offset? : List Char → Option Int
  | [] => none
  | 'Z' :: rest => if isEnd rest then some 0 else none
  | sign :: rest => do
    let c ← clock? rest []
    let seconds := c.field 0 * 3600 + c.field 1 * 60 + c.field 2
    if !c.ended then none
    else if seconds = 0 then some 0
    else if 86400 ≤ seconds ∨ c.microsecond ≠ 0 then none
    else some (if sign == '-' then -seconds else seconds)

def isOffsetStart (c : Char) : Bool :=
  c == '+' || c == '-' || c == 'Z'

def timeOn? (date : Date) (s : List Char) : Option Stamp := do
  let (front, after) := s.span fun c => !isOffsetStart c
  let c ← clock? front after
  let moment ← Moment.ofParts? date (c.field 0) (c.field 1) (c.field 2) c.microsecond
  if after.isEmpty then
    if c.ended then some { moment } else none
  else (offset? after).map fun offset => { moment, offset := some offset }

def stamp? (s : List Char) : Option Stamp := do
  let n ← dateLength? s
  let date ← date? n s
  match s.drop n with
  | [] => some { moment := .midnight date }
  | _ :: time => timeOn? date time

end Catalogue.Calendar.Iso
