import Catalogue.Timestamp.DayParts
import Catalogue.Timestamp.Word

/-!
What the tokens of a timestamp say, token by token from left to right. Each rule looks at the
tokens around the current one and says how many of those that follow it has used up.
-/

namespace Catalogue.Timestamp

structure Reading where
  parts : DayParts := { }
  weekday : Option Nat := none
  hour : Option Nat := none
  minute : Option Nat := none
  second : Option Nat := none
  microsecond : Option Nat := none
  zoneName : Option Token := none
  /-- Seconds east of universal time. -/
  zoneOffset : Option Int := none
  /-- Does the next sign count the other way? -/
  inverted : Bool := false

/-- A reading, and the number of following tokens that it has used. -/
abbrev Step := Except Problem (Reading × Nat)

/-- Six digits for a fraction of a second: cut, or filled with zeros. -/
def microseconds (digits : Token) : Except Problem Nat :=
  natural ((digits ++ List.replicate (6 - digits.length) '0').take 6)

/-- Seconds with an optional fraction. -/
def secondsOf (t : Token) : Except Problem (Nat × Nat) :=
  match t.dropWhile (· != '.') with
  | [] => do return (← natural t, 0)
  | _ :: fraction => do
    let whole ← natural (t.takeWhile (· != '.'))
    if fraction.contains '.' then .error .unreadable
    else return (whole, ← microseconds fraction)

namespace Reading

/-- Sets second and microsecond from a token. -/
def withSeconds (r : Reading) (t : Token) : Except Problem Reading := do
  let (second, microsecond) ← secondsOf t
  return { r with second := some second, microsecond := some microsecond }

/-- Sets the minute, and the second from its fraction. -/
def withMinutes (r : Reading) (q : Quantity) : Except Problem Reading := do
  let second ← q.sixtieths?
  return { r with minute := some q.whole, second := second }

/-- Sets the hour, and the minute from its fraction if there is one. -/
def withHours (r : Reading) (q : Quantity) : Except Problem Reading := do
  let minute ← q.sixtieths?
  return { r with hour := some q.whole, minute := minute.or r.minute }

/-- Sets what a number with a unit says; a unit beyond the second says nothing. -/
def withUnit (r : Reading) (unit : Nat) (t : Token) (q : Quantity) : Except Problem Reading :=
  match unit with
  | 0 => r.withHours q
  | 1 => r.withMinutes q
  | 2 => r.withSeconds t
  | _ => .ok r

end Reading

/-- The hour of a 24-hour clock for an hour with a mark for a half of the day. -/
def hourOfHalf (hour : Nat) (afternoon : Bool) : Nat :=
  if afternoon then (if hour < 12 then hour + 12 else hour)
  else if hour = 12 then 0 else hour

/-- The unit that belongs to a number, and the number of following tokens up to it. A unit that
precedes the number passes the next smaller one on. -/
def unitOf? (before after : List Token) : Option (Nat × Nat) :=
  let ahead : Option (Nat × Nat) := match after with
    | a :: b :: _ =>
      ((unit? a).map fun u => (u, 1)) <|>
        if a = [' '] then (unit? b).map fun u => (u, 2) else none
    | [a] => (unit? a).map fun u => (u, 1)
    | [] => none
  let behind : Option Nat := match before with
    | a :: b :: _ =>
      unit? a <|> if after.isEmpty ∧ a = [' '] then unit? b else none
    | [a] => unit? a
    | [] => none
  ahead <|> behind.map fun u => (u + 1, 0)

/-- Parts of a day, or a time, written as six digits. -/
def sixDigits (t : Token) (r : Reading) : Except Problem Reading := do
  if r.parts.size = 0 ∧ ¬t.contains '.' then
    let parts ← r.parts.pushToken (t.take 2)
    let parts ← parts.pushToken ((t.drop 2).take 2)
    let parts ← parts.pushToken (t.drop 4)
    return { r with parts }
  else
    let hour ← natural (t.take 2)
    let minute ← natural ((t.drop 2).take 2)
    { r with hour := some hour, minute := some minute }.withSeconds (t.drop 4)

/-- A full day written as eight digits, with two or four digits of a time. -/
def eightDigits (t : Token) (r : Reading) : Except Problem Reading := do
  let parts ← r.parts.pushYear (← natural (t.take 4))
  let parts ← parts.pushToken ((t.drop 4).take 2)
  let parts ← parts.pushToken ((t.drop 6).take 2)
  let r := { r with parts }
  if t.length ≤ 8 then return r
  let hour ← natural ((t.drop 8).take 2)
  let minute ← natural ((t.drop 10).take 2)
  let r := { r with hour := some hour, minute := some minute }
  if t.length ≤ 12 then return r
  let second ← natural (t.drop 12)
  return { r with second := some second }

/-- A month by its name, or a number. -/
def pushNameOrToken (parts : DayParts) (t : Token) : Except Problem DayParts :=
  match month? t with
  | some m => parts.pushMonth m
  | none => parts.pushToken t

/-- The second member of a day written with separators: digits or the name of a month. -/
def pushSecondMember (parts : DayParts) (t : Token) : Except Problem DayParts :=
  if t.all Text.isDigit then parts.pushToken t
  else do parts.pushMonth (← require (month? t))

/-- Up to three members of a day with one separator between them. -/
def separated (t sep : Token) (after : List Token) (r : Reading) : Step := do
  let parts ← r.parts.pushToken t
  match after with
  | [] => return ({ r with parts }, 1)
  | second :: rest =>
    if isFiller second then return ({ r with parts }, 1)
    let parts ← pushSecondMember parts second
    match rest with
    | [] => return ({ r with parts }, 2)
    | next :: rest =>
      if next = sep then
        let parts ← pushNameOrToken parts (← require rest.head?)
        return ({ r with parts }, 4)
      else return ({ r with parts }, 2)

/-- Hour and minute with a colon, and seconds if another colon follows. -/
def clock (q : Quantity) (minutes : Token) (after : List Token) (r : Reading) : Step := do
  let m ← require (Quantity.ofToken? minutes)
  let r ← { r with hour := some q.whole }.withMinutes m
  match after with
  | colon :: seconds :: _ =>
    if colon = [':'] then return (← r.withSeconds seconds, 4) else return (r, 2)
  | _ => return (r, 2)

def isSeparator (t : Token) : Bool :=
  t = ['-'] || t = ['/'] || t = ['.']

/-- A number that only its neighbours explain: an hour with a half of the day, or a part of a
day. -/
def plainNumber (q : Quantity) (after : List Token) (r : Reading) : Step :=
  let asHour := fun (afternoon : Bool) (used : Nat) =>
    Except.ok ({ r with hour := some (hourOfHalf q.whole afternoon) }, used)
  let asPart := fun (used : Nat) => do
    let parts ← r.parts.pushQuantity q
    return ({ r with parts }, used)
  match after with
  | [] => asPart 1
  | next :: rest =>
    if isFiller next then
      match rest.head?.bind afternoon? with
      | some half => asHour half 2
      | none => asPart 1
    else
      match afternoon? next with
      | some half =>
        if q.whole < 24 then asHour half 1
        else if r.parts.couldBeDay q then asPart 0 else .error .unreadable
      | none => if r.parts.couldBeDay q then asPart 0 else .error .unreadable

/-- Does the token after a number leave it free to be a time without a colon? -/
def standsAlone : List Token → Bool
  | [] => true
  | next :: _ => next != [':'] && (unit? next).isNone

def number (before : List Token) (t : Token) (q : Quantity) (after : List Token) (r : Reading) :
    Step := do
  if r.parts.size = 3 ∧ (t.length = 2 ∨ t.length = 4) ∧ r.hour.isNone ∧ standsAlone after then
    let hour ← natural (t.take 2)
    if t.length = 4 then
      let minute ← natural (t.drop 2)
      return ({ r with hour := some hour, minute := some minute }, 0)
    else return ({ r with hour := some hour }, 0)
  else if t.length = 6 ∨ (6 < t.length ∧ (t.takeWhile (· != '.')).length = 6) then
    return (← sixDigits t r, 0)
  else if t.length = 8 ∨ t.length = 12 ∨ t.length = 14 then
    return (← eightDigits t r, 0)
  else if let some (unit, used) := unitOf? before after then
    return (← r.withUnit unit t q, used)
  else match after with
    | next :: second :: rest =>
      if next = [':'] then clock q second rest r
      else if isSeparator next then separated t next (second :: rest) r
      else plainNumber q after r
    | [next] => if isSeparator next then separated t next [] r else plainNumber q after r
    | [] => plainNumber q after r

/-- The year of a number without a century: within fifty years of this one. -/
def fullYear (thisYear year : Nat) : Nat :=
  if 100 ≤ year then year
  else
    let y := year + thisYear / 100 * 100
    if thisYear + 50 ≤ y then y - 100
    else if y + 50 < thisYear then y + 100
    else y

/-- Reads the name of a month, which may lead further parts of a day. -/
def monthName (thisYear month : Nat) (after : List Token) (r : Reading) : Step := do
  let parts ← r.parts.pushMonth month
  match after with
  | [] => return ({ r with parts }, 0)
  | sep :: rest =>
    if sep = ['-'] ∨ sep = ['/'] then
      let parts ← parts.pushToken (← require rest.head?)
      match rest.tail with
      | [] => return ({ r with parts }, 2)
      | next :: rest =>
        if next = sep then
          let parts ← parts.pushToken (← require rest.head?)
          return ({ r with parts }, 4)
        else return ({ r with parts }, 2)
    else match after with
      | [' '] :: of :: [' '] :: year :: _ =>
        if isOf of then
          if year.all Text.isDigit then
            let parts ← parts.pushYear (fullYear thisYear (← natural year))
            return ({ r with parts }, 4)
          else return ({ r with parts }, 4)
        else return ({ r with parts }, 0)
      | _ => return ({ r with parts }, 0)

/-- Reads a mark for a half of the day, which needs an hour of a 12-hour clock. -/
def halfMark (afternoon : Bool) (r : Reading) : Step :=
  match r.hour with
  | some hour =>
    if hour ≤ 12 then .ok ({ r with hour := some (hourOfHalf hour afternoon) }, 0)
    else .error .unreadable
  | none => .error .unreadable

/-- Reads the name of a zone. A sign after it counts the other way, and then the names of universal
time name no zone. -/
def zone (t : Token) (after : List Token) (r : Reading) : Reading :=
  let signed := after.head? == some ['+'] || after.head? == some ['-']
  if signed then
    { r with zoneName := if isUniversal t then none else some t, inverted := true }
  else { r with zoneName := some t, zoneOffset := if t = ['z'] then some 0 else none }

/-- Hours and minutes of an offset, and the number of tokens they take. -/
def offsetParts : List Token → Except Problem (Nat × Nat × Nat)
  | [] => .error .unreadable
  | t :: after => do
    if t.length = 4 then return (← natural (t.take 2), ← natural (t.drop 2), 1)
    else if after.head? = some [':'] then
      return (← natural t, ← natural (← require (after.drop 1).head?), 3)
    else if t.length ≤ 2 then return (← natural t, 0, 1)
    else .error .unreadable

/-- Reads an offset from universal time, with the name of the zone in parentheses if one follows. -/
def offset (sign : Token) (after : List Token) (r : Reading) : Step := do
  let (hours, minutes, used) ← offsetParts after
  let seconds : Int := hours * 3600 + minutes * 60
  let east := (sign == ['+']) != r.inverted
  let r := { r with zoneOffset := some (if east then seconds else -seconds), inverted := false }
  match after.drop used with
  | filler :: ['('] :: name :: [')'] :: _ =>
    if isFiller filler ∧ 3 ≤ name.length ∧ r.zoneName.isNone ∧ isZoneName name then
      return ({ r with zoneName := some name }, used + 4)
    else return (r, used)
  | _ => return (r, used)

def step (thisYear : Nat) (before : List Token) (t : Token) (after : List Token) (r : Reading) :
    Step :=
  if isNonNumber t then .error .unreadable
  else if let some q := Quantity.ofToken? t then number before t q after r
  else if let some day := weekday? t then .ok ({ r with weekday := some day }, 0)
  else if let some month := month? t then monthName thisYear month after r
  else if let some half := afternoon? t then halfMark half r
  else if r.hour.isSome ∧ r.zoneName.isNone ∧ r.zoneOffset.isNone ∧ isZoneName t then
    .ok (zone t after r, 0)
  else if r.hour.isSome ∧ (t = ['+'] ∨ t = ['-']) then offset t after r
  else if isFiller t then .ok (r, 0)
  else .error .unreadable

/-- Reads tokens one after the other, with those before them at hand. -/
def readTokens (thisYear : Nat) :
    (fuel : Nat) → (before after : List Token) → Reading → Except Problem Reading
  | 0, _, _, r | _ + 1, _, [], r => .ok r
  | fuel + 1, before, t :: after, r => do
    let (r, used) ← step thisYear before t after r
    readTokens thisYear fuel ((after.take used).reverse ++ t :: before) (after.drop used) r

end Catalogue.Timestamp
