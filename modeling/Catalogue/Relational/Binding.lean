import Catalogue.Relational.Cell

/-!
Bound parameters: the form in which a value is sent. The type of the sending decides, and it is the
value's own where the value has one.
-/

namespace Catalogue.Relational

open Number (Binary64)

inductive SendType where
  | plain
  | boolean
  | number
  | moment
  | date
  deriving DecidableEq, Repr

def ColumnType.sendType : ColumnType → SendType
  | .text | .integer => .plain
  | .boolean => .boolean
  | .number => .number
  | .moment => .moment

/-- The type for a value that meets a column: its own, or the column's if it has none. -/
def sendTypeFor (column : ColumnType) : Value → SendType
  | .bool _ => .boolean
  | .float _ => .number
  | .stamp _ => .moment
  | .date _ => .date
  | .int _ | .text _ | .bytes _ => .plain
  | .null | .list _ | .object _ => column.sendType

/-- The type for a list of values that meets a column: the one for its first value. -/
def sendTypeForAll (column : ColumnType) : List Value → SendType
  | [] => column.sendType
  | v :: _ => sendTypeFor column v

def momentText (m : Calendar.Moment) : Value :=
  .text (m.textWith ' ' true)

/-- A value as a truth value, if it equals one. -/
def asBoolean? (v : Value) : Option Value :=
  if v.same (.bool true) then some (.int 1)
  else if v.same (.bool false) then some (.int 0)
  else none

def asNumber? : Value → Option Value
  | .bool b => some (.float (.ofInt (if b then 1 else 0)))
  | .int n =>
    let x := Binary64.ofInt n
    if x.isFinite then some (.float x) else none
  | .float x => some (.float x)
  | .text s => (Binary64.ofText? (Text.trimBy Text.isWhite s.toList)).map .float
  | _ => none

/-- The form in which a value is sent; none when the type does not take it. -/
def send? (type : SendType) (v : Value) : Option Value :=
  match type, v with
  | _, .null => some .null
  | .plain, v => some v
  | .boolean, v => asBoolean? v
  | .number, v => asNumber? v
  | .moment, .stamp s => some (momentText s.moment)
  | .moment, .date d => some (momentText (.midnight d))
  | .date, .stamp s => some (.text s.moment.date.text)
  | .date, .date d => some (.text d.text)
  | _, _ => none

inductive BindFault where
  | overflow
  | unsupported
  deriving DecidableEq, Repr

def bind : Value → Except BindFault Cell
  | .null => .ok .null
  | .bool b => .ok (.integer (if b then 1 else 0))
  | .int n => if isStorable n then .ok (.integer n) else .error .overflow
  | .float .nan => .ok .null
  | .float x => .ok (.real x)
  | .text s => .ok (.text s)
  | .bytes octets => .ok (.blob octets)
  | .stamp s => .ok (.text (s.text ' '))
  | .date d => .ok (.text d.text)
  | .list _ | .object _ => .error .unsupported

def boundCell (v : Option Value) : Cell :=
  match v.map bind with
  | some (.ok c) => c
  | _ => .null

end Catalogue.Relational
