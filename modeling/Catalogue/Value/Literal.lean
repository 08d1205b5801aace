import Catalogue.Number.Shortest
import Catalogue.Text.Quoted
import Catalogue.Value.Basic

/-!
The text of values. A literal shows texts quoted; the plain text of a value shows a text as it is.
Neither exists for a value that holds an integer of more than 4300 digits.
-/

namespace Catalogue

open Calendar (Date Moment Stamp)

/-- Texts with a comma and a space between them. -/
def commaSeparated (parts : List String) : String :=
  ", ".intercalate parts

namespace Value

def numeral (n : Nat) : String :=
  .ofList (Text.decimal n)

/-- The parts of a moment, without seconds and microseconds that are zero at the end. -/
def momentParts (m : Moment) : List String :=
  let tail := if m.microsecond != 0 then [m.second, m.microsecond]
    else if m.second != 0 then [m.second] else []
  ([m.date.year, m.date.month, m.date.day, m.hour, m.minute] ++ tail).map numeral

/-- The literal of an offset from universal time. -/
def offsetLiteral (offset : Int) : String :=
  if offset = 0 then "datetime.timezone.utc"
  else
    let days := if offset < 0 then "days=-1, " else ""
    let seconds := numeral (offset % 86400).toNat
    "datetime.timezone(datetime.timedelta(" ++ days ++ "seconds=" ++ seconds ++ "))"

def stampLiteral (s : Stamp) : String :=
  let zone := match s.offset with
    | none => []
    | some o => ["tzinfo=" ++ offsetLiteral o]
  "datetime.datetime(" ++ commaSeparated (momentParts s.moment ++ zone) ++ ")"

def dateLiteral (d : Date) : String :=
  "datetime.date(" ++ commaSeparated ([d.year, d.month, d.day].map numeral) ++ ")"

def literal? : Value → Option String
  | .null => some "None"
  | .bool b => some (if b then "True" else "False")
  | .int n => Text.signed? n
  | .float x => some x.text
  | .text s => some (Text.quoted s)
  | .bytes b => some (Text.quotedOctets b)
  | .list items => (literals? items).map fun parts => "[" ++ commaSeparated parts ++ "]"
  | .object entries =>
    (entryLiterals? entries).map fun parts => "\x7b" ++ commaSeparated parts ++ "\x7d"
  | .stamp s => some (stampLiteral s)
  | .date d => some (dateLiteral d)
where
  literals? : List Value → Option (List String)
    | [] => some []
    | v :: rest => do
      let first ← literal? v
      return first :: (← literals? rest)
  entryLiterals? : List (Value × Value) → Option (List String)
    | [] => some []
    | (k, v) :: rest => do
      let key ← literal? k
      let value ← literal? v
      return (key ++ ": " ++ value) :: (← entryLiterals? rest)

/-- The literal of a fixed sequence: parentheses, with a comma after a single member. -/
def sequenceLiteral? (items : List Value) : Option String :=
  (literal?.literals? items).map fun
    | [single] => "(" ++ single ++ ",)"
    | parts => "(" ++ commaSeparated parts ++ ")"

def text? : Value → Option String
  | .text s => some s
  | .stamp s => some (s.text ' ')
  | .date d => some d.text
  | v => v.literal?

end Value

end Catalogue
