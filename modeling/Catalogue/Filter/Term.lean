import Catalogue.Failure
import Catalogue.Field.Registry
import Catalogue.Timestamp.Reader

/-!
What a raw filter value asks for, and the canonical form of single values.
-/

namespace Catalogue

open Calendar (Date Moment)

inductive Term where
  | single (value : Value)
  | members (values : List Value)
  | absent
  /-- Bounds, with all the values of the object that gave them. -/
  | range (lower upper : Value) (all : List Value)
  | negated (values : List Value)

/-- Tells the shape of a raw value. Negation outranks bounds, and an object without a key that says
more is the list of its values. -/
def Term.ofValue : Value → Term
  | .null => .absent
  | .list items => .members items
  | .object entries =>
    match Entries.get? entries "not" with
    | some (.list items) => .negated items
    | some v => .negated [v]
    | none =>
      if Entries.has entries "from" || Entries.has entries "to" then
        .range ((Entries.get? entries "from").getD .null) ((Entries.get? entries "to").getD .null)
          (Entries.values entries)
      else .members (Entries.values entries)
  | v => .single v

namespace Value

def trueWords : List String := ["1", "true", "yes", "y", "on"]

def falseWords : List String := ["", "0", "false", "no", "n", "off"]

/-- Any value as a truth value; a text that means neither is true. -/
def toBoolean : Value → Bool
  | .text s =>
    let word := String.ofList ((Text.trimBy Text.isBlank s.toList).map Char.toLower)
    if trueWords.contains word then true
    else if falseWords.contains word then false
    else !s.isEmpty
  | v => v.isTruthy

/-- A value as a moment of universal time. A date is its midnight. -/
def toMoment (today : Date) (field : String) (v : Value) : Outcome Moment :=
  let refused := Failure.filterValue field .notTimestamp
  match v with
  | .stamp s =>
    match s.universal? with
    | some m => .ok m
    | none => .error refused
  | .date d => .ok (.midnight d)
  | .text s =>
    if Text.isAllBlank s then .error refused
    else match Timestamp.readUniversal today (Text.trim s) with
      | .ok m => .ok m
      | .error .unreadable => .error refused
      | .error .imprecise => .error (.fault .imprecise)
  | _ => .error refused

def ofMoment (m : Moment) : Value :=
  .stamp { moment := m }

def normalize (today : Date) (field : String) (kind : FieldKind) (v : Value) : Outcome Value :=
  match kind with
  | .text => .ok v
  | .boolean => .ok (.bool v.toBoolean)
  | .moment => (v.toMoment today field).map ofMoment

end Value

end Catalogue
