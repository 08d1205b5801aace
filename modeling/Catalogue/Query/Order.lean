import Catalogue.Failure
import Catalogue.Field.Registry

/-!
The order of a listing. Entries that name no field or no direction are passed over; only a malformed
entry is refused.
-/

namespace Catalogue.Order

def randomField : String := "random"

def defaultSeedLength : Int := 16

def isSeedChar (c : Char) : Bool :=
  c.isAlpha || c.isDigit

/-- The first `n` characters; a negative `n` counts from the end. -/
def cut (n : Int) (s : List Char) : List Char :=
  if 0 ≤ n then s.take n.natAbs else s.take (s.length - n.natAbs)

/-- The seed that a value writes: its ASCII letters and digits, cut to a length. A null, a truth
value, a list or an object writes none. A number that is too long to write is a fault. -/
def seed (v : Value) (maxLength : Int) : Except Fault String :=
  match v with
  | .null | .bool _ | .list _ | .object _ => .ok ""
  | v =>
    match v.text? with
    | some s => .ok (.ofList (cut maxLength (s.toList.filter isSeedChar)))
    | none => .error .badValue

def refusal : Failure :=
  .parameter "order" .malformedOrder

def keyText (k : Value) : Outcome String :=
  match k.text? with
  | some s => .ok s
  | none => .error (.fault .badValue)

/-- The entries of an object, with their keys as text. -/
def entriesOf : Entries → Outcome (List (String × Value))
  | [] => .ok []
  | (k, v) :: rest => do return (← keyText k, v) :: (← entriesOf rest)

/-- The entries of a list of objects with a single entry each. -/
def entriesOfItems : List Value → Outcome (List (String × Value))
  | [] => .ok []
  | .object [(k, v)] :: rest => do return (← keyText k, v) :: (← entriesOfItems rest)
  | _ :: _ => .error refusal

/-- The entries of an order in the caller's order. An empty value has none. -/
def entries (order : Value) : Outcome (List (String × Value)) :=
  if !order.isTruthy then .ok []
  else match order with
    | .object es => entriesOf es
    | .list items => entriesOfItems items
    | _ => .error refusal

def directive? (registry : Registry) (seedLength : Int) (field : String) (v : Value) :
    Outcome (Option SortDirective) :=
  if field = randomField then
    match seed v seedLength with
    | .ok s => .ok (if s.isEmpty then none else
        some { field, direction := .descending, seed := some s })
    | .error fault => .error (.fault fault)
  else if registry.has field then
    .ok ((Direction.ofValue? v).map fun direction => { field, direction })
  else .ok none

def directives (registry : Registry) (seedLength : Int) :
    List (String × Value) → Outcome (List SortDirective)
  | [] => .ok []
  | (field, v) :: rest => do
    let first ← directive? registry seedLength field v
    return first.toList ++ (← directives registry seedLength rest)

def compile (registry : Registry) (seedLength : Int) (order : Value) :
    Outcome (List SortDirective) := do
  directives registry seedLength (← entries order)

end Catalogue.Order
