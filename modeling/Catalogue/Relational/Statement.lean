import Catalogue.Query.Predicate
import Catalogue.Relational.Condition

/-!
The statements that are sent to a database: their text and their parameters.
-/

namespace Catalogue.Relational

structure SortKey where
  column : Column
  direction : Direction
  /-- Is the place of nulls written out? -/
  placesNulls : Bool := true

structure Selection where
  conditions : List Condition := []
  order : List SortKey := []
  limit : Option Int := none
  offset : Option Int := none

inductive Statement where
  | count (conditions : List Condition)
  | page (selection : Selection)
  | rowsWhere (condition : Condition)
  /-- Sets a column in the rows that meet a condition. -/
  | set (column : Column) (value : Value) (condition : Condition)

/-- The written form of a sort key. Nulls rank lowest. -/
def SortKey.text (t : Table) (k : SortKey) : String :=
  let name := t.qualified k.column
  match k.direction, k.placesNulls with
  | .ascending, true => name ++ " ASC NULLS FIRST"
  | .descending, true => name ++ " DESC NULLS LAST"
  | .ascending, false => name ++ " ASC"
  | .descending, false => name ++ " DESC"

def conditionsText (t : Table) (conditions : List Condition) : String :=
  let alone := conditions.length ≤ 1
  " AND ".intercalate (conditions.map (Condition.text t alone))

def whereText (t : Table) (conditions : List Condition) : String :=
  if conditions.isEmpty then "" else " \nWHERE " ++ conditionsText t conditions

def orderText (t : Table) (order : List SortKey) : String :=
  if order.isEmpty then "" else " ORDER BY " ++ ", ".intercalate (order.map (SortKey.text t))

/-- The clause that cuts out a page, if one is asked for. -/
def pageText (limit offset : Option Int) : String :=
  if limit.isNone && offset.isNone then "" else "\n LIMIT ? OFFSET ?"

def selectText (t : Table) : String :=
  "SELECT " ++ ", ".intercalate (t.columns.map t.qualified) ++ " \nFROM " ++ identifier t.name

/-- The parameters that cut out a page: limit and offset, if either is given. No limit is sent as
-1 and no offset as 0. -/
def pageParameters (limit offset : Option Int) : List Value :=
  if limit.isNone && offset.isNone then []
  else [.int (limit.getD (-1)), .int (offset.getD 0)]

/-- The parameters of conditions; none when one cannot be sent. -/
def conditionParameters? (conditions : List Condition) : Option (List Value) :=
  (conditions.mapM Condition.parameters?).map List.flatten

namespace Statement

def conditions : Statement → List Condition
  | .count conditions => conditions
  | .page s => s.conditions
  | .rowsWhere condition | .set _ _ condition => [condition]

def order : Statement → List SortKey
  | .page s => s.order
  | .count _ | .rowsWhere _ | .set .. => []

def text (t : Table) : Statement → String
  | .count conditions =>
    "SELECT count(*) AS count_1 \nFROM " ++ identifier t.name ++ whereText t conditions
  | .page s =>
    selectText t ++ whereText t s.conditions ++ orderText t s.order ++ pageText s.limit s.offset
  | .rowsWhere condition => selectText t ++ whereText t [condition]
  | .set column _ condition =>
    "UPDATE " ++ identifier t.name ++ " SET " ++ identifier column.name ++ "=? WHERE " ++
      conditionsText t [condition]

def parameters? : Statement → Option (List Value)
  | .count conditions => conditionParameters? conditions
  | .page s => do
    return (← conditionParameters? s.conditions) ++ pageParameters s.limit s.offset
  | .rowsWhere condition => condition.parameters?
  | .set column value condition => do
    let sent ← send? column.type.sendType value
    return sent :: (← condition.parameters?)

end Statement

end Catalogue.Relational
