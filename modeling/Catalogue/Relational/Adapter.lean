import Catalogue.Calendar.Iso
import Catalogue.Relational.Database
import Catalogue.Store.Adapter

/-!
The adapter for tables. It collects calls into conditions and sort keys, and on execution sends a
count and then a page. Rows that are marked as deleted are left out of both.
-/

namespace Catalogue.Relational

/-- What an adapter needs to know of the thing that is listed. -/
structure Source where
  table : Table
  registry : Registry
  settings : Settings
  /-- The columns that free text is searched in. -/
  textFields : List String := []

structure Draft where
  conditions : List Condition := []
  order : List SortKey := []
  offset : Option Int := none
  limit : Option Int := none
  executed : Bool := false

structure State where
  session : Session
  draft : Draft := {}

def Source.column (source : Source) (field : String) : Outcome Column :=
  match source.table.column? field with
  | some c => .ok c
  | none => .error (.unknownColumn source.table.name field)

namespace Draft

def ensureOpen (d : Draft) : Outcome Unit :=
  if d.executed then .error .adapterSpent else .ok ()

def require (d : Draft) (c : Condition) : Draft × Outcome Unit :=
  match d.ensureOpen with
  | .ok () => ({ d with conditions := d.conditions ++ [c] }, .ok ())
  | .error e => (d, .error e)

/-- Adds a condition on a column, which has to exist. -/
def requireOf (d : Draft) (column : Outcome Column) (condition : Column → Condition) :
    Draft × Outcome Unit :=
  match column with
  | .ok c => d.require (condition c)
  | .error e => (d, .error e)

/-- Adds a bound unless it is null. Truth values have no order. -/
def requireBound (d : Draft) (c : Column) (comparison : Comparison) (v : Value) :
    Draft × Outcome Unit :=
  match v with
  | .null => (d, .ok ())
  | .bool _ => (d, .error (.fault .badArgument))
  | v => d.require [.compares c comparison v]

def modify (d : Draft) (f : Draft → Outcome Draft) : Draft × Outcome Unit :=
  match d.ensureOpen with
  | .error e => (d, .error e)
  | .ok () =>
    match f d with
    | .ok d => (d, .ok ())
    | .error e => (d, .error e)

end Draft

def containsPattern (text : String) : String :=
  Wildcard.toLike { text, leading := true, trailing := true } Wildcard.defaultEscape

def Source.textColumns (source : Source) : Outcome (List Column) :=
  source.textFields.mapM source.column

def Draft.apply (source : Source) (d : Draft) : Call → Draft × Outcome Unit
  | .equality f v => d.requireOf (source.column f) fun c => [Condition.equalTo c v]
  | .negatedEquality f v =>
    d.requireOf (source.column f) fun c => [.isNull c, Condition.differentFrom c v]
  | .range f lower upper =>
    match source.column f with
    | .error e => (d, .error e)
    | .ok c =>
      match d.requireBound c .atLeast lower with
      | (d, .ok ()) => d.requireBound c .atMost upper
      | (d, .error e) => (d, .error e)
  | .membership f vs => d.requireOf (source.column f) fun c => [.isAmong c vs]
  | .pattern f w =>
    d.requireOf (source.column f) fun c => [.matchesLike c (w.toLike Wildcard.defaultEscape)]
  | .absence f => d.requireOf (source.column f) fun c => [.isNull c]
  | .existence f => d.requireOf (source.column f) fun c => [.isNotNull c]
  | .sort f direction =>
    d.modify fun d => (source.column f).map fun column =>
      { d with order := d.order ++ [{ column, direction }] }
  | .randomSort _ => d.modify .ok
  | .pagination offset limit => d.modify fun d => .ok { d with offset, limit }
  | .textSearch text =>
    if source.textFields.isEmpty then (d, .ok ())
    else match source.textColumns with
      | .error e => (d, .error e)
      | .ok cs => d.require (cs.map fun c => .matchesFolded c (containsPattern text))

def Source.markerColumn? (source : Source) : Option Column :=
  match source.settings.deletedMarker with
  | some marker => if marker.isEmpty then none else source.table.column? marker
  | none => none

/-- The conditions as they are sent, with the one that leaves deleted rows out at the end. -/
def Draft.allConditions (source : Source) (d : Draft) : List Condition :=
  d.conditions ++ source.markerColumn?.toList.map fun c => [.isNull c]

def Source.defaultOrder (source : Source) : List SortKey :=
  source.registry.defaultOrder.filterMap fun d =>
    (source.table.column? d.field).map fun column => { column, direction := d.direction }

/-- The sort keys as they are sent, with the identifier at the end. -/
def Draft.fullOrder (source : Source) (d : Draft) : List SortKey :=
  let chosen := if d.order.isEmpty then source.defaultOrder else d.order
  chosen ++ (source.table.column? source.registry.idField).toList.map fun column =>
    { column, direction := .ascending, placesNulls := false }

def Draft.selection (source : Source) (d : Draft) : Selection where
  conditions := d.allConditions source
  order := d.fullOrder source
  limit := d.limit
  offset := d.offset

/-- The value in a cell of a column, if it can be read. -/
def cellValue (type : ColumnType) (cell : Cell) : Value :=
  match type, cell with
  | _, .null => .null
  | .boolean, .integer n => .bool (n != 0)
  | .boolean, .real x => .bool !x.isZero
  | .boolean, .text s => .bool (s != "")
  | .boolean, .blob octets => .bool (octets.size != 0)
  | .moment, .text s => (Calendar.Iso.stamp? s.toList).elim (.text s) .stamp
  | _, .integer n => .int n
  | _, .real x => .float x
  | _, .text s => .text s
  | _, .blob octets => .bytes octets

/-- Why a cell of a column cannot be read: a point in time has to be written as one. -/
def readFault? : ColumnType → Cell → Option Fault
  | .moment, .text s => if (Calendar.Iso.stamp? s.toList).isSome then none else some .badValue
  | .moment, .integer _ | .moment, .real _ | .moment, .blob _ => some .badType
  | _, _ => none

def Table.rowValues (t : Table) (row : Row) : Entries :=
  (t.columns.zip row).map fun (c, cell) => (.text c.name, cellValue c.type cell)

/-- Reads a row up to the first cell that cannot be read. -/
def Table.readRow (t : Table) (row : Row) : Except Fault Entries :=
  match (t.columns.zip row).findSome? fun (c, cell) => readFault? c.type cell with
  | some fault => .error fault
  | none => .ok (t.rowValues row)

def listingFailure : SessionFault → Failure
  | .unreachable | .system _ => .unreachable
  | .rejected => .queryRejected
  | .foreign fault => .fault fault

/-- Sends the count and then the page. The adapter is spent even when this fails. -/
def State.execute (source : Source) (s : State) : State × Outcome Page :=
  match s.draft.ensureOpen with
  | .error e => (s, .error e)
  | .ok () =>
    let draft := { s.draft with executed := true }
    let selection := draft.selection source
    match s.session.send (.count selection.conditions) with
    | (session, .error fault) => ({ session, draft }, .error (listingFailure fault))
    | (session, .ok count) =>
      match session.send (.page selection) with
      | (session, .error fault) => ({ session, draft }, .error (listingFailure fault))
      | (session, .ok page) =>
        match count, page with
        | .number total, .rows rows =>
          match rows.mapM source.table.readRow with
          | .ok rows => ({ session, draft }, .ok { rows, total })
          | .error fault => ({ session, draft }, .error (.fault fault))
        | _, _ => ({ session, draft }, .error .queryRejected)

def adapter (source : Source) : Adapter State where
  acceptsClauses := false
  apply s call :=
    let (draft, outcome) := s.draft.apply source call
    ({ s with draft }, outcome)
  execute := State.execute source

end Catalogue.Relational
