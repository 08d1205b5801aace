import Catalogue.Failure
import Catalogue.Relational.Limits

/-!
A database with one table, and sessions that send statements to it. A session records every
statement that reaches the database.
-/

namespace Catalogue.Relational

/-- Does a row lead to a pattern that is too long? Alternatives are tried up to the first that is
true. -/
def Condition.meetsTooLong (t : Table) (row : Row) : Condition → Bool
  | [] => false
  | a :: rest => a.isTooLong || (!a.holds t row && meetsTooLong t row rest)

/-- The same for conditions, which are tried up to the first that is not true. -/
def meetsTooLong (t : Table) (row : Row) : List Condition → Bool
  | [] => false
  | c :: rest => c.meetsTooLong t row || (c.holds t row && meetsTooLong t row rest)

/-- Where an engine comes to a pattern that is too long, if the conditions have one. It may work out
a pattern before it meets any row and pass over it on a row: its planner decides. -/
structure Engine where
  triesAhead : Table → List Condition → Bool
  triesOn : Table → List Condition → Row → Bool

/-- An engine without a planner: it tries each row by the conditions as they are written. -/
def Engine.inTurn : Engine where
  triesAhead _ _ := false
  triesOn t conditions row := meetsTooLong t row conditions

/-- Rows in the order in which a scan meets them. A dropped table has no rows to offer at all. -/
structure Database where
  table : Table
  rows : List Row := []
  dropped : Bool := false
  engine : Engine := .inTurn

inductive SessionFault where
  | unreachable
  | rejected
  /-- The system refuses the connection, by the name of its error. -/
  | system (name : String)
  | foreign (fault : Fault)
  deriving DecidableEq, Repr

inductive Result where
  | number (n : Nat)
  | rows (rows : List Row)
  deriving Inhabited

def Table.storedRow (t : Table) (cells : Row) : Row :=
  (t.columns.zip cells).map fun (c, cell) => cell.stored c.type.affinity

namespace Database

def triesTooLong (db : Database) (conditions : List Condition) : Bool :=
  conditions.any (·.any Atom.isTooLong) &&
    (db.engine.triesAhead db.table conditions ||
      db.rows.any (db.engine.triesOn db.table conditions))

def isSelected (db : Database) (conditions : List Condition) (row : Row) : Bool :=
  conditions.all (Condition.holds db.table row)

def selected (db : Database) (conditions : List Condition) : List Row :=
  db.rows.filter (db.isSelected conditions)

/-- The order of two rows by sort keys in turn; nulls rank lowest. -/
def compareRows (t : Table) : List SortKey → Row → Row → Ordering
  | [], _, _ => .eq
  | k :: rest, a, b =>
    let first := (t.cell a k.column).order (t.cell b k.column)
    let first := match k.direction with
      | .ascending => first
      | .descending => first.swap
    first.then (compareRows t rest a b)

def page (limit offset : Option Int) (rows : List Row) : List Row :=
  let rest := rows.drop (offset.getD 0).toNat
  match limit with
  | some n => if 0 ≤ n then rest.take n.toNat else rest
  | none => rest

def bounds (c : Column) : Condition → Bool
  | [.compares d comparison _] => d.name == c.name && comparison != .notEqual
  | [.isAmong d _] => d.name == c.name
  | _ => false

/-- The rows in the order in which a selection meets them: by the primary key when a condition
bounds it. -/
def scan (db : Database) (conditions : List Condition) : List Row :=
  match db.table.columns with
  | [] => db.rows
  | key :: _ =>
    if conditions.any (bounds key) then
      db.rows.mergeSort fun a b => (db.table.cell a key).order (db.table.cell b key) != .gt
    else db.rows

def select (db : Database) (s : Selection) : List Row :=
  let met := (db.scan s.conditions).filter (db.isSelected s.conditions)
  page s.limit s.offset (met.mergeSort fun a b => compareRows db.table s.order a b != .gt)

def replaceCell (t : Table) (c : Column) (cell : Cell) (row : Row) : Row :=
  (t.columns.zip row).map fun (d, old) => if d.name == c.name then cell else old

/-- The database after a column is set in the rows that meet a condition. -/
def update (db : Database) (c : Column) (cell : Cell) (condition : Condition) : Database :=
  let cell := cell.stored c.type.affinity
  { db with rows := db.rows.map fun row =>
      if db.isSelected [condition] row then replaceCell db.table c cell row else row }

def run (db : Database) : Statement → Database × Result
  | .count conditions => (db, .number (db.selected conditions).length)
  | .page s => (db, .rows (db.select s))
  | .rowsWhere condition => (db, .rows (db.selected [condition]))
  | .set c value condition =>
    let cell := boundCell (send? c.type.sendType value)
    (db.update c cell condition, .number (db.selected [condition]).length)

/-- A database of a table that holds rows of values. An integer primary key orders the scan. -/
def ofValues (t : Table) (rows : List (List Value)) : Database :=
  let cellOf := fun (c : Column) (v : Value) => boundCell (send? c.type.sendType v)
  let rows := rows.map fun vs =>
    t.storedRow ((t.columns.zip vs).map fun (c, v) => cellOf c v)
  match t.columns with
  | ⟨_, .integer⟩ :: _ =>
    let key := fun row : Row => row.headD .null
    { table := t, rows := rows.mergeSort fun a b => (key a).order (key b) != .gt }
  | _ => { table := t, rows }

end Database

structure Sent where
  text : String
  parameters : List Value

structure Session where
  database : Database
  /-- What happens to the next statements before they are sent. -/
  faults : List (Option SessionFault) := []
  log : List Sent := []
  /-- The statements that it has been asked to send, whether or not they reached the database. -/
  asked : List Statement := []

namespace Session

def bindFault (parameters : List Value) : Option SessionFault :=
  match parameters.mapM bind with
  | .ok _ => none
  | .error .overflow => some (.foreign .overflow)
  | .error .unsupported => some .rejected

/-- Why a statement that has been sent fails, if it does. The engine prepares it before its
parameters are bound. -/
def faultOf (db : Database) (statement : Statement) (parameters : List Value) :
    Option SessionFault :=
  if db.dropped || !statement.isWithinLimits then some .rejected
  else match bindFault parameters with
    | some fault => some fault
    | none => if db.triesTooLong statement.conditions then some .rejected else none

def send (s : Session) (statement : Statement) : Session × Except SessionFault Result :=
  match s.faults with
  | some fault :: rest =>
    ({ s with faults := rest, asked := s.asked ++ [statement] }, .error fault)
  | faults =>
    let s := { s with faults := faults.drop 1, asked := s.asked ++ [statement] }
    match statement.parameters? with
    | none => (s, .error .rejected)
    | some parameters =>
      let sent := { text := statement.text s.database.table, parameters }
      let s := { s with log := s.log ++ [sent] }
      match faultOf s.database statement parameters with
      | some fault => (s, .error fault)
      | none =>
        let (database, result) := s.database.run statement
        ({ s with database }, .ok result)

end Session

end Catalogue.Relational
