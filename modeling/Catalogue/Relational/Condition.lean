import Catalogue.Field.Wildcard
import Catalogue.Relational.Binding
import Catalogue.Relational.Like

/-!
Conditions on rows: their written form, their parameters, and when they are true of a row. A
condition that meets a null is not true.
-/

namespace Catalogue.Relational

inductive Comparison where
  | equal
  | notEqual
  | atLeast
  | atMost
  deriving DecidableEq, Repr

def Comparison.sign : Comparison → String
  | .equal => "="
  | .notEqual => "!="
  | .atLeast => ">="
  | .atMost => "<="

def Comparison.allows : Comparison → Ordering → Bool
  | .equal, o => o == .eq
  | .notEqual, o => o != .eq
  | .atLeast, o => o != .lt
  | .atMost, o => o != .gt

inductive Atom where
  | isNull (c : Column)
  | isNotNull (c : Column)
  /-- The column compared with a bound value. -/
  | compares (c : Column) (comparison : Comparison) (value : Value)
  /-- The column compared with a truth value that is written out. -/
  | comparesTruth (c : Column) (comparison : Comparison) (truth : Bool)
  | isAmong (c : Column) (values : List Value)
  | matchesLike (c : Column) (pattern : String)
  /-- The same without regard to case. -/
  | matchesFolded (c : Column) (pattern : String)

/-- Alternatives of which one has to be true. -/
abbrev Condition := List Atom

/-- A row: its cells in the order of the columns. -/
abbrev Row := List Cell

def Table.cell (t : Table) (row : Row) (c : Column) : Cell :=
  ((t.columns.zip row).find? fun entry => entry.1.name == c.name).elim .null Prod.snd

namespace Atom

def column : Atom → Column
  | .isNull c | .isNotNull c | .compares c _ _ | .comparesTruth c _ _ | .isAmong c _
  | .matchesLike c _ | .matchesFolded c _ => c

def text (t : Table) (a : Atom) : String :=
  let name := t.qualified a.column
  match a with
  | .isNull _ => name ++ " IS NULL"
  | .isNotNull _ => name ++ " IS NOT NULL"
  | .compares _ comparison _ => name ++ " " ++ comparison.sign ++ " ?"
  | .comparesTruth _ comparison truth =>
    name ++ " " ++ comparison.sign ++ " " ++ if truth then "1" else "0"
  | .isAmong _ [] => name ++ " IN (SELECT 1 FROM (SELECT 1) WHERE 1!=1)"
  | .isAmong _ values => name ++ " IN (" ++ ", ".intercalate (values.map fun _ => "?") ++ ")"
  | .matchesLike _ _ => name ++ " LIKE ? ESCAPE '\\'"
  | .matchesFolded _ _ => "lower(" ++ name ++ ") LIKE lower(?) ESCAPE '\\'"

/-- The parameters of a condition; none when one cannot be sent. -/
def parameters? : Atom → Option (List Value)
  | .isNull _ | .isNotNull _ | .comparesTruth .. => some []
  | .compares c _ v => (send? (sendTypeFor c.type v) v).map fun sent => [sent]
  | .isAmong c values => values.mapM (send? (sendTypeForAll c.type values))
  | .matchesLike _ pattern | .matchesFolded _ pattern => some [.text pattern]

/-- Is a comparison of a column's cell with a parameter true? -/
def isTrueOf (affinity : Affinity) (comparison : Comparison) (cell parameter : Cell) : Bool :=
  let parameter := parameter.compared affinity
  !cell.isNull && !parameter.isNull && comparison.allows (cell.order parameter)

def isLike (pattern : String) (cell : Cell) : Bool :=
  match cell.textForm? with
  | some s => like '\\' (pattern.toList.takeWhile (· != '\x00')) s
  | none => false

def holds (t : Table) (row : Row) (a : Atom) : Bool :=
  let cell := t.cell row a.column
  let affinity := a.column.type.affinity
  match a with
  | .isNull _ => cell.isNull
  | .isNotNull _ => !cell.isNull
  | .compares c comparison v =>
    isTrueOf affinity comparison cell (boundCell (send? (sendTypeFor c.type v) v))
  | .comparesTruth _ comparison truth =>
    isTrueOf affinity comparison cell (.integer (if truth then 1 else 0))
  | .isAmong c values =>
    let type := sendTypeForAll c.type values
    values.any fun v => isTrueOf affinity .equal cell (boundCell (send? type v))
  | .matchesLike _ pattern | .matchesFolded _ pattern => isLike pattern cell

end Atom

namespace Condition

/-- The written form of alternatives, in parentheses where other conditions stand beside them. -/
def text (t : Table) (alone : Bool) (c : Condition) : String :=
  let body := " OR ".intercalate (c.map (Atom.text t))
  if alone || c.length ≤ 1 then body else "(" ++ body ++ ")"

def holds (t : Table) (row : Row) (c : Condition) : Bool :=
  c.any (Atom.holds t row)

/-- The parameters of alternatives; none when one cannot be sent. -/
def parameters? (c : Condition) : Option (List Value) :=
  (c.mapM Atom.parameters?).map List.flatten

def equalTo (c : Column) : Value → Atom
  | .null => .isNull c
  | .bool b => .comparesTruth c .equal b
  | v => .compares c .equal v

def differentFrom (c : Column) : Value → Atom
  | .null => .isNotNull c
  | .bool b => .comparesTruth c .notEqual b
  | v => .compares c .notEqual v

end Condition

end Catalogue.Relational
