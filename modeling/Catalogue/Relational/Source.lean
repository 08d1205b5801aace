import Catalogue.Relational.Adapter

/-!
Single rows of a source: finding one by its identifier, and marking it as deleted.
-/

namespace Catalogue.Relational

open Calendar (Moment)

namespace Source

/-- The condition that a row has an identifier. A table without the identifier's column is a
fault. -/
def hasId (source : Source) (id : Value) : Outcome Condition :=
  match source.table.column? source.registry.idField with
  | some c => .ok [Condition.equalTo c id]
  | none => .error (.fault .missingKey)

def statementFailure (rejection : Failure) : SessionFault → Failure
  | .unreachable | .rejected => rejection
  | .system name => .fault (.named name)
  | .foreign fault => .fault fault

def fetchById (source : Source) (s : Session) (id : Value) : Session × Outcome (Option Entries) :=
  match source.hasId id with
  | .error e => (s, .error e)
  | .ok condition =>
    match s.send (.rowsWhere condition) with
    | (s, .error fault) => (s, .error (statementFailure .queryRejected fault))
    | (s, .ok (.rows [])) => (s, .ok none)
    | (s, .ok (.rows (row :: _))) =>
      match source.table.readRow row with
      | .ok values => (s, .ok (some values))
      | .error fault => (s, .error (.fault fault))
    | (s, .ok (.number _)) => (s, .error .queryRejected)

/-- Marks the row with an identifier as deleted at the moment `now`; says whether there is one. -/
def markAsDeleted (source : Source) (now : Moment) (s : Session) (id : Value) :
    Session × Outcome Bool :=
  match source.markerColumn? with
  | none => (s, .error (.noMarkerColumn source.table.name))
  | some marker =>
    match source.hasId id with
    | .error e => (s, .error e)
    | .ok condition =>
      match s.send (.set marker (.ofMoment now) condition) with
      | (s, .error fault) => (s, .error (statementFailure .deletionRejected fault))
      | (s, .ok (.number n)) => (s, .ok (0 < n))
      | (s, .ok (.rows _)) => (s, .error .deletionRejected)

end Source

end Catalogue.Relational
