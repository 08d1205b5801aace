import Catalogue.Document.Pipeline
import Catalogue.Failure

/-!
Collections of documents and how they answer a pipeline. A collection in memory knows neither free
text nor random order.
-/

namespace Catalogue.Document

inductive StoreFault where
  | unreachable
  | rejected
  | foreign (fault : Fault)
  deriving DecidableEq, Repr

inductive Collection where
  /-- Documents in memory. -/
  | documents (docs : List Entries)
  /-- A store that gives the same answers to every pipeline. -/
  | answering (answers : List Entries)
  | failing (fault : StoreFault)

/-- A value as it is stored: moments are universal, to the millisecond. -/
def storedValue : Value → Value
  | .stamp s => .stamp { moment := (s.universal?.getD s.moment).toMillisecond }
  | v => v

def stored (doc : Entries) : Entries :=
  doc.map fun (k, v) => (k, storedValue v)

/-- The order of two values: by sort, then within the sort. Missing values count as null. -/
def compareValues (v w : Value) : Ordering :=
  (compare (Condition.rank v) (Condition.rank w)).then <|
    if (v.before? w).getD false then .lt
    else if (w.before? v).getD false then .gt
    else .eq

def compareDocuments : List (String × Direction) → Entries → Entries → Ordering
  | [], _, _ => .eq
  | (path, direction) :: rest, a, b =>
    let first := compareValues (Condition.valueAt a path) (Condition.valueAt b path)
    let first := match direction with
      | .ascending => first
      | .descending => first.swap
    first.then (compareDocuments rest a b)

/-- The documents without the first `n`; a negative `n` counts from the end. -/
def skip (n : Int) (docs : List Entries) : List Entries :=
  if 0 ≤ n then docs.drop n.natAbs else docs.drop (docs.length - n.natAbs)

/-- The first `n` documents; a negative `n` counts from the end. -/
def take (n : Int) (docs : List Entries) : List Entries :=
  if 0 ≤ n then docs.take n.natAbs else docs.take (docs.length - n.natAbs)

def matching (conditions : List Condition) (docs : List Entries) : List Entries :=
  docs.filter fun doc => conditions.all (Condition.holds doc)

def sorted (sort : List (String × Direction)) (docs : List Entries) : List Entries :=
  docs.mergeSort fun a b => compareDocuments (distinctKeys sort) a b != .gt

def Pipeline.page (p : Pipeline) (found : List Entries) : List Entries :=
  let all := sorted p.sort found
  let rest := match p.offset with
    | some n => skip n all
    | none => all
  match p.limit with
  | some n => take n rest
  | none => rest

/-- The answer to a pipeline: the page, and the number of matches if there are any. -/
def answer (rows : List Entries) (count : Nat) : Entries :=
  let total := if count = 0 then [] else [single "count" (.int count)]
  [(.text "rows", .list (rows.map .object)), (.text "total", .list total)]

def Collection.ask (p : Pipeline) : Collection → Except StoreFault (List Entries)
  | .failing fault => .error fault
  | .answering answers => .ok answers
  | .documents docs =>
    if p.text.isSome && !docs.isEmpty then .error (.foreign .unsupported)
    else
      let found := matching p.conditions (docs.map stored)
      if p.seed.isSome && !found.isEmpty then .error .rejected
      else .ok [answer (p.page found) found.length]

end Catalogue.Document
