import Catalogue.Filter.Compile
import Catalogue.Query.Order
import Catalogue.Query.Request

/-!
The plan of a listing: what a request compiles to before any store is asked.
-/

namespace Catalogue

open Calendar (Date)

structure Plan where
  predicates : List Predicate
  sort : List SortDirective

namespace Plan

/-- A clause without the entry for the marker of deleted rows. -/
def withoutMarkerIn (marker : String) : Value → Value
  | .object entries => .object (Entries.erase entries marker)
  | v => v

/-- A filter without entries for the marker of deleted rows, which is never open to requests. -/
def withoutMarker (settings : Settings) (filter : Value) : Value :=
  match settings.deletedMarker with
  | none => filter
  | some marker =>
    if marker.isEmpty then filter
    else match filter with
      | .list clauses => .list (clauses.map (withoutMarkerIn marker))
      | v => withoutMarkerIn marker v

/-- Compiles a filter for an adapter that accepts lists of clauses or does not. -/
def compileFilter (today : Date) (registry : Registry) (acceptsClauses : Bool) (filter : Value) :
    Outcome (List Predicate) :=
  if acceptsClauses then Filter.compileClauses today registry filter
  else Filter.compile today registry filter

def ofRequest (today : Date) (registry : Registry) (settings : Settings) (acceptsClauses : Bool)
    (request : Request) : Outcome Plan := do
  let predicates ← compileFilter today registry acceptsClauses
    (withoutMarker settings request.filter)
  let sort ← Order.compile registry settings.randomSeedLength request.order
  return { predicates, sort }

end Plan

end Catalogue
