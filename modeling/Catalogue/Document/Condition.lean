import Catalogue.Document.Regex
import Catalogue.Value.Order

/-!
Conditions on documents: their written form and when they hold. Documents are flat. Names with a
dollar sign in front are operators and no fields, and lie outside the model.
-/

namespace Catalogue.Document

inductive Condition where
  | equals (path : String) (value : Value)
  | notEquals (path : String) (value : Value)
  | atLeast (path : String) (value : Value)
  | atMost (path : String) (value : Value)
  | isAmong (path : String) (values : List Value)
  | found (path : String) (regex : Regex)
  | isAbsent (path : String)
  | isSet (path : String)

def single (key : String) (v : Value) : Value :=
  .object [(.text key, v)]

namespace Condition

def document : Condition → Value
  | .equals path v => single path (single "$eq" v)
  | .notEquals path v => single path (single "$ne" v)
  | .atLeast path v => single path (single "$gte" v)
  | .atMost path v => single path (single "$lte" v)
  | .isAmong path vs => single path (single "$in" (.list vs))
  | .found path regex => single path (single "$regex" (.text regex.source))
  | .isAbsent path =>
    single "$or" (.list [single path (single "$exists" (.bool false)),
      single path (single "$eq" .null)])
  | .isSet path =>
    single path (.object [(.text "$exists", .bool true), (.text "$ne", .null)])

def rank : Value → Nat
  | .null => 0
  | .int _ | .float _ => 1
  | .text _ => 2
  | .object _ => 3
  | .list _ => 4
  | .bytes _ => 5
  | .bool _ => 6
  | .stamp _ | .date _ => 7

/-- Is `v` of the same sort as `w` and not after it? -/
def notAfter (v w : Value) : Bool :=
  rank v == rank w && !v.isNull && ((w.before? v).map not).getD false

/-- Does the path lead into an object? -/
def isInner (path : String) : Bool :=
  path.toList.contains '.'

/-- The value at a path; a missing one counts as null. In a flat document nothing stands where a path
leads into an object, even if an entry has the path for its name. -/
def valueAt (doc : Entries) (path : String) : Value :=
  if isInner path then .null else (doc.get? path).getD .null

def holds (doc : Entries) : Condition → Bool
  | .equals path v => (valueAt doc path).same v
  | .notEquals path v => !(valueAt doc path).same v
  | .atLeast path v => notAfter v (valueAt doc path)
  | .atMost path v => notAfter (valueAt doc path) v
  | .isAmong path vs => vs.any (valueAt doc path).same
  | .found path regex =>
    match valueAt doc path with
    | .text s => regex.finds s
    | _ => false
  | .isAbsent path => (valueAt doc path).isNull
  | .isSet path => !(valueAt doc path).isNull

end Condition

end Catalogue.Document
