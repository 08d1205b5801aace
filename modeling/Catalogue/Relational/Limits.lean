import Catalogue.Relational.Statement

/-!
What a database engine takes on: how deep the expressions of a statement may be nested, how many
parameters it may bind, how many sort keys it may have, and how long a pattern may be. Texts of a
billion octets, which an engine refuses as well, lie outside the model.
-/

namespace Catalogue.Relational

def maxDepth : Nat := 1000

def maxParameters : Nat := 32766

def maxSortKeys : Nat := 2000

def maxPatternSize : Nat := 50000

namespace Atom

def isTooLong : Atom → Bool
  | .matchesLike _ pattern | .matchesFolded _ pattern => maxPatternSize < pattern.utf8ByteSize
  | _ => false

/-- The depth of the condition's expression, in which a qualified column is two deep. -/
def depth : Atom → Nat
  | .matchesFolded .. => 4
  | _ => 3

def placeholders : Atom → Nat
  | .isNull _ | .isNotNull _ | .comparesTruth .. => 0
  | .compares .. | .matchesLike .. | .matchesFolded .. => 1
  | .isAmong _ values => values.length

/-- Is the condition written with a subquery? -/
def isSubquery : Atom → Bool
  | .isAmong _ values => values.isEmpty
  | _ => false

end Atom

/-- The depth of an expression that AND or OR joins to those before it. -/
def joinDepth (joined depth : Nat) : Nat :=
  max joined depth + 1

/-- The depth of expressions that are joined one after the other. -/
def joinedDepth : List Nat → Nat
  | [] => 0
  | first :: rest => rest.foldl joinDepth first

def Condition.depth (c : Condition) : Nat :=
  joinedDepth (c.map Atom.depth)

def Condition.placeholders (c : Condition) : Nat :=
  c.foldr (fun a n => a.placeholders + n) 0

def conditionPlaceholders (conditions : List Condition) : Nat :=
  conditions.foldr (fun c n => c.placeholders + n) 0

namespace Statement

/-- The depth of the statement's condition. The expression of a subquery, two deep, counts on top of
the whole condition around it. -/
def depth (s : Statement) : Nat :=
  joinedDepth (s.conditions.map Condition.depth) +
    if s.conditions.any (·.any Atom.isSubquery) then 2 else 0

def placeholders (s : Statement) : Nat :=
  conditionPlaceholders s.conditions +
    match s with
    | .page s => (pageParameters s.limit s.offset).length
    | .set .. => 1
    | .count _ | .rowsWhere _ => 0

def isWithinLimits (s : Statement) : Bool :=
  s.depth ≤ maxDepth && s.placeholders ≤ maxParameters && s.order.length ≤ maxSortKeys

end Statement

end Catalogue.Relational
