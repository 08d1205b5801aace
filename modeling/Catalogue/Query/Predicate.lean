import Catalogue.Field.Wildcard
import Catalogue.Value.Literal

/-!
What a compiled request asks of a store: predicates on fields and directives for the order.
-/

namespace Catalogue

inductive Predicate where
  | equals (field : String) (value : Value)
  | notEquals (field : String) (value : Value)
  | isSet (field : String)
  | isAbsent (field : String)
  | atLeast (field : String) (value : Value)
  | atMost (field : String) (value : Value)
  | isAmong (field : String) (values : List Value)
  | matching (field : String) (pattern : Wildcard)
  deriving Inhabited

inductive Direction where
  | ascending
  | descending
  deriving DecidableEq, Repr

/-- A key of the order. With a seed the order is random, and the same for the same seed. -/
structure SortDirective where
  field : String
  direction : Direction := .ascending
  seed : Option String := none
  deriving DecidableEq, Repr

namespace Direction

/-- Reads a direction from a text, without regard to case and blanks around it. -/
def ofValue? : Value → Option Direction
  | .text s =>
    let word := String.ofList ((Text.trimBy Text.isBlank s.toList).map Char.toLower)
    if word == "asc" then some .ascending
    else if word == "desc" then some .descending
    else none
  | _ => none

end Direction

def SortDirective.isRandom (d : SortDirective) : Bool :=
  d.seed.isSome

namespace Predicate

def field : Predicate → String
  | .equals f _ | .notEquals f _ | .isSet f | .isAbsent f | .atLeast f _ | .atMost f _
  | .isAmong f _ | .matching f _ => f

def wildcardLiteral (w : Wildcard) : String :=
  let flag := fun b : Bool => if b then "True" else "False"
  "WildcardPattern(text=" ++ Text.quoted w.text ++ ", leading=" ++ flag w.leading ++
    ", trailing=" ++ flag w.trailing ++ ")"

def text? (p : Predicate) : Option String :=
  let withOperand := fun (field mark : String) (operand : Option String) =>
    operand.map fun t => "<" ++ field ++ " " ++ mark ++ " " ++ t ++ ">"
  match p with
  | .equals f v => withOperand f "eq" v.literal?
  | .notEquals f v => withOperand f "ne" v.literal?
  | .isSet f => some ("<" ++ f ++ " exists>")
  | .isAbsent f => some ("<" ++ f ++ " absent>")
  | .atLeast f v => withOperand f "gte" v.literal?
  | .atMost f v => withOperand f "lte" v.literal?
  | .isAmong f vs => withOperand f "in" (Value.sequenceLiteral? vs)
  | .matching f w => withOperand f "pattern" (some (wildcardLiteral w))

end Predicate

end Catalogue
