import Catalogue.Text.Digit
import Catalogue.Text.Letter
import Catalogue.Text.Blank

/-!
Regular expressions that a whole text has to match, by derivatives: what is left of an expression
after one character.
-/

namespace Catalogue

inductive CharClass where
  | single (c : Char)
  | range (first last : Char)
  /-- Letters, digits and other numbers of any script, and the underscore. -/
  | wordChar
  | decimal
  | blank
  /-- Every character but the line feed. -/
  | notNewline
  | union (classes : List CharClass)
  | complement (set : CharClass)
  deriving Inhabited

def CharClass.has (c : Char) : CharClass → Bool
  | .single d => c == d
  | .range first last => first ≤ c && c ≤ last
  | .wordChar => Text.isLetter c || Text.isNumber c || c == '_'
  | .decimal => Text.isDecimal c
  | .blank => Text.isBlank c
  | .notNewline => c != '\n'
  | .union classes => anyHas classes
  | .complement set => !has c set
where
  anyHas : List CharClass → Bool
    | [] => false
    | s :: rest => has c s || anyHas rest

inductive Pattern where
  | nothing
  | empty
  | one (set : CharClass)
  | both (first second : Pattern)
  | either (left right : Pattern)
  | many (p : Pattern)
  deriving Inhabited

namespace Pattern

def isNullable : Pattern → Bool
  | .nothing | .one _ => false
  | .empty | .many _ => true
  | .both p q => p.isNullable && q.isNullable
  | .either p q => p.isNullable || q.isNullable

/-- A sequence, without parts that cannot contribute. -/
def join : Pattern → Pattern → Pattern
  | .nothing, _ | _, .nothing => .nothing
  | .empty, q => q
  | p, .empty => p
  | p, q => .both p q

/-- A choice, without parts that cannot contribute. -/
def choose : Pattern → Pattern → Pattern
  | .nothing, q => q
  | p, .nothing => p
  | p, q => .either p q

def derivative (c : Char) : Pattern → Pattern
  | .nothing | .empty => .nothing
  | .one set => if set.has c then .empty else .nothing
  | .both p q =>
    if p.isNullable then choose (join (derivative c p) q) (derivative c q)
    else join (derivative c p) q
  | .either p q => choose (derivative c p) (derivative c q)
  | .many p => join (derivative c p) (.many p)

def matchesAll (p : Pattern) : List Char → Bool
  | [] => p.isNullable
  | c :: rest => (p.derivative c).matchesAll rest

/-- From `least` to `most` repetitions; without `most`, any number from `least` on. -/
def repeated (p : Pattern) (least : Nat) (most : Option Nat) : Pattern :=
  let required := (List.replicate least p).foldr join .empty
  match most with
  | none => join required (.many p)
  | some n =>
    let optional := (List.replicate (n - least) p).foldr (fun q rest => choose .empty (join q rest))
      .empty
    join required optional

end Pattern

end Catalogue
