import Catalogue.Number.Binary64
import Catalogue.Text.Numeral
import Catalogue.Timestamp.Token

/-!
Decimal numbers of timestamps. Whole parts and comparisons are exact; fractions are taken to 28
significant digits, and a number with a longer whole part has no fraction.
-/

namespace Catalogue.Timestamp

/-- Why a timestamp is refused: it cannot be read, or a fraction lies beyond the precision. -/
inductive Problem where
  | unreadable
  | imprecise
  deriving DecidableEq, Repr

/-- The number `units / 10 ^ places`. -/
structure Quantity where
  units : Nat
  places : Nat

namespace Quantity

def precision : Nat := 28

def ofToken? (t : Token) : Option Quantity := do
  let whole := t.takeWhile (· != '.')
  let fraction := (t.dropWhile (· != '.')).drop 1
  let ds ← Text.digitValues? (whole ++ fraction)
  if ds.isEmpty then none else some ⟨Text.ofDigits ds, fraction.length⟩

def whole (q : Quantity) : Nat :=
  q.units / Nat.pow 10 q.places

def atLeast (q : Quantity) (n : Nat) : Bool :=
  n * Nat.pow 10 q.places ≤ q.units

def atMost (q : Quantity) (n : Nat) : Bool :=
  q.units ≤ n * Nat.pow 10 q.places

/-- The quantity rounded to the significant digits; a half goes to the even neighbour. -/
def round (q : Quantity) : Quantity :=
  let excess := (Text.decimal q.units).length - precision
  if excess = 0 then q
  else if excess ≤ q.places then
    ⟨Number.Binary64.roundHalfEven q.units (Nat.pow 10 excess), q.places - excess⟩
  else
    ⟨Number.Binary64.roundHalfEven q.units (Nat.pow 10 excess) *
      Nat.pow 10 (excess - q.places), 0⟩

def fraction (q : Quantity) : Except Problem Quantity :=
  if Nat.pow 10 precision ≤ q.whole then .error .imprecise
  else .ok (round ⟨q.units % Nat.pow 10 q.places, q.places⟩)

/-- The sixtieths in the part after the point, or nothing when there is no such part. -/
def sixtieths? (q : Quantity) : Except Problem (Option Nat) := do
  let f ← q.fraction
  if f.units = 0 then return none
  else return some (round ⟨60 * f.units, f.places⟩).whole

end Quantity

def require {α : Type} : Option α → Except Problem α
  | some a => .ok a
  | none => .error .unreadable

def natural (t : Token) : Except Problem Nat :=
  require (Text.natural? t)

end Catalogue.Timestamp
