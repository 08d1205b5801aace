/-!
Floating-point numbers of double precision as data. A finite number is a sign, a mantissa below
`2 ^ 53` and an exponent of two; the mantissa has 53 bits unless the exponent is the least one, so
every number is written in one way.
-/

namespace Catalogue.Number

inductive Binary64 where
  | nan
  | infinite (negative : Bool)
  | finite (negative : Bool) (mantissa : Nat) (exponent : Int)
  deriving DecidableEq, Repr, Inhabited

namespace Binary64

def minExponent : Int := -1074

def maxExponent : Int := 971

/-- `num / 2 ^ shift` over `den`, as a quotient of natural numbers. -/
def scaled (num den : Nat) (shift : Int) : Nat × Nat :=
  if shift < 0 then (num * Nat.pow 2 shift.natAbs, den) else (num, den * Nat.pow 2 shift.natAbs)

/-- The exponent at which `num / den` has a mantissa of 53 bits, or the least exponent. -/
def exponentFor (num den : Nat) : Int :=
  let guess : Int := (num.log2 : Int) - den.log2 - 52
  let (n, d) := scaled num den guess
  max minExponent (if n / d < Nat.pow 2 52 then guess - 1 else guess)

/-- The quotient rounded to a natural number; a half goes to the even neighbour. -/
def roundHalfEven (num den : Nat) : Nat :=
  let q := num / den
  let r := num % den
  if 2 * r < den then q
  else if den < 2 * r then q + 1
  else if q % 2 = 0 then q else q + 1

def ofRatio (negative : Bool) (num den : Nat) : Binary64 :=
  if num = 0 then .finite negative 0 minExponent
  else
    let e := exponentFor num den
    let (n, d) := scaled num den e
    let m := roundHalfEven n d
    let (m, e) := if m = Nat.pow 2 53 then (Nat.pow 2 52, e + 1) else (m, e)
    if maxExponent < e then .infinite negative else .finite negative m e

/-- The number nearest to `digits * 10 ^ exponent`. Exponents far outside the range are settled
without computing the power. -/
def ofDecimal (negative : Bool) (digits : Nat) (exponent : Int) : Binary64 :=
  if digits = 0 then .finite negative 0 minExponent
  else if 400 < exponent then .infinite negative
  else if exponent + (digits.log2 : Int) < -1200 then .finite negative 0 minExponent
  else if 0 ≤ exponent then ofRatio negative (digits * Nat.pow 10 exponent.natAbs) 1
  else ofRatio negative digits (Nat.pow 10 exponent.natAbs)

def ofInt (n : Int) : Binary64 :=
  ofRatio (n < 0) n.natAbs 1

def isFinite : Binary64 → Bool
  | .finite .. => true
  | _ => false

def isZero : Binary64 → Bool
  | .finite _ m _ => m == 0
  | _ => false

def signedMantissa (negative : Bool) (m : Nat) : Int :=
  if negative then -(m : Int) else m

/-- The order of `m * 2 ^ e` and `n * 2 ^ f`. -/
def compareScaled (m e n f : Int) : Ordering :=
  let low := min e f
  compare (m * (Nat.pow 2 (e - low).natAbs : Nat)) (n * (Nat.pow 2 (f - low).natAbs : Nat))

def order : Binary64 → Binary64 → Option Ordering
  | .nan, _ | _, .nan => none
  | .infinite s, .infinite t => some (compare (!s) (!t))
  | .infinite s, .finite .. => some (if s then .lt else .gt)
  | .finite .., .infinite s => some (if s then .gt else .lt)
  | .finite s m e, .finite t n f =>
    some (compareScaled (signedMantissa s m) e (signedMantissa t n) f)

/-- The exact order of a number and an integer. -/
def orderInt : Binary64 → Int → Option Ordering
  | .nan, _ => none
  | .infinite s, _ => some (if s then .lt else .gt)
  | .finite s m e, n => some (compareScaled (signedMantissa s m) e n 0)

/-- The integer part, toward zero; `none` where there is none. -/
def truncate? : Binary64 → Option Int
  | .finite s m e =>
    some (signedMantissa s (if e < 0 then m / Nat.pow 2 e.natAbs else m * Nat.pow 2 e.natAbs))
  | _ => none

def isIntegral (x : Binary64) : Bool :=
  match x.truncate? with
  | some n => x.orderInt n == some .eq
  | none => false

end Binary64

end Catalogue.Number
