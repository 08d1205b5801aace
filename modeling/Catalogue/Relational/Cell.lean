import Catalogue.Number.Notation
import Catalogue.Number.Shortest
import Catalogue.Relational.Table

/-!
Stored values, their conversion by the affinity of a column, and their order: null before numbers
before texts before octet strings.
-/

namespace Catalogue.Relational

open Number (Binary64)

inductive Cell where
  | null
  | integer (n : Int)
  | real (x : Binary64)
  | text (s : String)
  | blob (octets : ByteArray)
  deriving Inhabited

/-- What a column makes of the values that meet it. -/
inductive Affinity where
  | text
  | numeric
  | real
  deriving DecidableEq, Repr

def ColumnType.affinity : ColumnType → Affinity
  | .text => .text
  | .integer | .boolean | .moment => .numeric
  | .number => .real

def isStorable (n : Int) : Bool :=
  -(Nat.pow 2 63 : Nat) ≤ n && n < (Nat.pow 2 63 : Nat)

namespace Cell

def isNull : Cell → Bool
  | .null => true
  | _ => false

def isSpace (c : Char) : Bool :=
  c == ' ' || (0x9 ≤ c.toNat && c.toNat ≤ 0xd)

/-- Reads a text as a number, if all of it is one. -/
def numberOfText? (s : String) : Option Cell :=
  let body := Text.trimBy isSpace s.toList
  let (negative, unsigned) := match body with
    | '-' :: rest => (true, rest)
    | '+' :: rest => (false, rest)
    | _ => (false, body)
  if !unsigned.isEmpty && unsigned.all Char.isDigit then
    let n : Int := Number.ofDigitChars unsigned
    let n := if negative then -n else n
    some (if isStorable n then .integer n else .real (.ofInt n))
  else (Number.unsigned? negative unsigned).map .real

def asText : Cell → Cell
  | .integer n => .text (.ofList (Text.signed n))
  | .real x => .text x.columnText
  | c => c

/-- A text that writes a number as that number. -/
def asNumber : Cell → Cell
  | .text s => (numberOfText? s).getD (.text s)
  | c => c

def asInteger : Cell → Cell
  | .real x =>
    match x.truncate? with
    | some n => if x.isIntegral && isStorable n then .integer n else .real x
    | none => .real x
  | c => c

def asReal : Cell → Cell
  | .integer n => .real (.ofInt n)
  | c => c

def compared : Affinity → Cell → Cell
  | .text, c => c.asText
  | .numeric, c | .real, c => c.asNumber

/-- A cell as a column of an affinity stores it. A column of floating-point numbers keeps whole ones
as integers, so that zero has no sign there. -/
def stored : Affinity → Cell → Cell
  | .text, c => c.asText
  | .numeric, c => c.asNumber.asInteger
  | .real, c => c.asNumber.asInteger.asReal

def rank : Cell → Nat
  | .null => 0
  | .integer _ | .real _ => 1
  | .text _ => 2
  | .blob _ => 3

def numeric? : Cell → Option Numeric
  | .integer n => some (.int n)
  | .real x => some (.float x)
  | _ => none

def orderOctets : List UInt8 → List UInt8 → Ordering
  | [], [] => .eq
  | [], _ :: _ => .lt
  | _ :: _, [] => .gt
  | a :: as, b :: bs => (compare a b).then (orderOctets as bs)

def order (a b : Cell) : Ordering :=
  match a, b with
  | .text s, .text t => compare s t
  | .blob s, .blob t => orderOctets s.toList t.toList
  | a, b =>
    match a.numeric?, b.numeric? with
    | some x, some y => (x.order y).getD .eq
    | _, _ => compare a.rank b.rank

/-- The text in a cell, up to a null character; none in a null. -/
def textForm? (c : Cell) : Option (List Char) :=
  match c.asText with
  | .text s => some (s.toList.takeWhile (· != '\x00'))
  | .blob octets => (String.fromUTF8? octets).map fun s => s.toList.takeWhile (· != '\x00')
  | _ => none

end Cell

end Catalogue.Relational
