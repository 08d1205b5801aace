import Catalogue.Calendar.Moment
import Catalogue.Number.Binary64

/-!
The values that requests carry and stores hold. An object keeps its entries in order; its keys are
pairwise different, which `Entries.put` maintains. Values are nested less deep than calls may be.
-/

namespace Catalogue

open Number (Binary64)
open Calendar (Date Stamp)

inductive Value where
  | null
  | bool (b : Bool)
  | int (n : Int)
  | float (x : Binary64)
  | text (s : String)
  | bytes (octets : ByteArray)
  | list (items : List Value)
  | object (entries : List (Value × Value))
  | stamp (s : Stamp)
  | date (d : Date)
  deriving Inhabited

inductive Numeric where
  | int (n : Int)
  | float (x : Binary64)

/-- The exact order of two numbers. -/
def Numeric.order : Numeric → Numeric → Option Ordering
  | .int m, .int n => some (compare m n)
  | .float x, .int n => x.orderInt n
  | .int m, .float y => (y.orderInt m).map .swap
  | .float x, .float y => x.order y

namespace Value

/-- The number that a value counts as; truth values count as 0 and 1. -/
def numeric? : Value → Option Numeric
  | .bool b => some (.int (if b then 1 else 0))
  | .int n => some (.int n)
  | .float x => some (.float x)
  | _ => none

/-- Equality of values. Numbers are compared by their exact value, truth values among them, and
objects without regard to order. -/
def same : Value → Value → Bool
  | .null, .null => true
  | .text s, .text t => s == t
  | .bytes a, .bytes b => a == b
  | .list xs, .list ys => sameItems xs ys
  | .object es, .object fs => es.length == fs.length && sameEntries es fs
  | .stamp s, .stamp t => s.order t == some .eq
  | .date d, .date e => d == e
  | .bool b, w => sameNumber (.int (if b then 1 else 0)) w
  | .int n, w => sameNumber (.int n) w
  | .float x, w => sameNumber (.float x) w
  | _, _ => false
where
  sameNumber (a : Numeric) (w : Value) : Bool :=
    match w.numeric? with
    | some b => a.order b == some .eq
    | none => false
  sameItems : List Value → List Value → Bool
    | [], [] => true
    | v :: vs, w :: ws => same v w && sameItems vs ws
    | _, _ => false
  sameEntries : List (Value × Value) → List (Value × Value) → Bool
    | [], _ => true
    | (k, v) :: rest, fs => (fs.any fun (l, w) => same k l && same v w) && sameEntries rest fs

/-- Does the value count as true where a truth value is expected? -/
def isTruthy : Value → Bool
  | .null => false
  | .bool b => b
  | .int n => n != 0
  | .float x => !x.isZero
  | .text s => !s.isEmpty
  | .bytes b => b.size != 0
  | .list items => !items.isEmpty
  | .object entries => !entries.isEmpty
  | .stamp _ | .date _ => true

def isNull : Value → Bool
  | .null => true
  | _ => false

def isText (s : String) : Value → Bool
  | .text t => t == s
  | _ => false

def isScalar : Value → Bool
  | .text _ | .int _ | .float _ | .bool _ => true
  | _ => false

end Value

abbrev Entries := List (Value × Value)

namespace Entries

def get? (entries : Entries) (key : String) : Option Value :=
  (entries.find? fun e => e.1.isText key).map Prod.snd

def has (entries : Entries) (key : String) : Bool :=
  entries.any fun e => e.1.isText key

def values (entries : Entries) : List Value :=
  entries.map Prod.snd

/-- The entries other than the one under a text key. -/
def erase (entries : Entries) (key : String) : Entries :=
  entries.filter fun e => !e.1.isText key

theorem has_eq_isSome_get? (entries : Entries) (key : String) :
    entries.has key = (entries.get? key).isSome := by
  rw [Bool.eq_iff_iff]
  simp [has, get?]

theorem get?_erase_self (entries : Entries) (key : String) :
    get? (erase entries key) key = none := by
  simp [get?, erase]

theorem get?_erase_of_ne (entries : Entries) {key other : String} (h : other ≠ key) :
    get? (erase entries key) other = get? entries other := by
  unfold get? erase
  rw [List.find?_filter]
  have same : ∀ v : Value, (!v.isText key && v.isText other) = v.isText other := by
    intro v
    cases v with
    | text s =>
      by_cases hs : s = other
      · simp [Value.isText, hs, h]
      · simp [Value.isText, hs]
    | _ => rfl
  congr 2
  funext e
  simpa using same e.1

/-- Stores a value: an entry with an equal key keeps its place and its key. -/
def put : Entries → Value → Value → Entries
  | [], k, v => [(k, v)]
  | (l, w) :: rest, k, v => if l.same k then (l, v) :: rest else (l, w) :: put rest k v

/-- The object that stores pairs one after the other. -/
def ofPairs (pairs : List (Value × Value)) : Entries :=
  pairs.foldl (fun entries (k, v) => put entries k v) []

end Entries

end Catalogue
