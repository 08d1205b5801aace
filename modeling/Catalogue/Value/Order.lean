import Catalogue.Value.Basic

/-!
The order of values. Only values of one sort are ordered: numbers, texts, octet strings, lists,
dates, and stamps that both have an offset or both have none.
-/

namespace Catalogue

namespace Value

def textBefore (s t : String) : Bool :=
  compare s t == .lt

def octetsBefore : List UInt8 → List UInt8 → Bool
  | _, [] => false
  | [], _ :: _ => true
  | a :: as, b :: bs => if a == b then octetsBefore as bs else a < b

/-- Does `v` stand before `w`? `none` where the two have no order. -/
def before? : Value → Value → Option Bool
  | .text s, .text t => some (textBefore s t)
  | .bytes a, .bytes b => some (octetsBefore a.toList b.toList)
  | .list vs, .list ws => itemsBefore? vs ws
  | .stamp s, .stamp t => (s.order t).map (· == .lt)
  | .date d, .date e => some (d.ordinal < e.ordinal)
  | .bool b, w => numberBefore? (.int (if b then 1 else 0)) w
  | .int n, w => numberBefore? (.int n) w
  | .float x, w => numberBefore? (.float x) w
  | _, _ => none
where
  numberBefore? (a : Numeric) (w : Value) : Option Bool :=
    w.numeric?.map fun b => a.order b == some .lt
  itemsBefore? : List Value → List Value → Option Bool
    | _, [] => some false
    | [], _ :: _ => some true
    | v :: vs, w :: ws => if v.same w then itemsBefore? vs ws else before? v w

end Value

end Catalogue
