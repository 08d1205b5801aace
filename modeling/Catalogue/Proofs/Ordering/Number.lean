import Mathlib.Algebra.Order.Field.Power
import Mathlib.Algebra.Order.Ring.Cast
import Mathlib.Order.Compare
import Mathlib.Tactic.Positivity
import Catalogue.Value.Basic

/-!
Numbers are ordered by their places on the rational line, with the infinite ones at its ends. The
order is transitive as long as every number is one.
-/

namespace Catalogue

open Number (Binary64)

theorem compare_map_of_strictMono {α β : Type} [LinearOrder α] [LinearOrder β] {f : α → β}
    (h : StrictMono f) (a b : α) : compare (f a) (f b) = compare a b := by
  rw [← cmp_eq_compare, ← cmp_eq_compare, h.cmp_map_eq]

theorem compare_intCast (m n : Int) : compare (m : ℚ) (n : ℚ) = compare m n :=
  compare_map_of_strictMono Int.cast_strictMono m n

namespace Number.Binary64

def scaledValue (m e : Int) : ℚ :=
  m * 2 ^ e

theorem compareScaled_eq (m e n f : Int) :
    compareScaled m e n f = compare (scaledValue m e) (scaledValue n f) := by
  have hpos : (0 : ℚ) < 2 ^ min e f := by positivity
  have hmono : StrictMono fun x : ℚ => x * 2 ^ min e f := strictMono_mul_right_of_pos hpos
  -- Both sides are brought to the smaller exponent.
  have scale : ∀ x g : Int, min e f ≤ g →
      ((x * 2 ^ (g - min e f).natAbs : Int) : ℚ) * 2 ^ min e f = scaledValue x g := by
    intro x g hg
    have hnat : ((g - min e f).natAbs : Int) = g - min e f := by omega
    have hadd : (2 : ℚ) ^ (g - min e f) * 2 ^ min e f = 2 ^ g := by
      rw [← zpow_add₀ (by norm_num)]
      congr 1
      omega
    have hpow : (2 : ℚ) ^ (g - min e f).natAbs = 2 ^ (g - min e f) := by
      rw [← zpow_natCast, hnat]
    rw [Int.cast_mul, Int.cast_pow, Int.cast_ofNat, hpow, mul_assoc, hadd, scaledValue]
  unfold compareScaled
  rw [← compare_intCast, ← compare_map_of_strictMono hmono]
  exact congrArg₂ compare (scale m e (min_le_left e f)) (scale n f (min_le_right e f))

/-- The place of a number: before, on or behind the rational line, and where on it. -/
def place : Binary64 → Int × ℚ
  | .nan => (2, 0)
  | .infinite negative => (if negative then -1 else 1, 0)
  | .finite negative m e => (0, scaledValue (signedMantissa negative m) e)

end Number.Binary64

namespace Numeric

def IsNumber (a : Numeric) : Prop :=
  a ≠ .float .nan

def place : Numeric → Int × ℚ
  | .int n => (0, n)
  | .float x => x.place

/-- Places are compared by their part of the line first. -/
def comparePlaces : Int × ℚ → Int × ℚ → Ordering :=
  compareLex (compareOn Prod.fst) (compareOn Prod.snd)

instance : Std.TransCmp comparePlaces :=
  inferInstanceAs (Std.TransCmp (compareLex _ _))

theorem scaledValue_zero (n : Int) : Binary64.scaledValue n 0 = n := by
  simp [Binary64.scaledValue]

theorem order_eq_comparePlaces {a b : Numeric} (ha : a.IsNumber) (hb : b.IsNumber) :
    a.order b = some (comparePlaces a.place b.place) := by
  cases a with
  | int m =>
      cases b with
      | int n =>
          simp [order, place, comparePlaces, compareLex, compareOn, compare_intCast]
      | float y =>
          cases y with
          | nan => exact absurd rfl hb
          | infinite negative => cases negative <;> rfl
          | finite negative n f =>
              simp only [order, place, Binary64.place, comparePlaces, compareLex, compareOn,
                Binary64.orderInt, Binary64.compareScaled_eq, scaledValue_zero, Option.map_some]
              rw [← Std.OrientedOrd.eq_swap]
              rfl
  | float x =>
      cases x with
      | nan => exact absurd rfl ha
      | infinite negative =>
          cases b with
          | int n => cases negative <;> rfl
          | float y =>
              cases y with
              | nan => exact absurd rfl hb
              | infinite other => cases negative <;> cases other <;> rfl
              | finite other n f => cases negative <;> rfl
      | finite negative m e =>
          cases b with
          | int n =>
              simp only [order, place, Binary64.place, comparePlaces, compareLex, compareOn,
                Binary64.orderInt, Binary64.compareScaled_eq, scaledValue_zero]
              rfl
          | float y =>
              cases y with
              | nan => exact absurd rfl hb
              | infinite other => cases other <;> rfl
              | finite other n f =>
                  simp only [order, place, Binary64.place, comparePlaces, compareLex, compareOn,
                    Binary64.order, Binary64.compareScaled_eq]
                  rfl

end Numeric

end Catalogue
