import Catalogue.Document.Adapter
import Catalogue.Proofs.Ordering.Document
import Catalogue.Proofs.Relational.Timestamp

/-!
The same content in a table and in a collection: a cell for each value of a column's own type, and
null for what is missing. Cells stand in the order of the values that they are for.
-/

namespace Catalogue.Parity

open Calendar (Moment)
open Document (pathOf compareValues)
open Document.Condition (valueAt)
open Relational

/-- The values of a column's own type. -/
inductive IsOf : ColumnType → Value → Prop
  | text (s : String) : IsOf .text (.text s)
  | integer {n : Int} (h : isStorable n = true) : IsOf .integer (.int n)
  | boolean (b : Bool) : IsOf .boolean (.bool b)
  | moment {m : Moment} (h : m.microsecond % 1000 = 0) : IsOf .moment (.stamp { moment := m })

/-- What a column may hold: a value of its own type, or nothing. -/
def IsHeld (type : ColumnType) (v : Value) : Prop :=
  v = .null ∨ IsOf type v

def cellOf : Value → Cell
  | .bool b => .integer (if b then 1 else 0)
  | .int n => .integer n
  | .text s => .text s
  | .stamp s => .text (s.moment.textWith ' ' true)
  | _ => .null

/-- A row and a document that say the same: the cell of each column is the one for the value at the
column's path, and the document has nothing besides. -/
structure Mirrors (source : Source) (row : Row) (doc : Entries) : Prop where
  cell_eq : ∀ c ∈ source.table.columns,
    source.table.cell row c = cellOf (valueAt doc (pathOf source.registry c.name))
  isHeld : ∀ c ∈ source.table.columns, IsHeld c.type (valueAt doc (pathOf source.registry c.name))
  keys : ∀ e ∈ doc, ∃ c ∈ source.table.columns, e.1 = .text (pathOf source.registry c.name)

namespace IsOf

variable {type : ColumnType} {v w : Value}

theorem ne_null (h : IsOf type v) : v ≠ .null := by
  cases h <;> exact Value.noConfusion

theorem isFlat (h : IsOf type v) : v.IsFlat := by
  cases h <;> constructor

theorem isUniversal (h : IsOf type v) : Document.IsUniversal v := by
  cases h <;> trivial

theorem asNumber_moment (m : Moment) :
    (Cell.text (m.textWith ' ' true)).asNumber = .text (m.textWith ' ' true) := by
  simp [Cell.asNumber, numberOfText?_textWith]

theorem boundCell_send (h : IsOf type v) :
    boundCell (send? (sendTypeFor type v) v) = cellOf v := by
  cases h with
  | text s => rfl
  | integer h => simp [boundCell, send?, sendTypeFor, Relational.bind, h, cellOf]
  | boolean b => cases b <;> rfl
  | moment _ => rfl

/-- The column compares itself with that cell as it is. -/
theorem compared_cellOf (h : IsOf type v) : (cellOf v).compared type.affinity = cellOf v := by
  cases h with
  | text s => rfl
  | integer _ => rfl
  | boolean b => rfl
  | @moment m _ =>
      change (Cell.text (m.textWith ' ' true)).asNumber = _
      rw [asNumber_moment]
      rfl

theorem sendTypeFor_congr (h : IsOf type v) (hw : IsOf type w) :
    sendTypeFor type v = sendTypeFor type w := by
  cases h <;> cases hw <;> rfl

theorem isNull_cellOf (h : IsOf type v) : (cellOf v).isNull = false := by
  cases h <;> rfl

theorem storedValue_eq (h : IsOf type v) : Document.storedValue v = v := by
  cases h with
  | @moment m h =>
      have hwhole : m.microsecond / 1000 * 1000 = m.microsecond := by omega
      have hkept : m.toMillisecond = m := by
        unfold Moment.toMillisecond
        rw [hwhole, Moment.ofParts?, dif_pos m.valid, Option.getD_some]
      change Value.stamp { moment := m.toMillisecond } = _
      rw [hkept]
  | _ => rfl

theorem isSome_text? (h : IsOf type v) : v.text?.isSome = true := by
  cases h with
  | @integer n h =>
      have hstorable : -(2 ^ 63) ≤ n ∧ n < 2 ^ 63 := by simpa [isStorable] using h
      have hshort : (Text.decimal n.natAbs).length ≤ 19 :=
        Text.length_decimal_le (by decide) (by omega)
      have hmax : (Text.decimal n.natAbs).length ≤ Text.maxDigits := by
        unfold Text.maxDigits
        omega
      simp [Value.text?, Value.literal?, Text.signed?, hmax]
  | _ => rfl

end IsOf

theorem compareValues_moment (m n : Moment) :
    compareValues (.stamp { moment := m }) (.stamp { moment := n }) = m.order n := by
  rw [Document.compareValues_stamp rfl rfl, Calendar.Stamp.instant_of_moment,
    Calendar.Stamp.instant_of_moment, Moment.order]

namespace IsHeld

variable {type : ColumnType} {v w : Value}

theorem isNull_cellOf (h : IsHeld type v) : (cellOf v).isNull = true ↔ v = .null := by
  rcases h with rfl | h
  · exact iff_of_true rfl rfl
  · exact iff_of_false (by simp [h.isNull_cellOf]) h.ne_null

theorem storedValue_eq (h : IsHeld type v) : Document.storedValue v = v := by
  rcases h with rfl | h
  · rfl
  · exact h.storedValue_eq

theorem cellValue_cellOf (h : IsHeld type v) : cellValue type (cellOf v) = v := by
  rcases h with rfl | h
  · cases type <;> rfl
  · cases h with
    | text s => rfl
    | integer _ => rfl
    | boolean b => cases b <;> rfl
    | @moment m _ => exact cellValue_moment m

theorem readFault?_cellOf (h : IsHeld type v) : readFault? type (cellOf v) = none := by
  rcases h with rfl | h
  · cases type <;> rfl
  · cases h with
    | @moment m _ => exact readFault?_moment m
    | _ => rfl

theorem order_cellOf (hv : IsHeld type v) (hw : IsHeld type w) :
    (cellOf v).order (cellOf w) = compareValues v w := by
  rcases hv with rfl | hv
  · rcases hw with rfl | hw
    · rfl
    · cases hw <;> rfl
  · rcases hw with rfl | hw
    · cases hv <;> rfl
    · cases hv with
      | text s =>
          cases hw with
          | text t => exact (Document.compareValues_text s t).symm
      | integer _ =>
          cases hw with
          | integer _ => exact (Document.compareValues_int _ _).symm
      | boolean b =>
          cases hw with
          | boolean c => exact (Document.compareValues_bool b c).symm
      | @moment m _ =>
          cases hw with
          | @moment n _ =>
              simp only [cellOf, Cell.order, Moment.compare_textWith, compareValues_moment]

theorem compareValues_eq_eq_iff (hv : IsHeld type v) (hw : IsHeld type w) :
    compareValues v w = .eq ↔ v = w := by
  rcases hv with rfl | hv
  · rcases hw with rfl | hw
    · exact iff_of_true rfl rfl
    · refine iff_of_false ?_ hw.ne_null.symm
      cases hw <;> exact Ordering.noConfusion
  · rcases hw with rfl | hw
    · refine iff_of_false ?_ hv.ne_null
      cases hv <;> exact Ordering.noConfusion
    · cases hv with
      | text s =>
          cases hw with
          | text t =>
              rw [Document.compareValues_text, Value.text.injEq]
              exact Std.LawfulEqCmp.compare_eq_iff_eq
      | integer _ =>
          cases hw with
          | integer _ =>
              rw [Document.compareValues_int, Value.int.injEq]
              exact Std.LawfulEqCmp.compare_eq_iff_eq
      | boolean b =>
          cases hw with
          | boolean c =>
              rw [Document.compareValues_bool]
              cases b <;> cases c <;> simp
      | moment _ =>
          cases hw with
          | moment _ =>
              rw [compareValues_moment, Moment.order_eq_eq_iff]
              simp

end IsHeld

end Catalogue.Parity
