import Catalogue.Proofs.Relational.Storage
import Catalogue.Proofs.Relational.Timestamp

/-!
Tables whose columns hold values of their own types. What two cells of a column show ranks as the
cells do.
-/

namespace Catalogue.Relational

open Calendar (Moment)
open Number (Binary64)
open Sorting (directed)

/-- The values of a column's own type, and null. -/
inductive IsOwn : ColumnType → Value → Prop
  | null (type : ColumnType) : IsOwn type .null
  | text (s : String) : IsOwn .text (.text s)
  | integer {n : Int} (h : isStorable n = true) : IsOwn .integer (.int n)
  | boolean (b : Bool) : IsOwn .boolean (.bool b)
  | moment (m : Moment) : IsOwn .moment (.stamp { moment := m })
  | number (x : Binary64) : IsOwn .number (.float x)

/-- The cells in which a column keeps values of its own type. -/
inductive Cell.IsOf : ColumnType → Cell → Prop
  | null (type : ColumnType) : IsOf type .null
  | text (s : String) : IsOf .text (.text s)
  | integer (n : Int) : IsOf .integer (.integer n)
  | boolean (b : Bool) : IsOf .boolean (.integer (if b then 1 else 0))
  | moment (m : Moment) : IsOf .moment (.text (m.textWith ' ' true))
  | number {x : Binary64} (h : x ≠ .nan) : IsOf .number (.real x)

/-- Every row has a cell for each column, of the column's own type. -/
def Database.IsTyped (db : Database) : Prop :=
  ∀ row ∈ db.rows, List.Forall₂ (fun c cell => Cell.IsOf c.type cell) db.table.columns row

namespace Cell

theorem IsOf.isKept {type : ColumnType} {c : Cell} (h : IsOf type c) : c.IsKept := by
  cases h with
  | number h => exact fun hnan => h (Cell.real.inj hnan)
  | _ => exact Cell.noConfusion

theorem isOf_stored_real {x : Binary64} (h : x ≠ .nan) :
    IsOf .number ((Cell.real x).stored .real) := by
  change IsOf .number (asReal (asInteger (.real x)))
  unfold asInteger
  dsimp only
  split
  · split
    · exact .number (Binary64.ofRatio_ne_nan _ _ _)
    · exact .number h
  · exact .number h

/-- A column keeps a value of its own type as a cell of this type. -/
theorem isOf_stored {type : ColumnType} {v : Value} (h : IsOwn type v) :
    IsOf type ((boundCell (send? type.sendType v)).stored type.affinity) := by
  cases h with
  | null => cases type <;> exact .null _
  | text s => exact .text s
  | @integer n h =>
      have hbound : boundCell (send? ColumnType.integer.sendType (.int n)) = .integer n := by
        simp [boundCell, send?, ColumnType.sendType, Relational.bind, h]
      rw [hbound]
      exact .integer n
  | boolean b =>
      cases b with
      | false => exact .boolean false
      | true => exact .boolean true
  | moment m =>
      have htext : (Cell.text (m.textWith ' ' true)).asNumber = .text (m.textWith ' ' true) := by
        simp [asNumber, numberOfText?_textWith]
      change IsOf .moment (Cell.text (m.textWith ' ' true)).asNumber.asInteger
      rw [htext]
      exact .moment m
  | number x =>
      cases x with
      | nan => exact .null _
      | infinite negative => exact isOf_stored_real Binary64.noConfusion
      | finite negative m e => exact isOf_stored_real Binary64.noConfusion

end Cell

theorem Database.isTyped_ofValues {t : Table} {rows : List (List Value)}
    (h : ∀ vs ∈ rows, List.Forall₂ (fun c v => IsOwn c.type v) t.columns vs) :
    (ofValues t rows).IsTyped := by
  have hstored : ∀ {cs : List Column} {vs : List Value},
      List.Forall₂ (fun c v => IsOwn c.type v) cs vs →
        List.Forall₂ (fun c cell => Cell.IsOf c.type cell) cs ((cs.zip ((cs.zip vs).map fun e =>
          boundCell (send? e.1.type.sendType e.2))).map fun e => e.2.stored e.1.type.affinity) := by
    intro cs vs hown
    induction hown with
    | nil => exact .nil
    | cons hv _ ih => exact .cons (Cell.isOf_stored hv) ih
  intro row hrow
  obtain ⟨vs, hvs, rfl⟩ := mem_rows_ofValues hrow
  rw [table_ofValues]
  exact hstored (h vs hvs)

theorem Database.IsTyped.isKept {db : Database} (h : db.IsTyped) : db.IsKept := by
  have hcells : ∀ {cs : List Column} {row : Row},
      List.Forall₂ (fun c cell => Cell.IsOf c.type cell) cs row → ∀ cell ∈ row, cell.IsKept := by
    intro cs row hof
    induction hof with
    | nil => exact List.forall_mem_nil _
    | cons hcell _ ih => exact List.forall_mem_cons.mpr ⟨hcell.isKept, ih⟩
  intro row hrow
  exact hcells (h row hrow)

/-- Does a value rank below another one? Null ranks below all others. -/
inductive Below : Value → Value → Prop
  | null {v : Value} (h : v ≠ .null) : Below .null v
  | bool : Below (.bool false) (.bool true)
  | int {m n : Int} (h : m < n) : Below (.int m) (.int n)
  | float {x y : Binary64} (h : Numeric.comparePlaces x.place y.place = .lt) :
      Below (.float x) (.float y)
  | text {s t : String} (h : s < t) : Below (.text s) (.text t)
  | moment {m n : Moment} (h : m.order n = .lt) :
      Below (.stamp { moment := m }) (.stamp { moment := n })

/-- Does a value come before another one in a direction? -/
def IsBefore : Direction → Value → Value → Prop
  | .ascending, v, w => Below v w
  | .descending, v, w => Below w v

theorem not_below_null (v : Value) : ¬Below v .null := by
  intro h
  cases h with
  | null h => exact h rfl

theorem below_bool_iff {p q : Bool} : Below (.bool p) (.bool q) ↔ p = false ∧ q = true := by
  constructor
  · intro h
    cases h
    exact ⟨rfl, rfl⟩
  · rintro ⟨rfl, rfl⟩
    exact .bool

theorem below_int_iff {m n : Int} : Below (.int m) (.int n) ↔ m < n :=
  ⟨fun | .int h => h, .int⟩

theorem below_float_iff {x y : Binary64} :
    Below (.float x) (.float y) ↔ Numeric.comparePlaces x.place y.place = .lt :=
  ⟨fun | .float h => h, .float⟩

theorem below_text_iff {s t : String} : Below (.text s) (.text t) ↔ s < t :=
  ⟨fun | .text h => h, .text⟩

theorem below_moment_iff {m n : Moment} :
    Below (.stamp { moment := m }) (.stamp { moment := n }) ↔ m.order n = .lt :=
  ⟨fun | .moment h => h, .moment⟩

theorem cellValue_null (type : ColumnType) : cellValue type .null = .null := by
  cases type <;> rfl

theorem cellValue_boolean (b : Bool) :
    cellValue .boolean (.integer (if b then 1 else 0)) = .bool b := by
  cases b <;> rfl

namespace Cell.IsOf

variable {type : ColumnType} {a b : Cell}

theorem order_real {x y : Binary64} (hx : x ≠ .nan) (hy : y ≠ .nan) :
    (Cell.real x).order (.real y) = Numeric.comparePlaces x.place y.place := by
  have hplaces := Numeric.order_eq_comparePlaces (a := .float x) (b := .float y)
    (by simpa [Numeric.IsNumber] using hx) (by simpa [Numeric.IsNumber] using hy)
  change ((Numeric.float x).order (.float y)).getD .eq = _
  rw [hplaces]
  rfl

/-- Only a null shows nothing, and only a null stands before all else. -/
theorem eq_null_or (h : IsOf type a) :
    a = .null ∨ (cellValue type a ≠ .null ∧ Cell.order .null a = .lt ∧ a.order .null = .gt) := by
  cases h with
  | null => exact .inl rfl
  | moment m =>
      rw [cellValue_moment]
      exact .inr ⟨Value.noConfusion, rfl, rfl⟩
  | _ => exact .inr ⟨Value.noConfusion, rfl, rfl⟩

theorem order_eq_lt_iff (ha : IsOf type a) (hb : IsOf type b) :
    a.order b = .lt ↔ Below (cellValue type a) (cellValue type b) := by
  rcases hb.eq_null_or with rfl | ⟨hvalue, hbefore, -⟩
  · rw [cellValue_null]
    refine iff_of_false ?_ (not_below_null _)
    rcases ha.eq_null_or with rfl | ⟨-, -, hbehind⟩
    · exact Ordering.noConfusion
    · rw [hbehind]
      exact Ordering.noConfusion
  · cases ha with
    | null =>
        rw [cellValue_null]
        exact iff_of_true hbefore (.null hvalue)
    | text s =>
        cases hb with
        | null => exact absurd (cellValue_null _) hvalue
        | text t => exact compareOfLessAndEq_eq_lt.trans below_text_iff.symm
    | integer m =>
        cases hb with
        | null => exact absurd (cellValue_null _) hvalue
        | integer n => exact compare_lt_iff_lt.trans below_int_iff.symm
    | boolean p =>
        cases hb with
        | null => exact absurd (cellValue_null _) hvalue
        | boolean q =>
            rw [cellValue_boolean, cellValue_boolean, below_bool_iff]
            cases p <;> cases q <;> decide
    | moment m =>
        cases hb with
        | null => exact absurd (cellValue_null _) hvalue
        | moment n =>
            rw [cellValue_moment, cellValue_moment, below_moment_iff, ← Moment.compare_textWith]
            rfl
    | number hx =>
        cases hb with
        | null => exact absurd (cellValue_null _) hvalue
        | number hy => rw [order_real hx hy, ← below_float_iff]; rfl

theorem order_eq_gt_iff (ha : IsOf type a) (hb : IsOf type b) :
    a.order b = .gt ↔ Below (cellValue type b) (cellValue type a) := by
  rw [← hb.order_eq_lt_iff ha, order_eq_totalOrder ha.isKept hb.isKept,
    order_eq_totalOrder hb.isKept ha.isKept, @Std.OrientedCmp.gt_iff_lt _ totalOrder]

theorem directed_eq_lt_iff (ha : IsOf type a) (hb : IsOf type b) (d : Direction) :
    directed d (a.order b) = .lt ↔ IsBefore d (cellValue type a) (cellValue type b) := by
  cases d with
  | ascending => exact ha.order_eq_lt_iff hb
  | descending => exact Ordering.swap_eq_lt.trans (ha.order_eq_gt_iff hb)

theorem directed_eq_gt_iff (ha : IsOf type a) (hb : IsOf type b) (d : Direction) :
    directed d (a.order b) = .gt ↔ IsBefore d (cellValue type b) (cellValue type a) := by
  cases d with
  | ascending => exact ha.order_eq_gt_iff hb
  | descending => exact Ordering.swap_eq_gt.trans (ha.order_eq_lt_iff hb)

end Cell.IsOf

end Catalogue.Relational
