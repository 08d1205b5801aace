import Catalogue.Proofs.Ordering.Comparator
import Catalogue.Proofs.Ordering.Number
import Catalogue.Relational.Database

/-!
The order of cells and of rows. It is transitive wherever no cell holds the number that is none,
which a store keeps as null.
-/

namespace Catalogue.Relational

open Std (TransCmp)
open Sorting (inTurn directed OrdersOn transCmp_inTurn transCmp_directed transCmp_comap)

namespace Cell

/-- A cell as a store keeps it: what is not a number is not kept as one. -/
def IsKept (c : Cell) : Prop :=
  c ≠ .real .nan

def textPart : Cell → String
  | .text s => s
  | _ => ""

def octetPart : Cell → List UInt8
  | .blob octets => octets.toList
  | _ => []

def place (c : Cell) : Int × ℚ :=
  (c.numeric?.map Numeric.place).getD (0, 0)

theorem orderOctets_eq_compareLex (as bs : List UInt8) :
    orderOctets as bs = List.compareLex compare as bs := by
  induction as generalizing bs with
  | nil => cases bs <;> rfl
  | cons a as ih =>
      cases bs with
      | nil => rfl
      | cons b bs =>
          rw [orderOctets, List.compareLex_cons_cons, ih]

/-- The order of cells by sort, number, text and octets in turn. -/
def totalOrder : Cell → Cell → Ordering :=
  compareLex (compareOn rank) <|
    compareLex (fun a b => Numeric.comparePlaces a.place b.place) <|
      compareLex (compareOn textPart) fun a b => List.compareLex compare a.octetPart b.octetPart

instance : TransCmp totalOrder := by
  have hplace := transCmp_comap place Numeric.comparePlaces
  have hoctets := transCmp_comap octetPart (List.compareLex compare)
  exact inferInstanceAs (TransCmp (compareLex _ _))

theorem order_eq_totalOrder {a b : Cell} (ha : a.IsKept) (hb : b.IsKept) :
    a.order b = totalOrder a b := by
  have numbers : ∀ {x y : Numeric}, x.IsNumber → y.IsNumber →
      (x.order y).getD .eq = (Numeric.comparePlaces x.place y.place).then .eq := by
    intro x y hx hy
    rw [Numeric.order_eq_comparePlaces hx hy, Option.getD_some, Ordering.then_eq]
  cases a <;> cases b <;> try rfl
  case integer.integer m n =>
    exact numbers (x := .int m) (y := .int n) (by simp [Numeric.IsNumber])
      (by simp [Numeric.IsNumber])
  case integer.real m y =>
    exact numbers (x := .int m) (y := .float y) (by simp [Numeric.IsNumber])
      (by simpa [Numeric.IsNumber, IsKept] using hb)
  case real.integer x n =>
    exact numbers (x := .float x) (y := .int n) (by simpa [Numeric.IsNumber, IsKept] using ha)
      (by simp [Numeric.IsNumber])
  case real.real x y =>
    exact numbers (x := .float x) (y := .float y) (by simpa [Numeric.IsNumber, IsKept] using ha)
      (by simpa [Numeric.IsNumber, IsKept] using hb)
  case text.text s t =>
    exact (Ordering.then_eq (o := compare s t)).symm
  case blob.blob s t =>
    exact orderOctets_eq_compareLex s.toList t.toList

end Cell

theorem Table.cell_mem_or_null (t : Table) (row : Row) (c : Column) :
    t.cell row c ∈ row ∨ t.cell row c = .null := by
  unfold Table.cell
  cases h : (t.columns.zip row).find? fun entry => entry.1.name == c.name with
  | none => exact .inr rfl
  | some entry => exact .inl (List.of_mem_zip (List.mem_of_find?_eq_some h)).2

theorem Table.isKept_cell {t : Table} {row : Row} (h : ∀ cell ∈ row, cell.IsKept) (c : Column) :
    (t.cell row c).IsKept := by
  rcases t.cell_mem_or_null row c with hmem | hnull
  · exact h _ hmem
  · rw [hnull]
    exact Cell.noConfusion

theorem Table.find?_entry {t : Table} {row : Row} (full : row.length = t.columns.length)
    {c : Column} (hc : c ∈ t.columns) :
    (t.columns.zip row).find? (fun entry => entry.1.name == c.name) = some (c, t.cell row c) := by
  unfold Table.cell
  cases hfind : (t.columns.zip row).find? fun entry => entry.1.name == c.name with
  | none =>
      obtain ⟨i, hi, rfl⟩ := List.mem_iff_getElem.mp hc
      have hi' : i < row.length := full ▸ hi
      have hmem : (t.columns[i], row[i]) ∈ t.columns.zip row :=
        List.mem_iff_getElem.mpr ⟨i, by simpa using ⟨hi, hi'⟩, List.getElem_zip⟩
      exact absurd (List.find?_eq_none.mp hfind _ hmem) (by simp)
  | some entry =>
      have hname : entry.1.name = c.name := by simpa using List.find?_some hfind
      have hfound := Table.column?_name (List.of_mem_zip (List.mem_of_find?_eq_some hfind)).1
      rw [hname, Table.column?_name hc] at hfound
      rw [Option.some.inj hfound]
      rfl

theorem map_fst_zip_sublist {α β : Type} (l : List α) (l' : List β) :
    ((l.zip l').map Prod.fst).Sublist l := by
  induction l generalizing l' with
  | nil => simp
  | cons a l ih =>
      cases l' with
      | nil => simp
      | cons b l' => exact (ih l').cons_cons a

theorem Table.cell_of_mem_zip {t : Table} {row : Row} {entry : Column × Cell}
    (h : entry ∈ t.columns.zip row) : t.cell row entry.1 = entry.2 := by
  have hnames : ((t.columns.zip row).map fun entry => entry.1.name).Nodup := by
    have hsublist := (map_fst_zip_sublist t.columns row).map Column.name
    rw [List.map_map] at hsublist
    exact hsublist.nodup t.names_nodup
  unfold Table.cell
  rw [find?_own_name hnames h]
  rfl

namespace Database

def IsKept (db : Database) : Prop :=
  ∀ row ∈ db.rows, ∀ cell ∈ row, cell.IsKept

def keyOrders (t : Table) (order : List SortKey) : List (Row → Row → Ordering) :=
  order.map fun k a b => directed k.direction ((t.cell a k.column).order (t.cell b k.column))

theorem compareRows_eq_inTurn (t : Table) (order : List SortKey) (a b : Row) :
    compareRows t order a b = inTurn (keyOrders t order) a b := by
  induction order with
  | nil => rfl
  | cons k rest ih =>
      rw [compareRows, ih]
      rfl

theorem compareRows_eq_eq_iff {t : Table} {order : List SortKey} {a b : Row} :
    compareRows t order a b = .eq ↔
      ∀ k ∈ order, (t.cell a k.column).order (t.cell b k.column) = .eq := by
  rw [compareRows_eq_inTurn, Sorting.inTurn_eq_eq_iff]
  simp only [keyOrders, List.forall_mem_map, Sorting.directed_eq_eq_iff]

/-- On kept rows sort keys order well. -/
theorem ordersOn_compareRows (t : Table) (order : List SortKey) {rows : List Row}
    (kept : ∀ row ∈ rows, ∀ cell ∈ row, cell.IsKept) : OrdersOn (compareRows t order) rows := by
  refine ⟨inTurn (order.map fun k a b =>
    directed k.direction (Cell.totalOrder (t.cell a k.column) (t.cell b k.column))), ?_, ?_⟩
  · apply transCmp_inTurn
    intro cmp hcmp
    obtain ⟨k, -, rfl⟩ := List.mem_map.mp hcmp
    have := transCmp_comap (fun row => t.cell row k.column) Cell.totalOrder
    exact transCmp_directed k.direction _
  · intro a ha b hb
    induction order with
    | nil => rfl
    | cons k rest ih =>
        rw [compareRows, List.map_cons, inTurn, ← ih]
        rw [Cell.order_eq_totalOrder (Table.isKept_cell (kept a ha) k.column)
          (Table.isKept_cell (kept b hb) k.column)]
        rfl

end Database

end Catalogue.Relational
