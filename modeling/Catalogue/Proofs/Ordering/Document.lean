import Catalogue.Document.Collection
import Catalogue.Proofs.Ordering.Comparator
import Catalogue.Proofs.Ordering.Number

/-!
The order of values and of documents. It is transitive on flat documents: those whose values are
nulls, truth values, numbers, texts and moments of universal time.
-/

namespace Catalogue

open Std (TransCmp)
open Sorting (inTurn directed OrdersOn transCmp_inTurn transCmp_directed transCmp_comap)

/-- A value of one of the sorts that a flat document holds. -/
inductive Value.IsFlat : Value → Prop
  | null : IsFlat .null
  | bool (b : Bool) : IsFlat (.bool b)
  | int (n : Int) : IsFlat (.int n)
  | text (s : String) : IsFlat (.text s)
  | stamp (s : Calendar.Stamp) : IsFlat (.stamp s)

namespace Document

open Condition (rank valueAt)

/-- The number, text or instant by which a value stands among those of its sort. -/
def number : Value → Int
  | .bool b => if b then 1 else 0
  | .int n => n
  | .stamp s => s.instant
  | _ => 0

def textPart : Value → String
  | .text s => s
  | _ => ""

def microsecond : Value → Nat
  | .stamp s => s.moment.microsecond
  | _ => 0

/-- The order of values by sort, number, text and microsecond in turn. -/
def totalOrder : Value → Value → Ordering :=
  compareLex (compareOn rank) <| compareLex (compareOn number) <|
    compareLex (compareOn textPart) (compareOn microsecond)

instance : TransCmp totalOrder :=
  inferInstanceAs (TransCmp (compareLex _ _))

theorem ite_before_eq {o p : Ordering} (h : p = o.swap) :
    (if (o == .lt) = true then Ordering.lt else if (p == .lt) = true then .gt else .eq) = o := by
  subst h
  cases o <;> rfl

theorem compareValues_text (s t : String) :
    compareValues (.text s) (.text t) = compare s t := by
  have hswap : compare t s = (compare s t).swap := Std.OrientedOrd.eq_swap
  exact ite_before_eq hswap

theorem compareValues_int (m n : Int) : compareValues (.int m) (.int n) = compare m n := by
  have hswap : compare n m = (compare m n).swap := Std.OrientedOrd.eq_swap
  exact ite_before_eq hswap

theorem compareValues_bool (b c : Bool) :
    compareValues (.bool b) (.bool c) =
      compare (if b then 1 else 0 : Int) (if c then 1 else 0 : Int) := by
  cases b <;> cases c <;> rfl

theorem compareValues_stamp {s t : Calendar.Stamp} (hs : s.offset = none) (ht : t.offset = none) :
    compareValues (.stamp s) (.stamp t) =
      (compare s.instant t.instant).then (compare s.moment.microsecond t.moment.microsecond) := by
  have horder : ∀ {u v : Calendar.Stamp}, u.offset = none → v.offset = none →
      u.order v = some ((compare u.instant v.instant).then
        (compare u.moment.microsecond v.moment.microsecond)) := by
    intro u v hu hv
    simp [Calendar.Stamp.order, hu, hv]
  have hswap : (compare t.instant s.instant).then
        (compare t.moment.microsecond s.moment.microsecond) =
      ((compare s.instant t.instant).then
        (compare s.moment.microsecond t.moment.microsecond)).swap := by
    rw [Ordering.swap_then, ← Std.OrientedOrd.eq_swap, ← Std.OrientedOrd.eq_swap]
  simp only [compareValues, Value.before?, horder hs ht, horder ht hs, Option.map_some,
    Option.getD_some, ite_before_eq hswap]
  rfl

/-- A value as a collection stores it, which keeps moments without an offset. -/
def IsUniversal : Value → Prop
  | .stamp s => s.offset = none
  | _ => True

theorem isUniversal_storedValue (v : Value) : IsUniversal (storedValue v) := by
  cases v <;> trivial

theorem isFlat_storedValue {v : Value} (h : v.IsFlat) : (storedValue v).IsFlat := by
  cases h <;> constructor

theorem compareValues_eq_totalOrder {v w : Value} (hv : v.IsFlat) (hw : w.IsFlat)
    (uv : IsUniversal v) (uw : IsUniversal w) : compareValues v w = totalOrder v w := by
  cases hv with
  | null => cases hw <;> rfl
  | bool b =>
      cases hw with
      | bool c => cases b <;> cases c <;> rfl
      | _ => rfl
  | int m =>
      cases hw with
      | int n =>
          rw [compareValues_int]
          exact (Ordering.then_eq (o := compare m n)).symm
      | _ => rfl
  | text s =>
      cases hw with
      | text t =>
          rw [compareValues_text]
          exact (Ordering.then_eq (o := compare s t)).symm
      | _ => rfl
  | stamp s =>
      cases hw with
      | stamp t =>
          rw [compareValues_stamp uv uw]
          rfl
      | _ => rfl

def IsFlat (doc : Entries) : Prop :=
  ∀ path, (valueAt doc path).IsFlat

theorem mem_of_get? {doc : Entries} {key : String} {v : Value} (h : doc.get? key = some v) :
    ∃ e ∈ doc, e.2 = v := by
  obtain ⟨e, he, rfl⟩ := Option.map_eq_some_iff.mp h
  exact ⟨e, List.mem_of_find?_eq_some he, rfl⟩

theorem get?_stored (doc : Entries) (key : String) :
    (stored doc).get? key = (doc.get? key).map storedValue := by
  have hstored : stored doc = doc.map fun e => (e.1, storedValue e.2) := rfl
  have hcomp : ((fun e : Value × Value => e.1.isText key) ∘
      fun e : Value × Value => (e.1, storedValue e.2)) = fun e => e.1.isText key := rfl
  unfold Entries.get?
  rw [hstored, List.find?_map, hcomp, Option.map_map, Option.map_map]
  rfl

theorem valueAt_stored (doc : Entries) (path : String) :
    valueAt (stored doc) path = storedValue (valueAt doc path) := by
  unfold valueAt
  split
  · rfl
  · rw [get?_stored]
    cases doc.get? path <;> rfl

theorem IsFlat.of_entries {doc : Entries} (h : ∀ e ∈ doc, e.2.IsFlat) : IsFlat doc := by
  intro path
  unfold valueAt
  split
  · exact .null
  · cases hget : doc.get? path with
    | none => exact .null
    | some v =>
        obtain ⟨e, he, rfl⟩ := mem_of_get? hget
        exact h e he

def keyOrders (keys : List (String × Direction)) : List (Entries → Entries → Ordering) :=
  keys.map fun k a b => directed k.2 (compareValues (valueAt a k.1) (valueAt b k.1))

theorem compareDocuments_cons (k : String × Direction) (rest : List (String × Direction))
    (a b : Entries) :
    compareDocuments (k :: rest) a b =
      (directed k.2 (compareValues (valueAt a k.1) (valueAt b k.1))).then
        (compareDocuments rest a b) := by
  obtain ⟨path, d⟩ := k
  cases d <;> rfl

theorem compareDocuments_eq_inTurn (keys : List (String × Direction)) (a b : Entries) :
    compareDocuments keys a b = inTurn (keyOrders keys) a b := by
  induction keys with
  | nil => rfl
  | cons k rest ih =>
      rw [compareDocuments_cons, ih]
      rfl

theorem compareDocuments_eq_eq_iff {keys : List (String × Direction)} {a b : Entries} :
    compareDocuments keys a b = .eq ↔
      ∀ k ∈ keys, compareValues (valueAt a k.1) (valueAt b k.1) = .eq := by
  rw [compareDocuments_eq_inTurn, Sorting.inTurn_eq_eq_iff]
  simp only [keyOrders, List.forall_mem_map, Sorting.directed_eq_eq_iff]

/-- On stored flat documents sort keys order well. -/
theorem ordersOn_compareDocuments (keys : List (String × Direction)) {docs : List Entries}
    (flat : ∀ doc ∈ docs, IsFlat doc) :
    OrdersOn (compareDocuments keys) (docs.map stored) := by
  refine ⟨inTurn (keys.map fun k a b =>
    directed k.2 (totalOrder (valueAt a k.1) (valueAt b k.1))), ?_, ?_⟩
  · apply transCmp_inTurn
    intro cmp hcmp
    obtain ⟨k, -, rfl⟩ := List.mem_map.mp hcmp
    have := transCmp_comap (fun doc => valueAt doc k.1) totalOrder
    exact transCmp_directed k.2 _
  · rintro _ ha _ hb
    obtain ⟨a, hda, rfl⟩ := List.mem_map.mp ha
    obtain ⟨b, hdb, rfl⟩ := List.mem_map.mp hb
    induction keys with
    | nil => rfl
    | cons k rest ih =>
        rw [compareDocuments_cons, List.map_cons, inTurn, ← ih]
        simp only [valueAt_stored]
        rw [compareValues_eq_totalOrder
          (isFlat_storedValue (flat a hda k.1))
          (isFlat_storedValue (flat b hdb k.1))
          (isUniversal_storedValue _) (isUniversal_storedValue _)]

end Document

end Catalogue
