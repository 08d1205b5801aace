import Catalogue.Proofs.Query.Reading
import Catalogue.Store.Listing

/-!
Pages as parts of one list. Pages that follow each other show the list once from front to end.
-/

namespace Catalogue

def Request.paged (request : Request) (offset : Option Int) (limit : Int) : Request :=
  { request with offset, limit }

/-- Page bounds as requests carry them. -/
structure IsPage (offset : Option Int) (limit : Int) : Prop where
  limit_pos : 0 < limit
  offset_nonneg : ∀ n ∈ offset, 0 ≤ n

namespace Request

theorem isPage_of_ofRaw {settings : Settings} {raw : RawRequest} {request : Request}
    (h : ofRaw settings raw = .ok request) : IsPage request.offset request.limit := by
  have reads := ofRaw_eq_ok_iff.mp h
  obtain ⟨given, -, size⟩ := readLimit_eq_ok_iff.mp reads.limit
  exact ⟨size.bounds.1, (readOffset_eq_ok_iff.mp reads.offset).2⟩

end Request

section Slice

variable {α : Type}

def slice (offset : Option Int) (limit : Int) (all : List α) : List α :=
  (all.drop (offset.getD 0).toNat).take limit.toNat

theorem slice_none (limit : Int) (all : List α) : slice none limit all = slice (some 0) limit all :=
  rfl

theorem map_slice {β : Type} (f : α → β) (offset : Option Int) (limit : Int) (all : List α) :
    slice offset limit (all.map f) = (slice offset limit all).map f := by
  simp [slice, List.map_drop, List.map_take]

theorem mem_of_mem_slice {offset : Option Int} {limit : Int} {all : List α} {a : α}
    (h : a ∈ slice offset limit all) : a ∈ all :=
  List.mem_of_mem_drop (List.mem_of_mem_take h)

/-- The first `n` pages show what stands before the end of the last of them. -/
theorem flatMap_slice {limit : Int} (h : 0 < limit) (n : Nat) (all : List α) :
    (List.range n).flatMap (fun i : Nat => slice (some (i * limit)) limit all) =
      all.take (n * limit.toNat) := by
  induction n with
  | zero => simp
  | succ n ih =>
      have hstart : ((n : Int) * limit).toNat = n * limit.toNat := by
        rw [Int.toNat_mul (by omega) (by omega), Int.toNat_natCast]
      rw [List.range_succ, List.flatMap_append, ih, Nat.succ_mul, List.take_add]
      simp [slice, hstart]

end Slice

/-- The page of elements that are each read as a row. -/
def Page.of {α : Type} (read : α → Except Fault Entries) (shown : List α) (total : Nat) :
    Outcome Page :=
  match shown.mapM read with
  | .ok rows => .ok { rows, total }
  | .error fault => .error (.fault fault)

theorem Page.of_eq_ok_iff {α : Type} {read : α → Except Fault Entries} {shown : List α}
    {total : Nat} {page : Page} :
    Page.of read shown total = .ok page ↔ shown.map read = page.rows.map .ok ∧ page.total = total := by
  rw [← mapM_eq_ok_iff]
  unfold Page.of
  cases shown.mapM read with
  | error fault => simp
  | ok rows =>
      obtain ⟨rows', total'⟩ := page
      simp [eq_comm]

/-- Whatever its bounds, a page shows the part of one list between them, and its total is the length
of that list. -/
structure PagesOf {α : Type} (read : α → Except Fault Entries) (admits : Option Int → Int → Prop)
    (all : List α) (answer : Option Int → Int → Outcome Page) : Prop where
  shows : ∀ offset limit, admits offset limit →
    answer offset limit = Page.of read (slice offset limit all) all.length
  /-- No offset is as good as offset 0. -/
  unskipped : ∀ limit, admits none limit → answer none limit = answer (some 0) limit
  /-- Pages one after the other, up to the end, show every element once. -/
  exhausts : ∀ (limit : Int) (n : Nat) (pages : Nat → Page), all.length ≤ n * limit.toNat →
    (∀ i < n, admits (some (i * limit)) limit ∧ answer (some (i * limit)) limit = .ok (pages i)) →
    ((List.range n).flatMap fun i => (pages i).rows).map .ok = all.map read

/-- That each page shows its part is enough. -/
theorem PagesOf.of_shows {α : Type} {read : α → Except Fault Entries}
    {admits : Option Int → Int → Prop} {all : List α} {answer : Option Int → Int → Outcome Page}
    (page : ∀ {offset limit}, admits offset limit → IsPage offset limit)
    (zero : ∀ {limit}, admits none limit → admits (some 0) limit)
    (shows : ∀ offset limit, admits offset limit →
      answer offset limit = Page.of read (slice offset limit all) all.length) :
    PagesOf read admits all answer where
  shows := shows
  unskipped limit h := by
    rw [shows none limit h, shows (some 0) limit (zero h), slice_none]
  exhausts limit n pages hlength hpages := by
    cases n with
    | zero =>
        have hall : all = [] := by simpa using hlength
        simp [hall]
    | succ n =>
        have hpos : 0 < limit := (page (hpages 0 (by omega)).1).limit_pos
        have hrows : ∀ i ∈ List.range (n + 1), (pages i).rows.map .ok =
            (slice (some (i * limit)) limit all).map read := by
          intro i hi
          obtain ⟨hadmits, hanswer⟩ := hpages i (List.mem_range.mp hi)
          rw [shows _ _ hadmits, Page.of_eq_ok_iff] at hanswer
          exact hanswer.1.symm
        rw [List.map_flatMap, List.flatMap_def, List.map_congr_left hrows, ← List.flatMap_def,
          ← List.map_flatMap, flatMap_slice hpos, List.take_of_length_le hlength]

end Catalogue
