import Catalogue.Proofs.Ordering.Row
import Catalogue.Proofs.Relational.Acceptance
import Catalogue.Proofs.Relational.Drafting

/-!
Pages of a table. The identifier ends every order, so under a primary key the order is strict, and
each page is a part of one sorted list of the matching rows, in whatever order a scan meets them.
-/

namespace Catalogue.Relational

open Sorting (OrdersOn atOrBefore)

/-- Rows as a store keeps them under a primary key. -/
structure Database.IsKeyed (db : Database) (key : Column) : Prop where
  kept : db.IsKept
  unique : db.rows.Pairwise fun a b => (db.table.cell a key).order (db.table.cell b key) ≠ .eq

namespace Database

theorem scan_perm (db : Database) (conditions : List Condition) :
    (db.scan conditions).Perm db.rows := by
  unfold scan
  split
  · exact List.Perm.refl _
  · split
    · exact List.mergeSort_perm _ _
    · exact List.Perm.refl _

/-- All rows of which the conditions are true, in the order of sort keys. -/
def listed (db : Database) (conditions : List Condition) (order : List SortKey) : List Row :=
  (db.selected conditions).mergeSort (atOrBefore (compareRows db.table order))

theorem listed_perm (db : Database) (conditions : List Condition) (order : List SortKey) :
    (db.listed conditions order).Perm (db.selected conditions) :=
  List.mergeSort_perm _ _

theorem select_perm {db : Database} {s : Selection} (hl : s.limit = none) (ho : s.offset = none) :
    (db.select s).Perm (db.selected s.conditions) := by
  unfold select
  rw [hl, ho]
  exact (List.mergeSort_perm _ _).trans ((db.scan_perm s.conditions).filter _)

theorem page_sublist (limit offset : Option Int) (rows : List Row) :
    (page limit offset rows).Sublist rows := by
  unfold page
  cases limit with
  | none => exact List.drop_sublist _ _
  | some n =>
      dsimp only
      split
      · exact (List.take_sublist _ _).trans (List.drop_sublist _ _)
      · exact List.drop_sublist _ _

theorem mem_of_mem_select {db : Database} {s : Selection} {row : Row}
    (h : row ∈ db.select s) : row ∈ db.rows := by
  have hmet := (List.mergeSort_perm _ _).subset ((page_sublist _ _ _).subset h)
  exact (db.scan_perm s.conditions).subset (List.mem_filter.mp hmet).1

theorem page_eq_slice {limit : Int} (h : 0 < limit) (offset : Option Int) (rows : List Row) :
    page (some limit) offset rows = slice offset limit rows := by
  have hle : 0 ≤ limit := by omega
  simp [page, slice, hle]

def withRows (db : Database) (rows : List Row) : Database :=
  { db with rows }

section Keyed

variable {db : Database} {key : Column} {order : List SortKey}
variable (keyed : db.IsKeyed key) (hkey : ∃ k ∈ order, k.column = key) (conditions : List Condition)

include keyed in
theorem IsKeyed.ordersOn_selected (order : List SortKey) :
    OrdersOn (compareRows db.table order) (db.selected conditions) :=
  (ordersOn_compareRows db.table order keyed.kept).subset List.filter_sublist.subset

include keyed hkey

/-- Sort keys with the primary key among them let no two rows tie. -/
theorem IsKeyed.pairwise_selected :
    (db.selected conditions).Pairwise fun a b => compareRows db.table order a b ≠ .eq := by
  obtain ⟨k, hk, rfl⟩ := hkey
  refine (keyed.unique.filter _).imp ?_
  intro a b hne htie
  exact hne (compareRows_eq_eq_iff.mp htie k hk)

theorem IsKeyed.pairwise_listed :
    (db.listed conditions order).Pairwise fun a b => compareRows db.table order a b = .lt :=
  OrdersOn.pairwise_lt_mergeSort (keyed.pairwise_selected hkey conditions)
    (keyed.ordersOn_selected conditions order)

theorem IsKeyed.mergeSort_eq_listed {rows : List Row} (perm : rows.Perm (db.selected conditions)) :
    rows.mergeSort (atOrBefore (compareRows db.table order)) = db.listed conditions order :=
  (OrdersOn.mergeSort_eq_of_perm (keyed.pairwise_selected hkey conditions)
    (keyed.ordersOn_selected conditions order) perm.symm).symm

/-- A selection cuts its page out of the list of the matching rows, however a scan meets them. -/
theorem IsKeyed.select_withRows {rows : List Row} (perm : rows.Perm db.rows) {s : Selection}
    (hs : s.order = order) :
    (db.withRows rows).select s = page s.limit s.offset (db.listed s.conditions s.order) := by
  subst hs
  have hmet : (((db.withRows rows).scan s.conditions).filter (db.isSelected s.conditions)).Perm
      (db.selected s.conditions) :=
    (((db.withRows rows).scan_perm s.conditions).trans perm).filter _
  rw [← keyed.mergeSort_eq_listed hkey s.conditions hmet]
  rfl

end Keyed

end Database

def Session.withRows (s : Session) (rows : List Row) : Session :=
  { s with database := s.database.withRows rows }

/-- An engine comes to the same patterns in whatever order it meets the rows. -/
theorem Database.triesTooLong_withRows {db : Database} {rows : List Row} (perm : rows.Perm db.rows)
    (conditions : List Condition) :
    (db.withRows rows).triesTooLong conditions = db.triesTooLong conditions := by
  unfold triesTooLong withRows
  simp only [perm.any_eq]

theorem Session.Takes.withRows {s : Session} {rows : List Row} (perm : rows.Perm s.database.rows)
    {selection : Selection} (takes : s.Takes selection) : (s.withRows rows).Takes selection := by
  refine ⟨takes.undisturbed, takes.present, takes.limited, takes.bindable, takes.sendable, ?_⟩
  exact (Database.triesTooLong_withRows perm selection.conditions).trans takes.tried

structure Admits (offset : Option Int) (limit : Int) : Prop where
  isPage : IsPage offset limit
  offset_isSendable : IsSendable offset
  limit_isSendable : IsSendable (some limit)

def draftOf (listing : Listing) (source : Source) (request : Request) : Outcome Draft :=
  match Plan.ofRequest listing.today listing.registry listing.settings false request with
  | .ok plan => source.draft (plan.calls request)
  | .error e => .error e

theorem draftOf_paged (listing : Listing) (source : Source) (request : Request)
    (offset : Option Int) (limit : Int) :
    draftOf listing source (request.paged offset limit) =
      (draftOf listing source request).map fun d => { d with offset, limit := some limit } := by
  have hplan : Plan.ofRequest listing.today listing.registry listing.settings false
      (request.paged offset limit) =
        Plan.ofRequest listing.today listing.registry listing.settings false request := rfl
  unfold draftOf
  rw [hplan]
  cases Plan.ofRequest listing.today listing.registry listing.settings false request with
  | error e => rfl
  | ok plan => exact source.draft_paged plan request offset limit

theorem fetch_eq_outcome (listing : Listing) (source : Source) (session : Session)
    (request : Request) :
    (listing.fetch (adapter source) { session } request).2 =
      match draftOf listing source request with
      | .ok d => d.outcome source session
      | .error e => .error e := by
  have hclauses : (adapter source).acceptsClauses = false := rfl
  unfold Listing.fetch draftOf
  rw [hclauses]
  cases Plan.ofRequest listing.today listing.registry listing.settings false request with
  | error e => rfl
  | ok plan => exact adapter_run_eq_outcome source session (plan.calls request)

theorem Draft.page_of_readable {source : Source} {s : Session} {d : Draft}
    (readable : ∀ row ∈ s.database.select (d.selection source), source.table.IsReadable row) :
    d.page source s = .ok {
      rows := (s.database.select (d.selection source)).map source.table.rowValues
      total := (s.database.selected (d.allConditions source)).length } := by
  refine Page.of_eq_ok_iff.mpr ⟨?_, rfl⟩
  rw [List.map_map]
  apply List.map_congr_left
  intro row hrow
  exact Table.readRow_eq_ok_iff.mpr ⟨readable row hrow, rfl⟩

theorem Draft.page_eq_ok_iff {source : Source} {s : Session} {d : Draft} {page : Page} :
    d.page source s = .ok page ↔
      (∀ row ∈ s.database.select (d.selection source), source.table.IsReadable row) ∧
        page = {
          rows := (s.database.select (d.selection source)).map source.table.rowValues
          total := (s.database.selected (d.allConditions source)).length } := by
  constructor
  · intro hpage
    have readable : ∀ row ∈ s.database.select (d.selection source), source.table.IsReadable row := by
      intro row hrow
      have hread : source.table.readRow row ∈ page.rows.map .ok :=
        (Page.of_eq_ok_iff.mp hpage).1 ▸ List.mem_map_of_mem hrow
      obtain ⟨values, -, hvalues⟩ := List.mem_map.mp hread
      exact (Table.readRow_eq_ok_iff.mp hvalues.symm).1
    exact ⟨readable, Except.ok.inj (hpage.symm.trans (page_of_readable readable))⟩
  · rintro ⟨readable, rfl⟩
    exact page_of_readable readable

theorem Draft.exists_page_iff {source : Source} {s : Session} {d : Draft} :
    (∃ page, d.page source s = .ok page) ↔
      ∀ row ∈ s.database.select (d.selection source), source.table.IsReadable row := by
  simp [page_eq_ok_iff]

theorem Draft.outcome_of_readable {source : Source} {s : Session} {d : Draft}
    (readable : ∀ row ∈ s.database.rows, source.table.IsReadable row)
    (takes : s.Takes (d.selection source)) :
    d.outcome source s = .ok {
      rows := (s.database.select (d.selection source)).map source.table.rowValues
      total := (s.database.selected (d.allConditions source)).length } :=
  (outcome_of_takes takes).trans
    (page_of_readable fun row hrow => readable row (Database.mem_of_mem_select hrow))

section Page

variable {source : Source} {s : Session} {key : Column}
variable (hkey : source.table.column? source.registry.idField = some key)
variable (keyed : s.database.IsKeyed key)

include hkey in
theorem Draft.key_mem_fullOrder (d : Draft) : ∃ k ∈ d.fullOrder source, k.column = key := by
  refine ⟨{ column := key, direction := .ascending, placesNulls := false }, ?_, rfl⟩
  simp [Draft.fullOrder, hkey]

/-- What is taken on one page is taken on every page that can be sent. -/
theorem Session.Takes.paged {d : Draft} {offset offset' : Option Int} {limit limit' : Int}
    (admits : Admits offset' limit')
    (takes : s.Takes (({ d with offset, limit := some limit } : Draft).selection source)) :
    s.Takes (({ d with offset := offset', limit := some limit' } : Draft).selection source) where
  undisturbed := takes.undisturbed
  present := takes.present
  limited := takes.limited
  bindable := takes.bindable
  sendable := ⟨admits.limit_isSendable, admits.offset_isSendable⟩
  tried := takes.tried

include hkey keyed in
theorem Draft.page_withRows {d : Draft} {rows : List Row} (perm : rows.Perm s.database.rows)
    (offset : Option Int) {limit : Int} (hlimit : 0 < limit) :
    ({ d with offset, limit := some limit } : Draft).page source (s.withRows rows) =
      Page.of source.table.readRow
        (slice offset limit (s.database.listed (d.allConditions source) (d.fullOrder source)))
        (s.database.listed (d.allConditions source) (d.fullOrder source)).length := by
  have hcount : ((s.withRows rows).database.selected (d.allConditions source)).length =
      (s.database.listed (d.allConditions source) (d.fullOrder source)).length := by
    rw [(s.database.listed_perm _ _).length_eq]
    exact (perm.filter _).length_eq
  have hselect := keyed.select_withRows (d.key_mem_fullOrder hkey) perm
    (s := ({ d with offset, limit := some limit } : Draft).selection source) rfl
  rw [← hcount, ← Database.page_eq_slice hlimit]
  unfold Draft.page
  rw [Session.withRows, hselect]
  rfl

end Page

/-- One list stands behind all pages of a request that runs at all: the matching rows in strictly
increasing order. -/
theorem fetch_pagesOf {listing : Listing} {source : Source} {session : Session} {key : Column}
    {request : Request} (hkey : source.table.column? source.registry.idField = some key)
    (keyed : session.database.IsKeyed key)
    (runs : ∃ offset limit page, Admits offset limit ∧
      (listing.fetch (adapter source) { session } (request.paged offset limit)).2 = .ok page) :
    ∃ d, draftOf listing source request = .ok d ∧
      ∀ rows, rows.Perm session.database.rows →
        PagesOf source.table.readRow Admits
          (session.database.listed (d.allConditions source) (d.fullOrder source))
          fun offset limit => (listing.fetch (adapter source)
            { session := session.withRows rows } (request.paged offset limit)).2 := by
  obtain ⟨offset, limit, page, admits, hfetch⟩ := runs
  rw [fetch_eq_outcome listing source session, draftOf_paged] at hfetch
  cases hd : draftOf listing source request with
  | error e =>
      rw [hd] at hfetch
      cases hfetch
  | ok d =>
      rw [hd] at hfetch
      have takes := (Draft.outcome_eq_ok_iff.mp hfetch).1
      refine ⟨d, rfl, ?_⟩
      intro rows perm
      apply PagesOf.of_shows
      · intro offset limit h
        exact h.isPage
      · intro limit h
        exact ⟨⟨h.isPage.limit_pos, by simp⟩, by simp [IsSendable, isStorable],
          h.limit_isSendable⟩
      · intro offset limit h
        rw [fetch_eq_outcome listing source, draftOf_paged, hd]
        exact (Draft.outcome_of_takes ((takes.withRows perm).paged h)).trans
          (Draft.page_withRows hkey keyed perm offset h.isPage.limit_pos)

end Catalogue.Relational
