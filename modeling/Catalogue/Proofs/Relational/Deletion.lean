import Catalogue.Proofs.Relational.Paging
import Catalogue.Proofs.Relational.Storage
import Catalogue.Proofs.Store.Recording

/-!
Rows that are marked as deleted are as good as gone: whatever is asked, a listing comes to the same as
over the table without them.
-/

namespace Catalogue.Relational

open Sorting (OrdersOn atOrBefore)

namespace Database

theorem ordersOn_column (t : Table) (c : Column) {rows : List Row}
    (kept : ∀ row ∈ rows, ∀ cell ∈ row, cell.IsKept) :
    OrdersOn (fun a b => (t.cell a c).order (t.cell b c)) rows := by
  obtain ⟨total, htotal, same⟩ :=
    ordersOn_compareRows t [{ column := c, direction := .ascending }] kept
  refine ⟨total, htotal, ?_⟩
  intro a ha b hb
  rw [← same a ha b hb]
  simp [compareRows]

section Unselected

variable {db : Database} (kept : db.IsKept) {p : Row → Bool}

include kept in
/-- A scan meets some of the rows in the same order without the others. -/
theorem scan_filter (conditions : List Condition) :
    (db.withRows (db.rows.filter p)).scan conditions = (db.scan conditions).filter p := by
  unfold scan withRows
  dsimp only
  cases db.table.columns with
  | nil => rfl
  | cons key rest =>
      dsimp only
      split
      · exact ((ordersOn_column db.table key kept).filter_mergeSort_eq p).symm
      · rfl

variable {conditions : List Condition}
variable (selective : ∀ row, db.isSelected conditions row = true → p row = true)
include selective

theorem filter_isSelected_filter (rows : List Row) :
    (rows.filter p).filter (db.isSelected conditions) = rows.filter (db.isSelected conditions) := by
  rw [List.filter_filter]
  apply List.filter_congr
  intro row _
  cases h : db.isSelected conditions row with
  | false => rfl
  | true => rw [selective row h, Bool.and_self]

theorem selected_filter :
    (db.withRows (db.rows.filter p)).selected conditions = db.selected conditions :=
  filter_isSelected_filter selective db.rows

include kept in
theorem select_filter {s : Selection} (hs : s.conditions = conditions) :
    (db.withRows (db.rows.filter p)).select s = db.select s := by
  subst hs
  have hmet : ((db.withRows (db.rows.filter p)).scan s.conditions).filter
      ((db.withRows (db.rows.filter p)).isSelected s.conditions) =
        (db.scan s.conditions).filter (db.isSelected s.conditions) := by
    rw [scan_filter kept]
    exact filter_isSelected_filter selective (db.scan s.conditions)
  unfold select
  rw [hmet]
  rfl

end Unselected

end Database

/-- Without a pattern that is too long, the rows have no part in a refusal. -/
theorem Session.refusal?_withRows_of_short (s : Session) (rows : List Row) {statement : Statement}
    (short : ∀ c ∈ statement.conditions, ∀ a ∈ c, a.isTooLong = false) :
    (s.withRows rows).refusal? statement = s.refusal? statement := by
  have htried : (s.withRows rows).database.triesTooLong statement.conditions =
      s.database.triesTooLong statement.conditions :=
    ((s.withRows rows).database.triesTooLong_eq_false short).trans
      (s.database.triesTooLong_eq_false short).symm
  unfold refusal? faultOf
  rw [htried]
  rfl

/-- A database without the rows that are marked as deleted. -/
def Database.live (db : Database) (marker : Column) : Database :=
  db.withRows (db.rows.filter fun row => (db.table.cell row marker).isNull)

def Session.live (s : Session) (marker : Column) : Session :=
  { s with database := s.database.live marker }

section Marker

variable {source : Source} {marker : Column} (hmarker : source.markerColumn? = some marker)
include hmarker

theorem Draft.isNull_mem_allConditions (d : Draft) : [.isNull marker] ∈ d.allConditions source := by
  simp [allConditions, hmarker]

theorem Database.isNull_of_isSelected {db : Database} {d : Draft} {row : Row}
    (h : db.isSelected (d.allConditions source) row = true) :
    (db.table.cell row marker).isNull = true := by
  have hholds := List.all_eq_true.mp h _ (d.isNull_mem_allConditions hmarker)
  simpa [Condition.holds, Atom.holds, Atom.column] using hholds

theorem Draft.selected_live (session : Session) (d : Draft) :
    (session.live marker).database.selected (d.allConditions source) =
      session.database.selected (d.allConditions source) :=
  Database.selected_filter fun _ => Database.isNull_of_isSelected hmarker

theorem Draft.select_live {session : Session} (kept : session.database.IsKept) (d : Draft) :
    (session.live marker).database.select (d.selection source) =
      session.database.select (d.selection source) :=
  Database.select_filter kept (fun _ => Database.isNull_of_isSelected hmarker) rfl

theorem Draft.page_live {session : Session} (kept : session.database.IsKept) (d : Draft) :
    d.page source (session.live marker) = d.page source session := by
  unfold page
  rw [d.select_live hmarker kept, d.selected_live hmarker]

/-- A draft comes to the same without the deleted rows. -/
theorem Draft.outcome_live {session : Session} (kept : session.database.IsKept) {d : Draft}
    (short : ∀ c ∈ d.conditions, ∀ a ∈ c, a.isTooLong = false) :
    d.outcome source (session.live marker) = d.outcome source session := by
  have short' : ∀ c ∈ d.allConditions source, ∀ a ∈ c, a.isTooLong = false := by
    unfold allConditions
    rw [hmarker, List.forall_mem_append]
    exact ⟨short, by simp [Atom.isTooLong]⟩
  have hcount : (session.live marker).refusal? (.count (d.allConditions source)) =
      session.refusal? (.count (d.allConditions source)) :=
    session.refusal?_withRows_of_short _ short'
  have hpage : (session.live marker).next.refusal? (.page (d.selection source)) =
      session.next.refusal? (.page (d.selection source)) :=
    session.next.refusal?_withRows_of_short _ short'
  unfold outcome
  rw [hcount, hpage, d.page_live hmarker kept]

end Marker

theorem Draft.stored_of_outcome {source : Source} {session : Session} {d : Draft} {page : Page}
    (h : d.outcome source session = .ok page) :
    (∀ shown ∈ page.rows, ∃ row ∈ session.database.rows, shown = source.table.rowValues row) ∧
      page.total ≤ session.database.rows.length := by
  obtain ⟨-, rfl⟩ := page_eq_ok_iff.mp (outcome_eq_ok_iff.mp h).2
  constructor
  · intro shown hshown
    obtain ⟨row, hrow, rfl⟩ := List.mem_map.mp hshown
    exact ⟨row, Database.mem_of_mem_select hrow, rfl⟩
  · exact Int.ofNat_le.mpr (List.length_filter_le _ _)

/-- Is every pattern that the call sends short enough? -/
def IsShort : Call → Prop
  | .pattern _ w => (w.toLike Wildcard.defaultEscape).utf8ByteSize ≤ maxPatternSize
  | .textSearch text => (containsPattern text).utf8ByteSize ≤ maxPatternSize
  | _ => True

instance : (call : Call) → Decidable (IsShort call)
  | .pattern _ w =>
    inferInstanceAs (Decidable ((w.toLike Wildcard.defaultEscape).utf8ByteSize ≤ maxPatternSize))
  | .textSearch text =>
    inferInstanceAs (Decidable ((containsPattern text).utf8ByteSize ≤ maxPatternSize))
  | .equality .. | .negatedEquality .. | .range .. | .membership .. | .absence _ | .existence _
  | .sort .. | .randomSort _ | .pagination .. => isTrue trivial

theorem isTooLong_of_gives {call : Call} {a : Atom} (h : Change.Gives call a)
    (short : IsShort call) : a.isTooLong = false := by
  cases h with
  | equal f v c => exact isTooLong_equalTo c v
  | different f v c => exact isTooLong_differentFrom c v
  | like f w c => exact decide_eq_false (Nat.not_lt_of_le short)
  | containing text c => exact decide_eq_false (Nat.not_lt_of_le short)
  | _ => rfl

theorem Source.isShort_of_draft {source : Source} {calls : List Call} {d : Draft}
    (hd : source.draft calls = .ok d) (short : ∀ call ∈ calls, IsShort call) :
    ∀ c ∈ d.conditions, ∀ a ∈ c, a.isTooLong = false := by
  intro c hc a ha
  obtain ⟨call, hcall, hgives⟩ := source.gives_of_draft hd c hc a ha
  exact isTooLong_of_gives hgives (short call hcall)

theorem fetchParameters_outcome (listing : Listing) (source : Source) (session : Session)
    (params : Entries) :
    (listing.fetchParameters (adapter source) { session } params).2 =
      match listing.compiled false params with
      | .error e => .error e
      | .ok (request, plan) =>
        match source.draft (plan.calls request) with
        | .ok d => d.outcome source session
        | .error e => .error e := by
  rw [Listing.fetchParameters_eq]
  have hclauses : (adapter source).acceptsClauses = false := rfl
  rw [hclauses]
  cases listing.compiled false params with
  | error e => rfl
  | ok prepared => exact adapter_run_eq_outcome source session _

/-- Rows with a marker have no influence on listings: whatever is asked, in filter, order, page and
free text, a request comes to the same, be it a page or a failure, as over the table without these
rows. So none of them is ever shown or counted. -/
theorem deleted_rows_have_no_influence (listing : Listing) (source : Source) {name : String}
    {marker : Column} (hname : source.settings.deletedMarker = some name) (hne : name ≠ "")
    (hcolumn : source.table.column? name = some marker) (session : Session)
    (kept : session.database.IsKept) {params : Entries}
    (short : ∀ request plan, listing.compiled false params = .ok (request, plan) →
      ∀ call ∈ plan.calls request, IsShort call) :
    (listing.fetchParameters (adapter source) { session } params).2 =
        (listing.fetchParameters (adapter source) { session := session.live marker } params).2 ∧
      ∀ page, (listing.fetchParameters (adapter source) { session } params).2 = .ok page →
        (∀ shown ∈ page.rows, ∃ row ∈ session.database.rows,
          (session.database.table.cell row marker).isNull = true ∧
            shown = source.table.rowValues row) ∧
        page.total ≤ (session.database.live marker).rows.length := by
  have hmarker : source.markerColumn? = some marker := by
    unfold Source.markerColumn?
    rw [hname]
    simp [hne, hcolumn]
  have hsame : (listing.fetchParameters (adapter source) { session } params).2 =
      (listing.fetchParameters (adapter source) { session := session.live marker } params).2 := by
    rw [fetchParameters_outcome, fetchParameters_outcome]
    cases hcompiled : listing.compiled false params with
    | error e => rfl
    | ok prepared =>
        obtain ⟨request, plan⟩ := prepared
        dsimp only
        cases hd : source.draft (plan.calls request) with
        | error e => rfl
        | ok d =>
            have hshort := Source.isShort_of_draft hd (short request plan hcompiled)
            exact (Draft.outcome_live hmarker kept hshort).symm
  refine ⟨hsame, ?_⟩
  intro page hpage
  rw [hsame, fetchParameters_outcome] at hpage
  split at hpage
  · cases hpage
  · split at hpage
    · obtain ⟨hshown, htotal⟩ := Draft.stored_of_outcome hpage
      refine ⟨?_, htotal⟩
      intro shown h
      obtain ⟨row, hrow, rfl⟩ := hshown shown h
      obtain ⟨hstored, hlive⟩ := List.mem_filter.mp hrow
      exact ⟨row, hstored, hlive, rfl⟩
    · cases hpage

section Articles

/-- Articles that can be deleted, with free text in titles. -/
def shelf : Source where
  table := {
    name := "articles"
    columns := [⟨"id", .text⟩, ⟨"title", .text⟩, ⟨"deleted_on", .moment⟩] }
  registry := articleRegistry
  settings := default
  textFields := ["title"]

def shelved : Database where
  table := shelf.table
  rows := [[.text "a", .text "one", .null],
    [.text "b", .text "one", .text "2024-01-31 12:34:56.789000"]]

theorem isReadable_shelved : ∀ row ∈ shelved.rows, shelf.table.IsReadable row := by
  decide

def shelfQuery : Entries :=
  [(.text "filter", .object [(.text "title", .text "%ne"),
      (.text "deleted_on", .object [(.text "not", .null)])]),
    (.text "q", .text "N")]

/-- The count does not tell that there is a deleted article. -/
theorem deleted_article_has_no_influence :
    shelved.rows.length = 2 ∧ (shelved.live ⟨"deleted_on", .moment⟩).rows.length = 1 ∧
      ∃ page, page.total = 1 ∧
        (articleListing.fetchParameters (adapter shelf) { session := { database := shelved } }
          shelfQuery).2 = .ok page ∧
        (articleListing.fetchParameters (adapter shelf)
          { session := { database := shelved.live ⟨"deleted_on", .moment⟩ } } shelfQuery).2 =
            .ok page := by
  have kept : shelved.IsKept := by
    simp [Database.IsKept, shelved, Cell.IsKept]
  have short : ∀ request plan, articleListing.compiled false shelfQuery = .ok (request, plan) →
      ∀ call ∈ plan.calls request, IsShort call := by
    intro request plan hcompiled
    have hcalls : plan.calls request = [
        .pattern "title" { text := "ne", leading := true, trailing := false },
        .pagination none (some 100), .textSearch "N"] := by
      cases hcompiled
      rfl
    rw [hcalls]
    decide
  have hpage : ∃ page, page.total = 1 ∧ (articleListing.fetchParameters (adapter shelf)
      { session := { database := shelved } } shelfQuery).2 = .ok page := by
    rw [fetchParameters_outcome]
    exact ⟨_, rfl, Draft.outcome_of_readable isReadable_shelved (Session.takes_iff.mpr ⟨rfl, rfl⟩)⟩
  obtain ⟨hsame, -⟩ := deleted_rows_have_no_influence articleListing shelf rfl (by decide) rfl
    { database := shelved } kept short
  obtain ⟨page, htotal, hpage⟩ := hpage
  exact ⟨rfl, rfl, page, htotal, hpage, hsame.symm.trans hpage⟩

end Articles

end Catalogue.Relational
