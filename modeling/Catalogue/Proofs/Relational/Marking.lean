import Catalogue.Proofs.Parity.Sequence
import Catalogue.Proofs.Parity.Wildcards
import Catalogue.Proofs.Relational.Content
import Catalogue.Proofs.Store.Rearrangement
import Catalogue.Relational.Source

/-!
Marking a row as deleted. It sets one cell of one row, after which listings are those of the table
without the row; a row can still be found by its identifier.
-/

namespace Catalogue.Relational

open Calendar (Moment)

section Listings

def Session.over (s : Session) (db : Database) : Session :=
  { s with database := db }

/-- Listings over two databases come to the same, whatever a session is told, as long as no pattern
is too long. Two pages are the same in any case. -/
structure SameListings (source : Source) (db db' : Database) : Prop where
  runs : ∀ (s : Session) (calls : List Call), (∀ call ∈ calls, IsShort call) →
    ((adapter source).run { session := s.over db } calls).2 =
      ((adapter source).run { session := s.over db' } calls).2
  pages : ∀ (s : Session) (calls : List Call) (page page' : Page),
    ((adapter source).run { session := s.over db } calls).2 = .ok page →
    ((adapter source).run { session := s.over db' } calls).2 = .ok page' → page = page'
  requests : ∀ (listing : Listing) (s : Session) (params : Entries),
    (∀ request plan, listing.compiled false params = .ok (request, plan) →
      ∀ call ∈ plan.calls request, IsShort call) →
    (listing.fetchParameters (adapter source) { session := s.over db } params).2 =
      (listing.fetchParameters (adapter source) { session := s.over db' } params).2

variable {source : Source} {marker : Column} (hmarker : source.markerColumn? = some marker)
include hmarker

/-- Databases that differ only in deleted rows have the same listings. -/
theorem sameListings_of_live {db db' : Database} (kept : db.IsKept) (kept' : db'.IsKept)
    (h : db.live marker = db'.live marker) : SameListings source db db' := by
  have hlive : ∀ s : Session, (s.over db).live marker = (s.over db').live marker := by
    intro s
    unfold Session.live Session.over
    rw [h]
  have hkept : ∀ s : Session, (s.over db).database.IsKept := fun _ => kept
  have hkept' : ∀ s : Session, (s.over db').database.IsKept := fun _ => kept'
  have hrun : ∀ (s : Session) (calls : List Call), (∀ call ∈ calls, IsShort call) →
      ((adapter source).run { session := s.over db } calls).2 =
        ((adapter source).run { session := s.over db' } calls).2 := by
    intro s calls short
    rw [adapter_run_eq_outcome, adapter_run_eq_outcome]
    cases hd : source.draft calls with
    | error e => rfl
    | ok d =>
        have hshort := Source.isShort_of_draft hd short
        have hdb : d.outcome source (s.over db) = _ :=
          (Draft.outcome_live hmarker (hkept s) hshort).symm
        have hdb' : d.outcome source (s.over db') = _ :=
          (Draft.outcome_live hmarker (hkept' s) hshort).symm
        dsimp only
        rw [hdb, hdb', hlive]
  refine ⟨hrun, ?_, ?_⟩
  · intro s calls page page' hpage hpage'
    rw [adapter_run_eq_outcome] at hpage hpage'
    cases hd : source.draft calls with
    | error e =>
        rw [hd] at hpage
        cases hpage
    | ok d =>
        rw [hd] at hpage hpage'
        have hshown := (Draft.outcome_eq_ok_iff.mp hpage).2
        rw [← d.page_live hmarker (hkept s), hlive, d.page_live hmarker (hkept' s)] at hshown
        exact Except.ok.inj (hshown.symm.trans (Draft.outcome_eq_ok_iff.mp hpage').2)
  · intro listing s params short
    have hclauses : (adapter source).acceptsClauses = false := rfl
    rw [Listing.fetchParameters_eq, Listing.fetchParameters_eq, hclauses]
    cases hcompiled : listing.compiled false params with
    | error e => rfl
    | ok prepared => exact hrun s _ (short prepared.1 prepared.2 hcompiled)

end Listings

section Cells

theorem zip_map_zip (cs : List Column) (row : Row) (f : Column × Cell → Cell) :
    cs.zip ((cs.zip row).map f) = (cs.zip row).map fun entry => (entry.1, f entry) := by
  induction cs generalizing row with
  | nil => rfl
  | cons c cs ih =>
      cases row with
      | nil => rfl
      | cons cell row => exact congrArg _ (ih row)

variable {t : Table} {c d : Column} {row : Row}

theorem cell_replaceCell_of_ne (new : Cell) (hne : d.name ≠ c.name) :
    t.cell (Database.replaceCell t c new row) d = t.cell row d := by
  unfold Table.cell Database.replaceCell
  rw [zip_map_zip, List.find?_map]
  change (((t.columns.zip row).find? fun entry => entry.1.name == d.name).map _).elim _ _ = _
  cases hfind : (t.columns.zip row).find? fun entry => entry.1.name == d.name with
  | none => rfl
  | some entry =>
      have hname : entry.1.name = d.name := by simpa using List.find?_some hfind
      exact if_neg (by simpa [hname] using hne)

variable (full : row.length = t.columns.length)
include full

theorem cell_replaceCell_self (new : Cell) (hc : c ∈ t.columns) :
    t.cell (Database.replaceCell t c new row) c = new := by
  have hentry := Table.find?_entry full hc
  unfold Table.cell Database.replaceCell
  rw [zip_map_zip, List.find?_map]
  change (((t.columns.zip row).find? fun entry => entry.1.name == c.name).map _).elim _ _ = _
  rw [hentry]
  exact if_pos (by simp)

theorem length_replaceCell (new : Cell) :
    (Database.replaceCell t c new row).length = row.length := by
  simp [Database.replaceCell, full]

end Cells

/-- A cell equals a text that it is compared with only if it holds just this text. -/
theorem isTrueOf_equal_text_iff {cell : Cell} {s : String} :
    Atom.isTrueOf .text .equal cell (.text s) = true ↔ cell = .text s := by
  cases cell with
  | text u =>
      have hcompare : (compare u s == .eq) = true ↔ u = s := by
        rw [beq_iff_eq]
        exact Std.LawfulEqCmp.compare_eq_iff_eq
      rw [Cell.text.injEq, ← hcompare]
      rfl
  | _ => exact iff_of_false Bool.false_ne_true Cell.noConfusion

theorem Session.send_of_accepted {s : Session} {statement : Statement}
    (h : s.refusal? statement = none) :
    ∃ log asked, s.send statement =
      ({ database := (s.database.run statement).1, faults := s.faults.drop 1, log, asked },
        .ok (s.database.run statement).2) := by
  obtain ⟨hdue, parameters, hparameters, hfault⟩ := refusal?_eq_none_iff.mp h
  unfold send
  split
  · rename_i fault rest hfaults
    rw [hfaults] at hdue
    cases hdue
  · simp only [hparameters, hfault]
    exact ⟨_, _, rfl⟩

/-- Rows under a primary key of texts, with a marker of deleted rows in another column, and each with
a cell for every column. -/
structure IsMarkable (source : Source) (key marker : Column) (db : Database) : Prop where
  idColumn : source.table.column? source.registry.idField = some key
  idType : key.type = .text
  markerColumn : source.markerColumn? = some marker
  markerType : marker.type = .moment
  apart : key ≠ marker
  table_eq : db.table = source.table
  present : db.dropped = false
  keyed : db.IsKeyed key
  full : ∀ row ∈ db.rows, row.length = source.table.columns.length

/-- The condition that a row has an identifier. -/
def hasText (key : Column) (id : String) : Condition :=
  [Condition.equalTo key (.text id)]

def marking (key marker : Column) (now : Moment) (id : String) : Statement :=
  .set marker (.ofMoment now) (hasText key id)

def markedAt (now : Moment) : Cell :=
  .text (now.textWith ' ' true)

def markRow (source : Source) (marker : Column) (now : Moment) (row : Row) : Row :=
  Database.replaceCell source.table marker (markedAt now) row

theorem markedAt_stored (now : Moment) : (markedAt now).stored .numeric = markedAt now := by
  change (markedAt now).asNumber.asInteger = markedAt now
  unfold markedAt
  rw [Parity.IsOf.asNumber_moment]
  rfl

theorem map_of_unselected {db : Database} {conditions : List Condition} {f : Row → Row}
    {rows : List Row} (h : ∀ row ∈ rows, db.isSelected conditions row = false) :
    (rows.map fun row => if db.isSelected conditions row then f row else row) = rows := by
  induction rows with
  | nil => rfl
  | cons row rest ih =>
      obtain ⟨hrow, hrest⟩ := List.forall_mem_cons.mp h
      rw [List.map_cons, ih hrest, if_neg (by simp [hrow])]

namespace IsMarkable

variable {source : Source} {key marker : Column} {db : Database}
variable (h : IsMarkable source key marker db)
include h

theorem marker_mem : marker ∈ source.table.columns :=
  Parity.mem_markerColumn? h.markerColumn

theorem hasId_eq (id : String) : source.hasId (.text id) = .ok (hasText key id) := by
  unfold Source.hasId
  rw [h.idColumn]
  rfl

theorem name_ne {c : Column} (hc : c ∈ source.table.columns) (hne : c ≠ marker) :
    c.name ≠ marker.name := by
  intro hname
  have hfound := Table.column?_name hc
  rw [hname, Table.column?_name h.marker_mem] at hfound
  exact hne (Option.some.inj hfound).symm

theorem cell_key_markRow (now : Moment) (row : Row) :
    source.table.cell (markRow source marker now row) key = source.table.cell row key :=
  cell_replaceCell_of_ne _ (h.name_ne (Table.mem_of_column? h.idColumn).1 h.apart)

theorem isSelected_hasText_iff {id : String} {row : Row} :
    db.isSelected [hasText key id] row = true ↔ source.table.cell row key = .text id := by
  have hatom : Atom.holds db.table row (.compares key .equal (.text id)) =
      Atom.isTrueOf .text .equal (source.table.cell row key) (.text id) := by
    change Atom.isTrueOf key.type.affinity .equal (db.table.cell row key)
      (boundCell (send? (sendTypeFor key.type (.text id)) (.text id))) = _
    rw [h.table_eq, h.idType]
    rfl
  rw [← isTrueOf_equal_text_iff, ← hatom]
  simp [Database.isSelected, Condition.holds, hasText, Condition.equalTo]

theorem run_marking (now : Moment) (id : String) :
    db.run (marking key marker now id) =
      (db.withRows (db.rows.map fun row =>
          if db.isSelected [hasText key id] row then markRow source marker now row else row),
        .number (db.selected [hasText key id]).length) := by
  have hcell : boundCell (send? marker.type.sendType (.ofMoment now)) = markedAt now := by
    rw [h.markerType]
    rfl
  have hstored : (markedAt now).stored marker.type.affinity = markedAt now := by
    rw [h.markerType]
    exact markedAt_stored now
  unfold Database.run marking Database.update Database.withRows markRow
  dsimp only
  rw [hcell, hstored]
  simp only [h.table_eq]

theorem run (now : Moment) (id : String) :
    IsMarkable source key marker (db.run (marking key marker now id)).1 where
  idColumn := h.idColumn
  idType := h.idType
  markerColumn := h.markerColumn
  markerType := h.markerType
  apart := h.apart
  table_eq := h.table_eq
  present := h.present
  keyed := by
    refine ⟨Database.isKept_run h.keyed.kept _, ?_⟩
    have hcell : ∀ row : Row, source.table.cell
        (if db.isSelected [hasText key id] row then markRow source marker now row else row) key =
          source.table.cell row key := by
      intro row
      split
      · exact h.cell_key_markRow now row
      · rfl
    have hunique := h.keyed.unique
    rw [h.table_eq] at hunique
    rw [h.run_marking]
    change (db.rows.map _).Pairwise fun a b => (db.table.cell a key).order (db.table.cell b key) ≠ .eq
    rw [h.table_eq, List.pairwise_map]
    simpa only [hcell] using hunique
  full := by
    rw [h.run_marking]
    intro row hrow
    obtain ⟨old, hold, rfl⟩ := List.mem_map.mp hrow
    split
    · rw [markRow, length_replaceCell (h.full old hold), h.full old hold]
    · exact h.full old hold

section Row

variable {row : Row} (full : row.length = source.table.columns.length) (now : Moment)
include full

theorem cell_marker_markRow :
    source.table.cell (markRow source marker now row) marker = markedAt now :=
  cell_replaceCell_self full _ h.marker_mem

omit full in
theorem isReadable_markRow (readable : source.table.IsReadable row) :
    source.table.IsReadable (markRow source marker now row) := by
  unfold Table.IsReadable markRow Database.replaceCell
  rw [zip_map_zip, List.forall_mem_map]
  rintro ⟨c, cell⟩ hentry
  by_cases hc : c = marker
  · subst hc
    simp only [beq_self_eq_true, if_true, h.markerType]
    exact readFault?_moment now
  · have hname : (c.name == marker.name) = false :=
      beq_false_of_ne (h.name_ne (List.of_mem_zip hentry).1 hc)
    simp only [hname, Bool.false_eq_true, if_false]
    exact readable _ hentry

theorem get?_marker_markRow :
    Entries.get? (source.table.rowValues (markRow source marker now row)) marker.name =
      some (.ofMoment now) := by
  have hlength : (markRow source marker now row).length = source.table.columns.length :=
    (length_replaceCell full _).trans full
  rw [Parity.get?_rowValues, Table.find?_entry hlength h.marker_mem, Option.map_some,
    h.cell_marker_markRow full now, h.markerType]
  exact congrArg some (cellValue_moment now)

end Row

section Split

variable {before behind : List Row} {row : Row} {id : String}
variable (hrows : db.rows = before ++ row :: behind) (hid : source.table.cell row key = .text id)
include hrows hid

theorem isSelected_others : ∀ other ∈ before ++ behind,
    db.isSelected [hasText key id] other = false := by
  have hunique := h.keyed.unique
  rw [h.table_eq, hrows, List.pairwise_append, List.pairwise_cons] at hunique
  obtain ⟨-, ⟨hbehind, -⟩, hbefore⟩ := hunique
  have hself : (Cell.text id).order (.text id) = .eq := by
    change compare id id = .eq
    exact Std.ReflCmp.compare_self
  intro other hother
  rw [Bool.eq_false_iff]
  intro hselected
  have hown := h.isSelected_hasText_iff.mp hselected
  rcases List.mem_append.mp hother with hother | hother
  · exact hbefore other hother row (.head _) (by rw [hown, hid, hself])
  · exact hbehind other hother (by rw [hown, hid, hself])

theorem selected_hasText : db.selected [hasText key id] = [row] := by
  have hothers := List.forall_mem_append.mp (h.isSelected_others hrows hid)
  unfold Database.selected
  rw [hrows, List.filter_append, List.filter_cons_of_pos (h.isSelected_hasText_iff.mpr hid),
    List.filter_eq_nil_iff.mpr, List.filter_eq_nil_iff.mpr, List.nil_append]
  · exact fun other hother => by simp [hothers.2 other hother]
  · exact fun other hother => by simp [hothers.1 other hother]

theorem run_marking_of_split (now : Moment) :
    (db.run (marking key marker now id)).1 =
      db.withRows (before ++ markRow source marker now row :: behind) := by
  have hothers := List.forall_mem_append.mp (h.isSelected_others hrows hid)
  rw [h.run_marking, hrows, List.map_append, List.map_cons, map_of_unselected hothers.1,
    map_of_unselected hothers.2, if_pos (h.isSelected_hasText_iff.mpr hid)]

theorem live_run_marking (now : Moment) :
    ((db.run (marking key marker now id)).1).live marker =
      (db.withRows (before ++ behind)).live marker := by
  have full := h.full row (hrows ▸ List.mem_append_right _ (.head _))
  have hmarked : (db.table.cell (markRow source marker now row) marker).isNull = false := by
    rw [h.table_eq, h.cell_marker_markRow full now]
    rfl
  rw [h.run_marking_of_split hrows hid]
  unfold Database.live Database.withRows
  dsimp only
  rw [List.filter_append, List.filter_cons_of_neg (by simp [hmarked]), List.filter_append]

/-- Listings after a row is marked are those without it. -/
theorem sameListings_run_marking (now : Moment) :
    SameListings source (db.run (marking key marker now id)).1 (db.withRows (before ++ behind)) := by
  apply sameListings_of_live h.markerColumn (h.run now id).keyed.kept
  · intro other hother
    apply h.keyed.kept
    rw [hrows]
    exact ((List.sublist_cons_self row behind).append_left before).subset hother
  · exact h.live_run_marking hrows hid now

theorem sameListings_run_run_marking (now later : Moment) :
    SameListings source ((db.run (marking key marker now id)).1.run (marking key marker later id)).1
      (db.run (marking key marker now id)).1 := by
  have h' := h.run now id
  have hid' := (h.cell_key_markRow now row).trans hid
  have hafter := h.run_marking_of_split hrows hid now
  have hrows' : (db.run (marking key marker now id)).1.rows =
      before ++ markRow source marker now row :: behind := congrArg Database.rows hafter
  have hwithout : (db.run (marking key marker now id)).1.withRows (before ++ behind) =
      db.withRows (before ++ behind) := by
    rw [hafter]
    rfl
  apply sameListings_of_live h.markerColumn (h'.run later id).keyed.kept h'.keyed.kept
  rw [h'.live_run_marking hrows' hid' later, hwithout, h.live_run_marking hrows hid now]

end Split

theorem run_marking_of_absent {id : String}
    (absent : ∀ row ∈ db.rows, source.table.cell row key ≠ .text id) (now : Moment) :
    db.selected [hasText key id] = [] ∧ (db.run (marking key marker now id)).1 = db := by
  have hnone : ∀ row ∈ db.rows, db.isSelected [hasText key id] row = false := by
    intro row hrow
    rw [Bool.eq_false_iff]
    exact mt h.isSelected_hasText_iff.mp (absent row hrow)
  constructor
  · exact List.filter_eq_nil_iff.mpr fun row hrow => by simp [hnone row hrow]
  · rw [h.run_marking, map_of_unselected hnone]
    rfl

section Session

variable {s : Session} (hs : IsMarkable source key marker s.database) (calm : s.faults = [])
omit h
include hs calm

theorem refusal?_marking (now : Moment) (id : String) :
    s.refusal? (marking key marker now id) = none := by
  have hparameters : (marking key marker now id).parameters? =
      some [momentText now, .text id] := by
    unfold marking
    simp only [Statement.parameters?, hs.markerType]
    rfl
  refine Session.refusal?_eq_none_iff.mpr ⟨by rw [calm]; rfl, _, hparameters, ?_⟩
  refine Session.faultOf_eq_none_iff.mpr ⟨hs.present, rfl, ⟨_, rfl⟩, ?_⟩
  exact s.database.triesTooLong_eq_false (List.forall_mem_singleton.mpr
    (List.forall_mem_singleton.mpr (isTooLong_equalTo key (.text id))))

theorem refusal?_rowsWhere (id : String) : s.refusal? (.rowsWhere (hasText key id)) = none := by
  refine Session.refusal?_eq_none_iff.mpr ⟨by rw [calm]; rfl, [.text id], rfl, ?_⟩
  refine Session.faultOf_eq_none_iff.mpr ⟨hs.present, rfl, ⟨_, rfl⟩, ?_⟩
  exact s.database.triesTooLong_eq_false (List.forall_mem_singleton.mpr
    (List.forall_mem_singleton.mpr (isTooLong_equalTo key (.text id))))

theorem markAsDeleted_eq (now : Moment) (id : String) : ∃ log asked,
    source.markAsDeleted now s (.text id) =
      ({ database := (s.database.run (marking key marker now id)).1, faults := [], log, asked },
        .ok (decide (0 < (s.database.selected [hasText key id]).length))) := by
  obtain ⟨log, asked, hsend⟩ :=
    Session.send_of_accepted (hs.refusal?_marking calm now id)
  refine ⟨log, asked, ?_⟩
  unfold Source.markAsDeleted
  rw [hs.markerColumn, hs.hasId_eq]
  dsimp only
  unfold marking at hsend ⊢
  rw [hsend, calm]
  rfl

theorem fetchById_eq {id : String} {row : Row}
    (hfound : s.database.selected [hasText key id] = [row]) (readable : source.table.IsReadable row) :
    (source.fetchById s (.text id)).2 = .ok (some (source.table.rowValues row)) := by
  obtain ⟨log, asked, hsend⟩ := Session.send_of_accepted (hs.refusal?_rowsWhere calm id)
  have hread : source.table.readRow row = .ok (source.table.rowValues row) :=
    Table.readRow_eq_ok_iff.mpr ⟨readable, rfl⟩
  unfold Source.fetchById
  rw [hs.hasId_eq]
  dsimp only
  rw [hsend]
  simp only [Database.run, hfound, hread]

end Session

end IsMarkable

theorem markerColumn?_eq_none_iff {source : Source} : source.markerColumn? = none ↔
    ∀ name, source.settings.deletedMarker = some name →
      name = "" ∨ source.table.column? name = none := by
  unfold Source.markerColumn?
  cases source.settings.deletedMarker with
  | none => simp
  | some name =>
      by_cases hempty : name = ""
      · simp [hempty]
      · simp [hempty]

/-- Marking sets the marker of the row with the identifier and nothing else. The row is still found
by its identifier, but every listing is that of the table without it. -/
theorem marking_hides_one_row :
    (∀ (source : Source) (now : Moment) (s : Session) (id : Value),
      (∀ name, source.settings.deletedMarker = some name →
        name = "" ∨ source.table.column? name = none) →
      ∃ e : Failure, source.markAsDeleted now s id = (s, .error e) ∧ e.kind? = some .rejected) ∧
    ∀ (source : Source) (key marker : Column) (now : Moment) (s : Session) (id : String),
      IsMarkable source key marker s.database → s.faults = [] →
      ∃ after found, source.markAsDeleted now s (.text id) = (after, .ok found) ∧
        (found = true ↔ ∃ row ∈ s.database.rows, source.table.cell row key = .text id) ∧
        (found = false → after.database = s.database) ∧
        ∀ before row behind, s.database.rows = before ++ row :: behind →
          source.table.cell row key = .text id →
          ∃ marked : Row,
            after.database = s.database.withRows (before ++ marked :: behind) ∧
            marked.length = row.length ∧
            source.table.cell marked marker = markedAt now ∧
            (∀ c ∈ source.table.columns, c ≠ marker →
              source.table.cell marked c = source.table.cell row c) ∧
            (source.table.IsReadable row → (source.fetchById after (.text id)).2 =
              .ok (some (source.table.rowValues marked))) ∧
            Entries.get? (source.table.rowValues marked) marker.name = some (.ofMoment now) ∧
            SameListings source after.database (s.database.withRows (before ++ behind)) ∧
            ∀ later, SameListings source
              (source.markAsDeleted later after (.text id)).1.database after.database := by
  constructor
  · intro source now s id disabled
    refine ⟨.noMarkerColumn source.table.name, ?_, rfl⟩
    unfold Source.markAsDeleted
    rw [markerColumn?_eq_none_iff.mpr disabled]
  · intro source key marker now s id h calm
    obtain ⟨log, asked, hmark⟩ := h.markAsDeleted_eq calm now id
    refine ⟨_, _, hmark, ?_, ?_, ?_⟩
    · rw [decide_eq_true_iff, List.length_pos_iff_exists_mem]
      simp only [Database.selected, List.mem_filter, h.isSelected_hasText_iff]
    · intro hfound
      have absent : ∀ row ∈ s.database.rows, source.table.cell row key ≠ .text id := by
        intro row hrow hid
        have hmem : row ∈ s.database.selected [hasText key id] :=
          List.mem_filter.mpr ⟨hrow, h.isSelected_hasText_iff.mpr hid⟩
        have hpos := List.length_pos_of_mem hmem
        simp [hpos] at hfound
      exact (h.run_marking_of_absent absent now).2
    · intro before row behind hrows hid
      have hfull := h.full row (hrows ▸ List.mem_append_right _ (.head _))
      have hafter := h.run_marking_of_split hrows hid now
      have h' := h.run now id
      refine ⟨markRow source marker now row, hafter, length_replaceCell hfull _,
        h.cell_marker_markRow hfull now,
        fun c hc hne => cell_replaceCell_of_ne _ (h.name_ne hc hne), ?_,
        h.get?_marker_markRow hfull now, h.sameListings_run_marking hrows hid now, ?_⟩
      · intro readable
        have hid' := (h.cell_key_markRow now row).trans hid
        exact h'.fetchById_eq rfl (h'.selected_hasText (congrArg Database.rows hafter) hid')
          (h.isReadable_markRow now readable)
      · intro later
        obtain ⟨log', asked', hagain⟩ := h'.markAsDeleted_eq
          (s := { database := _, faults := [], log, asked }) rfl later id
        rw [hagain]
        exact h.sameListings_run_run_marking hrows hid now later

section Articles

theorem isMarkable_shelved : IsMarkable shelf ⟨"id", .text⟩ ⟨"deleted_on", .moment⟩ shelved where
  idColumn := rfl
  idType := rfl
  markerColumn := rfl
  markerType := rfl
  apart := by decide
  table_eq := rfl
  present := rfl
  keyed := ⟨by simp [Database.IsKept, shelved, Cell.IsKept], by decide⟩
  full := by decide

/-- Articles without a marker cannot be marked; of two articles the first is. -/
theorem marked_article_is_hidden :
    (∃ e, articleSource.markAsDeleted default { database := articles } (.text "a") =
      ({ database := articles }, .error e)) ∧
    ∃ after marked, shelf.markAsDeleted default { database := shelved } (.text "a") =
        (after, .ok true) ∧
      (shelf.fetchById after (.text "a")).2 = .ok (some (shelf.table.rowValues marked)) ∧
      (shelf.table.rowValues marked).get? "deleted_on" = some (.ofMoment default) ∧
      SameListings shelf after.database (shelved.withRows
        [[.text "b", .text "one", .text "2024-01-31 12:34:56.789000"]]) := by
  constructor
  · obtain ⟨e, he, -⟩ := marking_hides_one_row.1 articleSource default { database := articles }
      (.text "a") fun name hname => .inr (by cases hname; rfl)
    exact ⟨e, he⟩
  · obtain ⟨after, found, hmark, hfound, -, hrow⟩ := marking_hides_one_row.2 shelf _ _ default
      { database := shelved } "a" isMarkable_shelved rfl
    obtain rfl : found = true := hfound.mpr ⟨_, .head _, rfl⟩
    obtain ⟨marked, -, -, -, -, hfetch, hshown, hsame, -⟩ := hrow [] _ _ rfl rfl
    exact ⟨after, marked, hmark, hfetch (isReadable_shelved _ (.head _)), hshown, hsame⟩

def lone : Database :=
  shelved.withRows [[.text "a", .text "one", .null]]

theorem isMarkable_lone : IsMarkable shelf ⟨"id", .text⟩ ⟨"deleted_on", .moment⟩ lone where
  idColumn := rfl
  idType := rfl
  markerColumn := rfl
  markerType := rfl
  apart := by decide
  table_eq := rfl
  present := rfl
  keyed := ⟨by simp [Database.IsKept, lone, Database.withRows, Cell.IsKept], by decide⟩
  full := by decide

def titledRequest (raw : String) : Request where
  limit := 100
  filter := .object [(.text "title", .text raw)]

theorem draftOf_titledRequest {raw : String} {w : Wildcard} (hw : Wildcard.ofText? raw = some w) :
    draftOf articleListing shelf (titledRequest raw) = .ok {
      conditions := [[.matchesLike ⟨"title", .text⟩ (w.toLike Wildcard.defaultEscape)]]
      limit := some 100 } := by
  have hfield : ({ name := "title" } : Field) ∈ articleListing.registry.fields := .tail _ (.head _)
  have hcompile := Filter.compile_wildcard articleListing.today hfield rfl hw
  have hplan : Plan.ofRequest articleListing.today articleListing.registry articleListing.settings
      false (titledRequest raw) = .ok { predicates := [.matching "title" w], sort := [] } := by
    unfold Plan.ofRequest
    change (Filter.compile articleListing.today articleListing.registry
      (.object [(.text "title", .text raw)])).bind _ = _
    rw [hcompile]
    rfl
  unfold draftOf
  rw [hplan]
  rfl

theorem ofText?_opening {text : List Char} (hne : text ≠ []) (hplain : '%' ∉ text) :
    Wildcard.ofText? (.ofList (text ++ ['%'])) =
      some { text := .ofList text, trailing := true } := by
  have hwritten : Wildcard.written { text := .ofList text, trailing := true } =
      .ofList (text ++ ['%']) :=
    String.toList_injective (by simp [Wildcard.toList_written])
  rw [← hwritten]
  refine (Wildcard.ofText?_written_iff (by simpa using hplain) (.inr rfl)).mpr ?_
  intro h
  exact hne (by simpa using (Wildcard.mk.inj h).1)

theorem meets_marked_row {raw : String} {w : Wildcard} (hw : Wildcard.ofText? raw = some w)
    (hlong : maxPatternSize < w.text.length) :
    ∃ after, shelf.markAsDeleted default { database := lone } (.text "a") = (after, .ok true) ∧
      (articleListing.fetch (adapter shelf) { session := after } (titledRequest raw)).2 =
        .error .queryRejected ∧
      (articleListing.fetch (adapter shelf) { session := after.over (lone.withRows []) }
        (titledRequest raw)).2 = .ok { rows := [], total := 0 } := by
  have hdraft := draftOf_titledRequest hw
  have hpattern := isTooLong_of_length hlong ⟨"title", .text⟩
  generalize w.toLike Wildcard.defaultEscape = pattern at hdraft hpattern
  obtain ⟨log, asked, hmark⟩ :=
    isMarkable_lone.markAsDeleted_eq (s := { database := lone }) rfl default "a"
  have hrows : lone.rows = [] ++ [.text "a", .text "one", .null] :: [] := rfl
  rw [isMarkable_lone.selected_hasText hrows rfl,
    isMarkable_lone.run_marking_of_split hrows rfl default] at hmark
  refine ⟨_, hmark, ?_, ?_⟩
  · have htries : ({ lone with rows := [markRow shelf ⟨"deleted_on", .moment⟩ default
        [.text "a", .text "one", .null]] } : Database).triesTooLong
          [[.matchesLike ⟨"title", .text⟩ pattern], [.isNull ⟨"deleted_on", .moment⟩]] = true := by
      change (_ && List.any [_] fun row => meetsTooLong shelf.table row _) = true
      simp [meetsTooLong, Condition.meetsTooLong, hpattern]
    rw [fetch_eq_outcome, hdraft]
    refine (Draft.outcome_of_refusal ?_).trans (rfl : Except.error (listingFailure .rejected) = _)
    exact if_pos htries
  · rw [fetch_eq_outcome, hdraft]
    refine Draft.outcome_eq_ok_iff.mpr
      ⟨⟨⟨rfl, rfl⟩, rfl, rfl, ?_, ?_, Bool.and_false _⟩, page_of_selected_eq_nil rfl⟩
    · change ∀ c ∈ [_, _], _
      simp only [List.forall_mem_cons]
      exact ⟨⟨_, _, rfl, rfl⟩, ⟨[], [], rfl, rfl⟩, by simp⟩
    · simp [Draft.selection, IsSendable, isStorable]

/-- A marked row is still compared with a pattern, which fails the listing if the pattern is too
long; without the row there is nothing to compare. -/
theorem long_pattern_meets_marked_row :
    let request := titledRequest (.ofList (List.replicate 50001 'x' ++ ['%']))
    ∃ after, shelf.markAsDeleted default { database := lone } (.text "a") = (after, .ok true) ∧
      (articleListing.fetch (adapter shelf) { session := after } request).2 =
        .error .queryRejected ∧
      (articleListing.fetch (adapter shelf) { session := after.over (lone.withRows []) }
        request).2 = .ok { rows := [], total := 0 } := by
  refine meets_marked_row (ofText?_opening ?_ ?_) ?_
  · refine List.ne_nil_of_length_pos ?_
    rw [List.length_replicate]
    decide
  · exact fun hmem => absurd (List.eq_of_mem_replicate hmem) (by decide)
  · rw [String.length_ofList, List.length_replicate]
    decide

end Articles

end Catalogue.Relational
