import Catalogue.Proofs.Parity.Mirror
import Catalogue.Proofs.Store.Paging

/-!
What a run selects on either side of mirrored content. Calls that express a meaning in a table select
the live rows that have it, and conditions that find it in documents select their mirror images.
-/

namespace Catalogue.Parity

open Document (pathOf rowOf stored)
open Document.Condition (valueAt)
open Relational

/-- The value of a field in a row, as the adapter shows it. -/
def view (source : Source) (row : Row) (field : String) : Value :=
  (Entries.get? (source.table.rowValues row) field).getD .null

theorem column_eq {source : Source} {c : Column} (hc : c ∈ source.table.columns) :
    source.column c.name = .ok c := by
  unfold Source.column
  rw [Table.column?_name hc]

theorem onColumn_eq {source : Source} {c : Column} (hc : c ∈ source.table.columns)
    (f : Column → Change) : Change.onColumn (source.column c.name) f = (f c, .ok ()) := by
  rw [column_eq hc, Change.onColumn]

theorem get?_rowValues (t : Table) (row : Row) (name : String) :
    Entries.get? (t.rowValues row) name =
      ((t.columns.zip row).find? fun entry => entry.1.name == name).map fun entry =>
        cellValue entry.1.type entry.2 := by
  unfold Entries.get? Table.rowValues
  rw [List.find?_map, Option.map_map]
  rfl

namespace Mirrors

variable {source : Source} {row : Row} {doc : Entries} {c : Column}

theorem view_eq (h : Mirrors source row doc) (hc : c ∈ source.table.columns) :
    view source row c.name = valueAt doc (pathOf source.registry c.name) := by
  have hcell := h.cell_eq c hc
  have hheld := h.isHeld c hc
  unfold view
  rw [get?_rowValues]
  unfold Table.cell at hcell
  cases hfind : (source.table.columns.zip row).find? fun entry => entry.1.name == c.name with
  | none =>
      rw [hfind] at hcell
      have hnull : (cellOf (valueAt doc (pathOf source.registry c.name))).isNull = true := by
        rw [← hcell]
        rfl
      exact (hheld.isNull_cellOf.mp hnull).symm
  | some entry =>
      rw [hfind] at hcell
      have hname : entry.1.name = c.name := by simpa using List.find?_some hfind
      have hmem := (List.of_mem_zip (List.mem_of_find?_eq_some hfind)).1
      have hown : entry.1 = c := by
        have hfound := Table.column?_name hmem
        rw [hname, Table.column?_name hc] at hfound
        exact (Option.some.inj hfound).symm
      change cellValue entry.1.type entry.2 = _
      change entry.2 = _ at hcell
      rw [hown, hcell, hheld.cellValue_cellOf]

theorem isHeld_view (h : Mirrors source row doc) (hc : c ∈ source.table.columns) :
    IsHeld c.type (view source row c.name) := by
  rw [h.view_eq hc]
  exact h.isHeld c hc

theorem cell_eq_view (h : Mirrors source row doc) (hc : c ∈ source.table.columns) :
    source.table.cell row c = cellOf (view source row c.name) := by
  rw [h.view_eq hc]
  exact h.cell_eq c hc

theorem isReadable (h : Mirrors source row doc) : source.table.IsReadable row := by
  intro entry hentry
  have hc := (List.of_mem_zip hentry).1
  rw [← Table.cell_of_mem_zip hentry, h.cell_eq entry.1 hc]
  exact (h.isHeld entry.1 hc).readFault?_cellOf

theorem valueAt_stored (h : Mirrors source row doc) (hc : c ∈ source.table.columns) :
    valueAt (stored doc) (pathOf source.registry c.name) = view source row c.name := by
  rw [Document.valueAt_stored, (h.isHeld c hc).storedValue_eq, h.view_eq hc]

end Mirrors

def isLive (source : Source) (row : Row) : Bool :=
  source.markerColumn?.all fun c => (source.table.cell row c).isNull

/-- The name of a field of its own: one with a dot leads into an object, and one with a dollar sign in
front is an operator. -/
def IsFieldName (name : String) : Prop :=
  '.' ∉ name.toList ∧ name.toList.head? ≠ some '$'

instance (name : String) : Decidable (IsFieldName name) :=
  inferInstanceAs (Decidable ('.' ∉ name.toList ∧ name.toList.head? ≠ some '$'))

theorem isInner_pathOf {registry : Registry} {name : String} (h : IsFieldName name) :
    Document.Condition.isInner (pathOf registry name) = false := by
  unfold pathOf
  split
  · decide
  · exact Bool.eq_false_iff.mpr (mt List.contains_iff_mem.mp h.1)

/-- A table and a collection with the same content: the live rows and the documents in pairs that
mirror each other. -/
structure Mirrored (source : Source) (db : Database) (docs : List Entries)
    (pairs : List (Row × Entries)) : Prop where
  table_eq : db.table = source.table
  present : db.dropped = false
  rows_perm : (pairs.map Prod.fst).Perm (db.rows.filter (isLive source))
  docs_perm : (pairs.map Prod.snd).Perm docs
  mirrors : ∀ p ∈ pairs, Mirrors source p.1 p.2
  names : ∀ c ∈ source.table.columns, IsFieldName c.name
  /-- The identifier is a column. -/
  hasId : ∃ c ∈ source.table.columns, c.name = source.registry.idField
  /-- The default order is one that an engine takes. -/
  ordered : source.defaultOrder.length < maxSortKeys

/-- The outcome shows the rows of the pairs, in some order, and counts them. -/
def ShowsRows (source : Source) (chosen : List (Row × Entries)) (outcome : Outcome Page) : Prop :=
  ∃ page, outcome = .ok page ∧
    page.rows.Perm (chosen.map fun p => source.table.rowValues p.1) ∧ page.total = chosen.length

/-- The outcome shows the documents of the pairs, in some order, and counts them. -/
def ShowsDocuments (registry : Registry) (chosen : List (Row × Entries))
    (outcome : Outcome Page) : Prop :=
  ∃ page, outcome = .ok page ∧
    (page.rows.map .ok).Perm (chosen.map fun p => rowOf registry (stored p.2)) ∧
      page.total = chosen.length

/-- Calls add conditions that can be sent and that say, of a mirrored row, what is meant. -/
structure Expresses (source : Source) (calls : List Call) (conditions : List Relational.Condition)
    (meaning : (String → Value) → Prop) : Prop where
  ofCalls_eq : Change.ofCalls source calls = ({ conditions }, .ok ())
  isBindable : ∀ c ∈ conditions, IsBindable c
  isShort : ∀ c ∈ conditions, ∀ a ∈ c, a.isTooLong = false
  holds_iff : ∀ {row doc}, Mirrors source row doc →
    ((∀ c ∈ conditions, c.holds source.table row = true) ↔ meaning (view source row))

theorem Expresses.nil (source : Source) : Expresses source [] [] fun _ => True where
  ofCalls_eq := rfl
  isBindable := by simp
  isShort := by simp
  holds_iff := by simp

theorem Expresses.append {source : Source} {calls calls' : List Call}
    {conditions conditions' : List Relational.Condition} {meaning meaning' : (String → Value) → Prop}
    (h : Expresses source calls conditions meaning)
    (h' : Expresses source calls' conditions' meaning') :
    Expresses source (calls ++ calls') (conditions ++ conditions') fun value =>
      meaning value ∧ meaning' value where
  ofCalls_eq := by
    rw [Change.ofCalls_append, h.ofCalls_eq, h'.ofCalls_eq]
    rfl
  isBindable := List.forall_mem_append.mpr ⟨h.isBindable, h'.isBindable⟩
  isShort := List.forall_mem_append.mpr ⟨h.isShort, h'.isShort⟩
  holds_iff hm := by
    rw [List.forall_mem_append, h.holds_iff hm, h'.holds_iff hm]

/-- The conditions that leave deleted rows out. -/
def markerConditions (source : Source) : List Relational.Condition :=
  source.markerColumn?.toList.map fun c => [.isNull c]

theorem isBindable_of_mem_markerConditions {source : Source} {c : Relational.Condition}
    (h : c ∈ markerConditions source) : IsBindable c := by
  obtain ⟨column, -, rfl⟩ := List.mem_map.mp h
  exact ⟨[], [], rfl, rfl⟩

theorem isSelected_append_marker {source : Source} {db : Database} (htable : db.table = source.table)
    (conditions : List Relational.Condition) (row : Row) :
    db.isSelected (conditions ++ markerConditions source) row =
      (db.isSelected conditions row && isLive source row) := by
  have hmarker : db.isSelected (markerConditions source) row = isLive source row := by
    unfold Database.isSelected markerConditions isLive
    rw [htable]
    cases source.markerColumn? with
    | none => rfl
    | some c => simp [Relational.Condition.holds, Atom.holds, Atom.column]
  rw [← hmarker]
  exact List.all_append

theorem Mirrored.selected_perm {source : Source} {db : Database} {docs : List Entries}
    {pairs : List (Row × Entries)} (hm : Mirrored source db docs pairs)
    (conditions : List Relational.Condition) :
    (db.selected (conditions ++ markerConditions source)).Perm
      ((pairs.filter fun p => db.isSelected conditions p.1).map Prod.fst) := by
  have hlive : db.selected (conditions ++ markerConditions source) =
      (db.rows.filter (isLive source)).filter (db.isSelected conditions) := by
    rw [List.filter_filter]
    exact List.filter_congr fun row _ => isSelected_append_marker hm.table_eq conditions row
  have hpairs : (pairs.filter fun p => db.isSelected conditions p.1).map Prod.fst =
      (pairs.map Prod.fst).filter (db.isSelected conditions) := by
    rw [List.filter_map]
    rfl
  rw [hlive, hpairs]
  exact (hm.rows_perm.filter _).symm

section Expresses

variable {source : Source} {calls : List Call} {conditions : List Relational.Condition}
variable {meaning : (String → Value) → Prop} (h : Expresses source calls conditions meaning)
include h

theorem Expresses.draft_eq : source.draft calls = .ok (({} : Draft).extend { conditions }) := by
  unfold Source.draft
  rw [h.ofCalls_eq]

theorem Expresses.isBindable_allConditions :
    ∀ c ∈ (({} : Draft).extend { conditions }).allConditions source, IsBindable c :=
  List.forall_mem_append.mpr ⟨h.isBindable, fun _ => isBindable_of_mem_markerConditions⟩

omit h in
theorem isSendable_conditions (conditions : List Relational.Condition) :
    IsSendable (({} : Draft).extend { conditions }).limit ∧
      IsSendable (({} : Draft).extend { conditions }).offset := by
  change IsSendable none ∧ IsSendable none
  simp [IsSendable]

variable {session : Relational.Session} (faults : session.faults = [])
include faults

/-- Within the limits a session without faults takes calls that express something. -/
theorem Expresses.takes (present : session.database.dropped = false)
    (limited : source.IsLimited calls) :
    session.Takes ((({} : Draft).extend { conditions }).selection source) where
  undisturbed := by simp [Relational.Session.next, faults]
  present := present
  limited := limited _ h.draft_eq
  bindable := h.isBindable_allConditions
  sendable := isSendable_conditions conditions
  tried := session.database.triesTooLong_eq_false (Draft.isShort_allConditions h.isShort)

/-- Beyond the limits it rejects them. -/
theorem Expresses.rejected (unlimited : ¬source.IsLimited calls) :
    ((Relational.adapter source).run { session } calls).2 = .error .queryRejected := by
  have hbeyond : (Statement.page
      ((({} : Draft).extend { conditions }).selection source)).isWithinLimits = false := by
    rw [← Bool.not_eq_true]
    intro hlimited
    refine unlimited fun d hd => ?_
    rw [h.draft_eq] at hd
    rwa [← Except.ok.inj hd]
  rw [adapter_run_eq_outcome, h.draft_eq]
  exact Draft.outcome_of_unlimited faults h.isBindable_allConditions
    (isSendable_conditions conditions) hbeyond

open Classical in
/-- A run of calls shows the rows of which their meaning is true. -/
theorem Expresses.showsRows {docs : List Entries} {pairs : List (Row × Entries)}
    (hm : Mirrored source session.database docs pairs) (limited : source.IsLimited calls) :
    ShowsRows source (pairs.filter fun p => meaning (view source p.1))
      ((Relational.adapter source).run { session } calls).2 := by
  have hdraft := h.draft_eq
  have takes := h.takes faults hm.present limited
  generalize hd : ({} : Draft).extend { conditions } = d at hdraft takes
  have hall : d.allConditions source = conditions ++ markerConditions source := by
    rw [← hd]
    rfl
  have hmeaning : (pairs.filter fun p => session.database.isSelected conditions p.1) =
      pairs.filter fun p => meaning (view source p.1) := by
    apply List.filter_congr
    intro p hp
    rw [Bool.eq_iff_iff, decide_eq_true_eq, ← h.holds_iff (hm.mirrors p hp)]
    unfold Database.isSelected
    rw [List.all_eq_true, hm.table_eq]
  have hselected := hm.selected_perm conditions
  rw [hmeaning, ← hall] at hselected
  -- No call of this kind sets a page, so all that is selected is shown.
  have hbounds : d.limit = none ∧ d.offset = none := by
    rw [← hd]
    exact ⟨rfl, rfl⟩
  have hperm : (session.database.select (d.selection source)).Perm
      ((pairs.filter fun p => meaning (view source p.1)).map Prod.fst) :=
    (Database.select_perm hbounds.1 hbounds.2).trans hselected
  have readable : ∀ row ∈ session.database.select (d.selection source),
      source.table.IsReadable row := by
    intro row hrow
    obtain ⟨p, hp, rfl⟩ := List.mem_map.mp (hperm.subset hrow)
    exact (hm.mirrors p (List.mem_filter.mp hp).1).isReadable
  have hrun : ((Relational.adapter source).run { session } calls).2 = d.page source session := by
    rw [adapter_run_eq_outcome, hdraft]
    exact Draft.outcome_of_takes takes
  rw [Draft.page_of_readable readable] at hrun
  refine ⟨_, hrun, ?_, ?_⟩
  · have hrows := hperm.map source.table.rowValues
    rw [List.map_map] at hrows
    exact hrows
  · rw [← List.length_map (f := Prod.fst), ← hselected.length_eq]

end Expresses

theorem Mirrors.exists_rowOf {source : Source} {row : Row} {doc : Entries}
    (h : Mirrors source row doc)
    (hasId : ∃ c ∈ source.table.columns, c.name = source.registry.idField) :
    ∃ shown, rowOf source.registry (stored doc) = .ok shown := by
  obtain ⟨c, hc, hid⟩ := hasId
  have hvalue := h.valueAt_stored hc
  have hheld := h.isHeld_view hc
  rw [hid, pathOf, if_pos rfl] at hvalue
  unfold rowOf
  cases hget : (stored doc).get? Document.idPath with
  | none => exact ⟨_, rfl⟩
  | some id =>
      have hview : view source row source.registry.idField = id := by
        change (Entries.get? (stored doc) Document.idPath).getD .null = _ at hvalue
        rw [← hvalue, hget, Option.getD_some]
      rw [hid, hview] at hheld
      have htext : id.text?.isSome = true := by
        rcases hheld with rfl | hown
        · rfl
        · exact hown.isSome_text?
      obtain ⟨s, hs⟩ := Option.isSome_iff_exists.mp htext
      dsimp only
      rw [hs]
      exact ⟨_, rfl⟩

open Classical in
theorem Mirrored.matching_perm {source : Source} {db : Database} {docs : List Entries}
    {pairs : List (Row × Entries)} (hm : Mirrored source db docs pairs)
    {conditions : List Document.Condition} {meaning : (String → Value) → Prop}
    (holds_iff : ∀ {row doc}, Mirrors source row doc →
      ((∀ c ∈ conditions, Document.Condition.holds (stored doc) c = true) ↔
        meaning (view source row))) :
    (Document.matching conditions (docs.map stored)).Perm
      ((pairs.filter fun p => meaning (view source p.1)).map fun p => stored p.2) := by
  have hfilter : (pairs.filter fun p => meaning (view source p.1)).map (fun p => stored p.2) =
      Document.matching conditions ((pairs.map Prod.snd).map stored) := by
    unfold Document.matching
    rw [List.map_map, List.filter_map]
    congr 1
    apply List.filter_congr
    intro p hp
    rw [Bool.eq_iff_iff, decide_eq_true_eq, ← holds_iff (hm.mirrors p hp)]
    simp only [Function.comp_apply, List.all_eq_true]
  rw [hfilter]
  exact (hm.docs_perm.symm.map stored).filter _

open Classical in
/-- A run that adds conditions shows the documents in which they find what is meant. -/
theorem showsDocuments {source : Source} {db : Database} {calls : List Call}
    {conditions : List Document.Condition} {meaning : (String → Value) → Prop}
    {docs : List Entries} {pairs : List (Row × Entries)} (hm : Mirrored source db docs pairs)
    (hadd : ({} : Document.Pipeline).addAll source.registry calls = { conditions })
    (holds_iff : ∀ {row doc}, Mirrors source row doc →
      ((∀ c ∈ conditions, Document.Condition.holds (stored doc) c = true) ↔
        meaning (view source row))) :
    ShowsDocuments source.registry (pairs.filter fun p => meaning (view source p.1))
      ((Document.adapter source.registry).run { collection := .documents docs } calls).2 := by
  have hmatching := hm.matching_perm holds_iff
  have hshown :=
    ((({ conditions } : Document.Pipeline).completed source.registry).listed_perm docs).trans
      hmatching
  obtain ⟨rows, hrows⟩ := exists_map_ok (f := rowOf source.registry) (by
    intro doc hdoc
    obtain ⟨p, hp, rfl⟩ := List.mem_map.mp (hshown.subset hdoc)
    exact (hm.mirrors p (List.mem_filter.mp hp).1).exists_rowOf hm.hasId)
  refine ⟨{ rows, total := (Document.matching conditions (docs.map stored)).length }, ?_, ?_, ?_⟩
  · rw [Document.adapter_run_outcome hadd rfl rfl]
    exact Page.of_eq_ok_iff.mpr ⟨hrows, rfl⟩
  · have hperm := hshown.map (rowOf source.registry)
    rw [hrows, List.map_map] at hperm
    exact hperm
  · rw [hmatching.length_eq, List.length_map]

section Articles

def untitled (id : String) : Row × Entries :=
  ([.text id, .null], [(.text "_id", .text id)])

theorem mirrors_untitled (id : String) :
    Mirrors articleSource (untitled id).1 (untitled id).2 where
  cell_eq := by
    change ∀ c ∈ [_, _], _
    simp only [List.forall_mem_cons]
    exact ⟨rfl, rfl, by simp⟩
  isHeld := by
    change ∀ c ∈ [_, _], _
    simp only [List.forall_mem_cons]
    exact ⟨.inr (.text id), .inl rfl, by simp⟩
  keys := by
    change ∀ e ∈ [_], _
    simp only [List.forall_mem_singleton]
    exact ⟨⟨"id", .text⟩, .head _, rfl⟩

def titled (id title : String) : Row × Entries :=
  ([.text id, .text title], [(.text "_id", .text id), (.text "title", .text title)])

theorem mirrors_titled (id title : String) :
    Mirrors articleSource (titled id title).1 (titled id title).2 where
  cell_eq := by
    change ∀ c ∈ [_, _], _
    simp only [List.forall_mem_cons]
    exact ⟨rfl, rfl, by simp⟩
  isHeld := by
    change ∀ c ∈ [_, _], _
    simp only [List.forall_mem_cons]
    exact ⟨.inr (.text id), .inr (.text title), by simp⟩
  keys := by
    change ∀ e ∈ [_, _], _
    simp only [List.forall_mem_cons]
    exact ⟨⟨⟨"id", .text⟩, .head _, rfl⟩, ⟨⟨"title", .text⟩, .tail _ (.head _), rfl⟩, by simp⟩

end Articles

end Catalogue.Parity
