import Catalogue.Proofs.Document.Row
import Catalogue.Proofs.Parity.Selection
import Catalogue.Proofs.Query.ClosedNames

/-!
What a listing without filter and free text shows of mirrored content. Either side cuts the same page
out of the same pairs, each in the order of its own keys.
-/

namespace Catalogue

open Calendar (Date)

theorem Filter.compileFields_nil (today : Date) (fields : List Field) :
    compileFields today [] fields = .ok [] := by
  induction fields with
  | nil => rfl
  | cons f rest ih => exact ih

theorem Plan.ofRequest_unfiltered (today : Date) (registry : Registry) (settings : Settings)
    (acceptsClauses : Bool) {request : Request} (unfiltered : request.filter = .object []) :
    ofRequest today registry settings acceptsClauses request =
      (Order.compile registry settings.randomSeedLength request.order).map fun sort =>
        { predicates := [], sort } := by
  have hmarker : withoutMarker settings (.object []) = .object [] := by
    unfold withoutMarker
    cases settings.deletedMarker with
    | none => rfl
    | some marker =>
        dsimp only
        split <;> rfl
  have hfilter : compileFilter today registry acceptsClauses (.object []) = .ok [] := by
    cases acceptsClauses with
    | false => exact Filter.compileFields_nil today registry.fields
    | true => exact Filter.compileFields_nil today registry.fields
  unfold ofRequest
  rw [unfiltered, hmarker, hfilter]
  rfl

namespace Parity

open Document (compareDocuments compareValues distinctKeys idPath pathOf rowOf stored
  withTiebreaker)
open Document.Condition (valueAt)
open Relational
open Sorting (atOrBefore byKeys)

def pathKeys (registry : Registry) (ds : List SortDirective) : List (String × Direction) :=
  ds.map fun d => (pathOf registry d.field, d.direction)

/-- The directives that a listing goes by: those of its request or, without any, the registry's. -/
def effective (registry : Registry) (ds : List SortDirective) : List SortDirective :=
  if ds.isEmpty then registry.defaultOrder else ds

/-- Declared fields and the default order name columns, and the identifier is a text. -/
structure NamesColumns (source : Source) : Prop where
  fields : ∀ f ∈ source.registry.fields, ∃ c ∈ source.table.columns, c.name = f.name
  defaultOrder : ∀ d ∈ source.registry.defaultOrder,
    ∃ c ∈ source.table.columns, c.name = d.field
  id : ⟨source.registry.idField, .text⟩ ∈ source.table.columns

/-- Mirrored content under a primary key of texts, in a session that answers. -/
structure Shared (source : Source) (session : Relational.Session) (docs : List Entries)
    (pairs : List (Row × Entries)) : Prop extends
    Mirrored source session.database docs pairs where
  faults : session.faults = []
  keyed : session.database.IsKeyed ⟨source.registry.idField, .text⟩
  ids : ∀ p ∈ pairs, ∃ s, view source p.1 source.registry.idField = .text s

def identifiers (registry : Registry) (outcome : Outcome Page) : Outcome (List Value) :=
  outcome.map fun page => page.rows.map fun row =>
    (Entries.get? row registry.idField).getD .null

def comparedAt (doc doc' : Entries) (path : String) : Ordering :=
  compareValues (valueAt doc path) (valueAt doc' path)

theorem compareDocuments_eq_byKeys (keys : List (String × Direction)) (doc doc' : Entries) :
    compareDocuments keys doc doc' = byKeys (comparedAt doc doc') keys := by
  induction keys with
  | nil => rfl
  | cons k rest ih =>
      rw [Document.compareDocuments_cons, ih]
      rfl

theorem comparedAt_eq_totalOrder {doc doc' : Entries} (flat : Document.IsFlat doc)
    (flat' : Document.IsFlat doc') (path : String) :
    comparedAt (stored doc) (stored doc') path =
      Document.totalOrder (valueAt (stored doc) path) (valueAt (stored doc') path) := by
  unfold comparedAt
  rw [Document.valueAt_stored, Document.valueAt_stored]
  exact Document.compareValues_eq_totalOrder (Document.isFlat_storedValue (flat path))
    (Document.isFlat_storedValue (flat' path)) (Document.isUniversal_storedValue _)
    (Document.isUniversal_storedValue _)

section Draft

variable {source : Source} {ds : List SortDirective}

def sortKeys (source : Source) (ds : List SortDirective) : List SortKey :=
  ds.filterMap fun d =>
    (source.table.column? d.field).map fun column => { column, direction := d.direction }

def idKey (source : Source) : SortKey where
  column := ⟨source.registry.idField, .text⟩
  direction := .ascending
  placesNulls := false

theorem sortKeys_cons {d : SortDirective} {c : Column} (hc : c ∈ source.table.columns)
    (hname : c.name = d.field) : sortKeys source (d :: ds) =
      { column := c, direction := d.direction } :: sortKeys source ds := by
  unfold sortKeys
  rw [List.filterMap_cons, ← hname, Table.column?_name hc]
  rfl

variable (named : ∀ d ∈ ds, ∃ c ∈ source.table.columns, c.name = d.field)
include named

theorem map_sortKeys :
    (sortKeys source ds).map (fun k => (pathOf source.registry k.column.name, k.direction)) =
      pathKeys source.registry ds := by
  induction ds with
  | nil => rfl
  | cons d rest ih =>
      obtain ⟨c, hc, hname⟩ := named d (.head _)
      rw [sortKeys_cons hc hname, List.map_cons, ih fun d hd => named d (.tail _ hd)]
      simp only [hname]
      rfl

theorem length_sortKeys : (sortKeys source ds).length = ds.length := by
  have hlength := congrArg List.length (map_sortKeys named)
  unfold pathKeys at hlength
  rwa [List.length_map, List.length_map] at hlength

theorem ofCalls_directives (unseeded : ∀ d ∈ ds, d.seed = none) :
    Change.ofCalls source (ds.map SortDirective.call) =
      ({ order := sortKeys source ds }, .ok ()) := by
  induction ds with
  | nil => rfl
  | cons d rest ih =>
      obtain ⟨c, hc, hname⟩ := named d (.head _)
      have hcolumn : source.column d.field = .ok c := hname ▸ column_eq hc
      have hcall : Change.ofCall source d.call =
          ({ order := [{ column := c, direction := d.direction }] }, .ok ()) := by
        unfold SortDirective.call
        rw [unseeded d (.head _)]
        simp [Change.ofCall, hcolumn, Change.onColumn]
      rw [List.map_cons, Change.ofCalls, hcall, sortKeys_cons hc hname,
        ih (fun d hd => named d (.tail _ hd))
        fun d hd => unseeded d (.tail _ hd)]
      rfl

theorem sortKeys_isEmpty : (sortKeys source ds).isEmpty = ds.isEmpty := by
  cases ds with
  | nil => rfl
  | cons d rest =>
      obtain ⟨c, hc, hname⟩ := named d (.head _)
      rw [sortKeys_cons hc hname]
      rfl

theorem draft_unfiltered (unseeded : ∀ d ∈ ds, d.seed = none) {request : Request}
    (textless : request.text = none) :
    source.draft (({ predicates := [], sort := ds } : Plan).calls request) =
      .ok { order := sortKeys source ds, offset := request.offset, limit := some request.limit } := by
  unfold Source.draft Plan.calls
  rw [textless, List.map_nil, List.nil_append, Change.ofCalls_append,
    ofCalls_directives named unseeded]
  simp [Change.andThen, Change.ofCalls, Change.ofCall, Change.append, Draft.extend]

end Draft

section Order

variable {source : Source} (names : NamesColumns source) {ds : List SortDirective}
variable (named : ∀ d ∈ ds, ∃ c ∈ source.table.columns, c.name = d.field)
include names

theorem named_effective (named : ∀ d ∈ ds, ∃ c ∈ source.table.columns, c.name = d.field) :
    ∀ d ∈ effective source.registry ds, ∃ c ∈ source.table.columns, c.name = d.field := by
  unfold effective
  split
  · exact names.defaultOrder
  · exact named

include named

theorem fullOrder_eq (offset limit : Option Int) :
    ({ order := sortKeys source ds, offset, limit } : Draft).fullOrder source =
      sortKeys source (effective source.registry ds) ++ [idKey source] := by
  have hid : source.table.column? source.registry.idField =
      some ⟨source.registry.idField, .text⟩ := Table.column?_name names.id
  unfold Draft.fullOrder effective
  dsimp only
  rw [sortKeys_isEmpty named, hid]
  split <;> rfl

theorem map_fullOrder (offset limit : Option Int) :
    (({ order := sortKeys source ds, offset, limit } : Draft).fullOrder source).map
        (fun k => (pathOf source.registry k.column.name, k.direction)) =
      pathKeys source.registry (effective source.registry ds) ++ [(idPath, .ascending)] := by
  rw [fullOrder_eq names named, List.map_append, map_sortKeys (named_effective names named)]
  simp [idKey, pathOf]

theorem mem_fullOrder (offset limit : Option Int) :
    ∀ k ∈ ({ order := sortKeys source ds, offset, limit } : Draft).fullOrder source,
      k.column ∈ source.table.columns := by
  rw [fullOrder_eq names named, List.forall_mem_append]
  constructor
  · intro k hk
    obtain ⟨d, -, hd⟩ := List.mem_filterMap.mp hk
    obtain ⟨c, hc, rfl⟩ := Option.map_eq_some_iff.mp hd
    exact (Table.mem_of_column? hc).1
  · simpa [idKey] using names.id

end Order

namespace Mirrors

variable {source : Source} {row row' : Row} {doc doc' : Entries}

theorem exists_isHeld (h : Mirrors source row doc) (path : String) :
    ∃ type, IsHeld type (valueAt doc path) := by
  by_cases hpath : ∃ c ∈ source.table.columns, pathOf source.registry c.name = path
  · obtain ⟨c, hc, rfl⟩ := hpath
    exact ⟨c.type, h.isHeld c hc⟩
  · have hnull : valueAt doc path = .null := by
      unfold valueAt Entries.get?
      rw [List.find?_eq_none.mpr]
      · exact ite_self _
      · intro e he htext
        obtain ⟨c, hc, hkey⟩ := h.keys e he
        rw [hkey] at htext
        exact hpath ⟨c, hc, by simpa [Value.isText] using htext⟩
    exact ⟨.text, .inl hnull⟩

theorem isFlat (h : Mirrors source row doc) : Document.IsFlat doc := by
  intro path
  obtain ⟨type, hheld⟩ := h.exists_isHeld path
  rcases hheld with hnull | hown
  · rw [hnull]
    exact .null
  · exact hown.isFlat

theorem comparedAt_self (h : Mirrors source row doc) (path : String) :
    comparedAt (stored doc) (stored doc) path = .eq := by
  obtain ⟨type, hheld⟩ := h.exists_isHeld path
  unfold comparedAt
  rw [Document.valueAt_stored, hheld.storedValue_eq]
  exact (hheld.compareValues_eq_eq_iff hheld).mpr rfl

/-- A document holds the identifier at its path alone. -/
theorem not_hasOwn (h : Mirrors source row doc) : ¬Document.HasOwn source.registry doc := by
  rintro ⟨hne, hhas⟩
  obtain ⟨e, he, hname⟩ := List.any_eq_true.mp hhas
  obtain ⟨c, -, hkey⟩ := h.keys e he
  have hpath : pathOf source.registry c.name = source.registry.idField := by
    rw [hkey] at hname
    simpa [Value.isText] using hname
  unfold pathOf at hpath
  split at hpath
  · exact hne hpath.symm
  · rename_i hother
    exact hother hpath

theorem rowOf_shows (h : Mirrors source row doc)
    (hc : ⟨source.registry.idField, .text⟩ ∈ source.table.columns) {s : String}
    (hs : view source row source.registry.idField = .text s) :
    ∃ shown, rowOf source.registry (stored doc) = .ok shown ∧
      (Entries.get? shown source.registry.idField).getD .null = .text s := by
  have hvalue := h.valueAt_stored hc
  dsimp only at hvalue
  rw [hs, pathOf, if_pos rfl, Document.valueAt_eq_text_iff] at hvalue
  have hshown := (Document.get?_idField_shownAs source.registry (stored doc) s).mpr fun hown =>
    absurd ((Document.hasOwn_stored _ doc).mp hown) h.not_hasOwn
  exact ⟨_, Document.rowOf_of_id _ hvalue, by rw [hshown]; rfl⟩

theorem order_cell (h : Mirrors source row doc) (h' : Mirrors source row' doc') {c : Column}
    (hc : c ∈ source.table.columns) :
    (source.table.cell row c).order (source.table.cell row' c) =
      comparedAt (stored doc) (stored doc') (pathOf source.registry c.name) := by
  unfold comparedAt
  rw [h.cell_eq_view hc, h'.cell_eq_view hc, h.valueAt_stored hc, h'.valueAt_stored hc,
    (h.isHeld_view hc).order_cellOf (h'.isHeld_view hc)]

theorem compareRows_eq_byKeys (h : Mirrors source row doc) (h' : Mirrors source row' doc')
    {order : List SortKey} (hcolumns : ∀ k ∈ order, k.column ∈ source.table.columns) :
    Database.compareRows source.table order row row' =
      byKeys (comparedAt (stored doc) (stored doc'))
        (order.map fun k => (pathOf source.registry k.column.name, k.direction)) := by
  induction order with
  | nil => rfl
  | cons k rest ih =>
      rw [Database.compareRows, ih fun k hk => hcolumns k (.tail _ hk),
        h.order_cell h' (hcolumns k (.head _))]
      rfl

end Mirrors

theorem seedOf_eq_none {ds : List SortDirective} (unseeded : ∀ d ∈ ds, d.seed = none) :
    Document.seedOf ds = none := by
  unfold Document.seedOf
  induction ds with
  | nil => rfl
  | cons d rest ih =>
      rw [List.foldl_cons, unseeded d (.head _), Option.none_or]
      exact ih fun d hd => unseeded d (.tail _ hd)

/-- A pipeline sorts by the effective directives, and by the identifier at some place. -/
theorem sort_completed {registry : Registry} {ds : List SortDirective}
    (unseeded : ∀ d ∈ ds, d.seed = none) (request : Request) :
    ((Document.pipelineOf registry { predicates := [], sort := ds } request).completed
      registry).sort = withTiebreaker (pathKeys registry (effective registry ds)) := by
  have hkeys : ds.map (Document.sortKeyOf registry) = pathKeys registry ds := by
    apply List.map_congr_left
    intro d hd
    unfold Document.sortKeyOf
    rw [unseeded d hd]
    rfl
  have hempty : (pathKeys registry ds).isEmpty = ds.isEmpty := by
    cases ds <;> rfl
  change withTiebreaker (if (ds.map (Document.sortKeyOf registry)).isEmpty then
    Document.defaultSort registry else ds.map (Document.sortKeyOf registry)) = _
  rw [hkeys, hempty]
  unfold effective
  split <;> rfl

theorem named_of_compile {source : Source} (names : NamesColumns source) {listing : Listing}
    {order : Value} {ds : List SortDirective} (same : listing.registry = source.registry)
    (hds : Order.compile listing.registry listing.settings.randomSeedLength order = .ok ds)
    (unseeded : ∀ d ∈ ds, d.seed = none) :
    ∀ d ∈ ds, ∃ c ∈ source.table.columns, c.name = d.field := by
  intro d hd
  have hhas := Order.has_of_compile hds d hd (unseeded d hd)
  obtain ⟨f, hf, hname⟩ := Registry.has_iff.mp (same ▸ hhas)
  rw [← hname]
  exact names.fields f hf

/-- Mirrored content in the order of keys. -/
def listedBy (keys : List (String × Direction)) (pairs : List (Row × Entries)) :
    List (Row × Entries) :=
  pairs.mergeSort (atOrBefore fun p q => byKeys (comparedAt (stored p.2) (stored q.2)) keys)

/-- What a page of mirrored content shows of identifiers. -/
def shownIds (source : Source) (request : Request) (listed : List (Row × Entries)) : List Value :=
  (slice request.offset request.limit listed).map fun p =>
    view source p.1 source.registry.idField

theorem identifiers_of_shown {α : Type} {source : Source} {read : α → Except Fault Entries}
    {part : Row × Entries → α} {ps : List (Row × Entries)}
    (hps : ∀ p ∈ ps, ∃ shown, read (part p) = .ok shown ∧
      (Entries.get? shown source.registry.idField).getD .null =
        view source p.1 source.registry.idField) (total : Nat) :
    identifiers source.registry (Page.of read (ps.map part) total) =
      .ok (ps.map fun p => view source p.1 source.registry.idField) := by
  have hrows : ∃ rows : List Entries, (ps.map part).map read = rows.map .ok ∧
      (rows.map fun row => (Entries.get? row source.registry.idField).getD .null) =
        ps.map fun p => view source p.1 source.registry.idField := by
    induction ps with
    | nil => exact ⟨[], rfl, rfl⟩
    | cons p rest ih =>
        obtain ⟨shown, hshown, hid⟩ := hps p (.head _)
        obtain ⟨rows, hrows, hids⟩ := ih fun q hq => hps q (.tail _ hq)
        refine ⟨shown :: rows, ?_, ?_⟩
        · rw [List.map_cons, List.map_cons, hshown, hrows, List.map_cons]
        · rw [List.map_cons, hid, hids, List.map_cons]
  obtain ⟨rows, hrows, hids⟩ := hrows
  have hpage : Page.of read (ps.map part) total = .ok { rows, total } :=
    Page.of_eq_ok_iff.mpr ⟨hrows, rfl⟩
  rw [hpage, ← hids]
  rfl

namespace Shared

variable {source : Source} {session : Relational.Session} {docs : List Entries}
variable {pairs : List (Row × Entries)} (h : Shared source session docs pairs)
variable (names : NamesColumns source)
include h

theorem flat : ∀ doc ∈ docs, Document.IsFlat doc := by
  intro doc hdoc
  obtain ⟨p, hp, rfl⟩ := List.mem_map.mp (h.docs_perm.symm.subset hdoc)
  exact (h.mirrors p hp).isFlat

include names

theorem pairwise_ids :
    pairs.Pairwise fun p q => comparedAt (stored p.2) (stored q.2) idPath ≠ .eq := by
  have hkept : ∀ row ∈ session.database.rows,
      (source.table.cell row ⟨source.registry.idField, .text⟩).IsKept := by
    intro row hrow
    exact Table.isKept_cell (h.keyed.kept row hrow) _
  have hstored : session.database.rows.Pairwise fun a b =>
      Cell.totalOrder (source.table.cell a ⟨source.registry.idField, .text⟩)
        (source.table.cell b ⟨source.registry.idField, .text⟩) ≠ .eq := by
    refine h.keyed.unique.imp_of_mem ?_
    intro a b ha hb hne
    rw [h.table_eq] at hne
    rwa [← Cell.order_eq_totalOrder (hkept a ha) (hkept b hb)]
  have hrows := (h.rows_perm.pairwise_iff fun hne => by
    rwa [ne_eq, @Std.OrientedCmp.eq_comm _ Cell.totalOrder]).mpr (hstored.filter _)
  rw [List.pairwise_map] at hrows
  refine hrows.imp_of_mem ?_
  intro p q hp hq hne
  have hmem : ∀ p ∈ pairs, p.1 ∈ session.database.rows := by
    intro p hp
    exact List.filter_sublist.subset (h.rows_perm.subset (List.mem_map_of_mem hp))
  rw [← Cell.order_eq_totalOrder (hkept p.1 (hmem p hp)) (hkept q.1 (hmem q hq)),
    (h.mirrors p hp).order_cell (h.mirrors q hq) names.id] at hne
  rwa [pathOf, if_pos rfl] at hne

theorem hasIds : Document.HasIds docs := by
  have htotal : ∀ a ∈ docs, ∀ b ∈ docs, comparedAt (stored a) (stored b) idPath =
      Document.totalOrder (valueAt (stored a) idPath) (valueAt (stored b) idPath) := by
    intro a ha b hb
    exact comparedAt_eq_totalOrder (h.flat a ha) (h.flat b hb) idPath
  have hmem : ∀ p ∈ pairs, p.2 ∈ docs := by
    intro p hp
    exact h.docs_perm.subset (List.mem_map_of_mem hp)
  have hpairs : (pairs.map Prod.snd).Pairwise fun a b =>
      Document.totalOrder (valueAt (stored a) idPath) (valueAt (stored b) idPath) ≠ .eq := by
    rw [List.pairwise_map]
    refine (h.pairwise_ids names).imp_of_mem ?_
    intro p q hp hq hne
    rwa [← htotal p.2 (hmem p hp) q.2 (hmem q hq)]
  have hdocs := (h.docs_perm.pairwise_iff fun hne => by
    rwa [ne_eq, @Std.OrientedCmp.eq_comm _ Document.totalOrder]).mp hpairs
  unfold Document.HasIds
  rw [List.pairwise_map]
  refine hdocs.imp_of_mem ?_
  intro a b ha hb hne
  rwa [← htotal a ha b hb] at hne

theorem eq_of_same_id : ∀ p ∈ pairs, ∀ q ∈ pairs,
    comparedAt (stored p.2) (stored q.2) idPath = .eq → p = q := by
  refine Sorting.OrdersOn.eq_of_tie (h.pairwise_ids names)
    ⟨fun p q => Document.totalOrder (valueAt (stored p.2) idPath) (valueAt (stored q.2) idPath),
      Sorting.transCmp_comap (fun p : Row × Entries => valueAt (stored p.2) idPath) _, ?_⟩
  exact fun p hp q hq =>
    comparedAt_eq_totalOrder (h.mirrors p hp).isFlat (h.mirrors q hq).isFlat idPath

/-- The mirrored rows as a draft sorts them. -/
theorem sorted_rows {ds : List SortDirective}
    (named : ∀ d ∈ ds, ∃ c ∈ source.table.columns, c.name = d.field) :
    (pairs.map Prod.fst).mergeSort (atOrBefore (Database.compareRows session.database.table
        (({ order := sortKeys source ds } : Draft).fullOrder source))) =
      (listedBy (pathKeys source.registry (effective source.registry ds) ++
        [(idPath, .ascending)]) pairs).map Prod.fst := by
  unfold listedBy
  rw [h.table_eq]
  refine (List.map_mergeSort ?_).symm
  intro p hp q hq
  unfold atOrBefore
  rw [(h.mirrors p hp).compareRows_eq_byKeys (h.mirrors q hq) (mem_fullOrder names named _ _),
    map_fullOrder names named]

/-- The documents as a pipeline without conditions sorts them. -/
theorem listed_documents {p : Document.Pipeline} (unconditional : p.conditions = [])
    (hid : idPath ∈ p.sort.map Prod.fst) :
    p.listed docs = (listedBy (distinctKeys p.sort) pairs).map fun p => stored p.2 := by
  rw [← p.listed_eq_of_perm h.flat (h.hasIds names) hid h.docs_perm]
  unfold Document.Pipeline.listed Document.matching listedBy
  rw [unconditional, List.map_map]
  simp only [List.all_nil, List.filter_true]
  refine (List.map_mergeSort ?_).symm
  intro p _ q _
  rw [atOrBefore, ← compareDocuments_eq_byKeys]
  rfl

theorem takes_ordered {ds : List SortDirective}
    (named : ∀ d ∈ ds, ∃ c ∈ source.table.columns, c.name = d.field)
    (fits : ds.length < maxSortKeys) {offset : Option Int} {limit : Int}
    (admits : Admits offset limit) :
    session.Takes (({ order := sortKeys source ds, offset, limit := some limit } :
      Draft).selection source) where
  undisturbed := by simp [Relational.Session.next, h.faults]
  present := h.present
  limited := by
    refine Draft.isWithinLimits_of_few (by simp) (by simp) (Nat.zero_le _) ?_
    have hdefault : (sortKeys source source.registry.defaultOrder).length < maxSortKeys := h.ordered
    have hchosen := length_sortKeys named
    rw [fullOrder_eq names named, List.length_append, List.length_singleton]
    unfold effective
    split <;> omega
  bindable _ hc := isBindable_of_mem_markerConditions hc
  sendable := ⟨admits.limit_isSendable, admits.offset_isSendable⟩
  tried := session.database.triesTooLong_eq_false (Draft.isShort_allConditions (by simp))

section Outcome

variable {listing : Listing} {request : Request} {ds : List SortDirective}
variable (unfiltered : request.filter = .object []) (textless : request.text = none)
variable (unseeded : ∀ d ∈ ds, d.seed = none)
variable (hds : Order.compile listing.registry listing.settings.randomSeedLength request.order =
  .ok ds)
variable (admits : Admits request.offset request.limit)
include unfiltered textless unseeded hds admits

omit h admits in
theorem draftOf_ordered (same : listing.registry = source.registry) :
    draftOf listing source request =
      .ok { order := sortKeys source ds, offset := request.offset, limit := some request.limit } := by
  unfold draftOf
  rw [Plan.ofRequest_unfiltered _ _ _ _ unfiltered, hds]
  exact draft_unfiltered (named_of_compile names same hds unseeded) unseeded textless

theorem rows_identifiers (same : listing.registry = source.registry)
    (fits : ds.length < maxSortKeys) :
    identifiers source.registry (listing.fetch (Relational.adapter source) { session } request).2 =
      .ok (shownIds source request (listedBy
        (pathKeys source.registry (effective source.registry ds) ++ [(idPath, .ascending)])
        pairs)) := by
  have named := named_of_compile names same hds unseeded
  have hkey : source.table.column? source.registry.idField =
      some ⟨source.registry.idField, .text⟩ := Table.column?_name names.id
  have hdraft := draftOf_ordered names unfiltered textless unseeded hds same
  have takes := h.takes_ordered names named fits admits
  have hshown := Draft.page_withRows (d := { order := sortKeys source ds }) hkey h.keyed
    (.refl session.database.rows) request.offset admits.isPage.limit_pos
  have hperm : (pairs.map Prod.fst).Perm (session.database.selected
      (({ order := sortKeys source ds } : Draft).allConditions source)) := by
    have hall : (pairs.filter fun p => session.database.isSelected [] p.1) = pairs := by
      simp [Database.isSelected]
    have hselected := (h.selected_perm []).symm
    rwa [hall] at hselected
  -- The mirrored rows are another list of the matches, and sort to the same list.
  have hlisted := h.keyed.mergeSort_eq_listed
    (({ order := sortKeys source ds } : Draft).key_mem_fullOrder hkey) _ hperm
  have hfetch : (listing.fetch (Relational.adapter source) { session } request).2 =
      Draft.page source (session.withRows session.database.rows)
        { order := sortKeys source ds, offset := request.offset, limit := some request.limit } := by
    rw [fetch_eq_outcome, hdraft]
    exact Draft.outcome_of_takes takes
  rw [hfetch, hshown, ← hlisted, h.sorted_rows names named, map_slice]
  refine identifiers_of_shown ?_ _
  intro p hp
  have hmem : p ∈ pairs := (List.mergeSort_perm _ _).subset (mem_of_mem_slice hp)
  exact ⟨_, Table.readRow_eq_ok_iff.mpr ⟨(h.mirrors p hmem).isReadable, rfl⟩, rfl⟩

/-- An order of more keys than an engine takes is rejected. -/
theorem rows_rejected (same : listing.registry = source.registry)
    (exceeds : maxSortKeys ≤ ds.length) :
    (listing.fetch (Relational.adapter source) { session } request).2 = .error .queryRejected := by
  have named := named_of_compile names same hds unseeded
  rw [fetch_eq_outcome, draftOf_ordered names unfiltered textless unseeded hds same]
  refine Draft.outcome_of_unlimited h.faults (fun _ hc => isBindable_of_mem_markerConditions hc)
    ⟨admits.limit_isSendable, admits.offset_isSendable⟩ ?_
  rw [← Bool.not_eq_true, Statement.isWithinLimits_iff]
  rintro ⟨-, -, hordered⟩
  change (Draft.fullOrder source _).length ≤ maxSortKeys at hordered
  have hne : ds.isEmpty = false := by
    cases ds with
    | nil => cases exceeds
    | cons d rest => rfl
  rw [fullOrder_eq names named, effective, hne, if_neg Bool.false_ne_true, List.length_append,
    length_sortKeys named, List.length_singleton] at hordered
  omega

theorem documents_identifiers :
    identifiers source.registry (listing.fetch (Document.adapter source.registry)
        { collection := .documents docs } request).2 =
      .ok (shownIds source request (listedBy
        (distinctKeys (withTiebreaker (pathKeys source.registry (effective source.registry ds))))
        pairs)) := by
  have hpipeline : Document.pipelineFor listing source.registry request =
      .ok (Document.pipelineOf source.registry { predicates := [], sort := ds } request) := by
    unfold Document.pipelineFor
    rw [Plan.ofRequest_unfiltered _ _ _ _ unfiltered, hds]
    rfl
  have htext : (Document.pipelineOf source.registry { predicates := [], sort := ds }
      request).text = none := by
    change request.text.bind _ = none
    rw [textless]
    rfl
  have hseed : (Document.pipelineOf source.registry { predicates := [], sort := ds }
      request).seed = none := seedOf_eq_none unseeded
  have hsort : ((Document.pipelineOf source.registry { predicates := [], sort := ds }
      request).completed source.registry).sort =
        withTiebreaker (pathKeys source.registry (effective source.registry ds)) :=
    sort_completed unseeded request
  rw [Document.fetch_outcome docs hpipeline htext hseed]
  generalize hp : (Document.pipelineOf source.registry { predicates := [], sort := ds }
    request).completed source.registry = p at hsort
  have hbounds : p.conditions = [] ∧ p.offset = request.offset ∧ p.limit = some request.limit := by
    rw [← hp]
    exact ⟨rfl, rfl, rfl⟩
  have hid : idPath ∈ p.sort.map Prod.fst := hsort ▸ Document.idPath_mem_withTiebreaker _
  unfold Document.Pipeline.outcome
  dsimp only
  rw [Document.Pipeline.page_eq_slice docs (hbounds.2.1 ▸ admits.isPage) hbounds.2.2, hbounds.2.1,
    h.listed_documents names hbounds.1 hid, hsort, map_slice]
  refine identifiers_of_shown ?_ _
  intro p hp
  have hmem : p ∈ pairs := (List.mergeSort_perm _ _).subset (mem_of_mem_slice hp)
  obtain ⟨s, hs⟩ := h.ids p hmem
  rw [hs]
  exact (h.mirrors p hmem).rowOf_shows names.id hs

end Outcome

end Shared

end Parity

end Catalogue
