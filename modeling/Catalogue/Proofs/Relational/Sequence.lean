import Catalogue.Proofs.Parity.Listing
import Catalogue.Proofs.Relational.Content
import Catalogue.Proofs.Store.Rearrangement

/-!
The sequence in which a table's rows are shown: by the fields that the request asks for, or else by
the default ones, and at last by the identifier.
-/

namespace Catalogue

namespace Order

variable {registry : Registry} {seedLength : Int}

/-- An order without its entries for a random one. -/
def withoutRandom : Value → Value :=
  without (· == randomField)

/-- What an entry asks for, unless that is a random order. -/
def asked? (registry : Registry) (e : String × Value) : Option SortDirective :=
  if e.1 = randomField ∨ registry.has e.1 = false then none
  else (Direction.ofValue? e.2).map fun direction => { field := e.1, direction }

theorem isRandom_of_asked? {e : String × Value} {d : SortDirective}
    (h : asked? registry e = some d) : d.isRandom = false := by
  unfold asked? at h
  split at h
  · cases h
  · obtain ⟨direction, -, rfl⟩ := Option.map_eq_some_iff.mp h
    rfl

theorem directive?_cases {e : String × Value} {first : Option SortDirective}
    (h : directive? registry seedLength e.1 e.2 = .ok first) :
    (e.1 = randomField ∧ asked? registry e = none ∧ ∀ d ∈ first, d.isRandom = true) ∨
      (e.1 ≠ randomField ∧ first = asked? registry e) := by
  unfold directive? at h
  unfold asked?
  by_cases hrandom : e.1 = randomField
  · rw [if_pos hrandom] at h
    refine .inl ⟨hrandom, if_pos (.inl hrandom), ?_⟩
    split at h
    · cases h
      intro d hd
      split at hd
      · cases hd
      · cases hd
        rfl
    · cases h
  · rw [if_neg hrandom] at h
    refine .inr ⟨hrandom, ?_⟩
    cases hhas : registry.has e.1 with
    | false =>
        rw [hhas] at h
        cases h
        exact (if_pos (.inr rfl)).symm
    | true =>
        rw [hhas] at h
        cases h
        simp [hrandom]

/-- The directives that are not random are what the entries ask for, with the random ones among them
or without. -/
theorem directives_unseeded {es : List (String × Value)} {ds : List SortDirective}
    (h : directives registry seedLength es = .ok ds) :
    ds.filter (fun d => !d.isRandom) = es.filterMap (asked? registry) ∧
      directives registry seedLength (es.filter fun e => !(e.1 == randomField)) =
        .ok (ds.filter fun d => !d.isRandom) := by
  induction es generalizing ds with
  | nil =>
      cases h
      exact ⟨rfl, rfl⟩
  | cons e rest ih =>
      obtain ⟨first, hfirst, h⟩ := Outcome.bind_eq_ok_iff.mp h
      obtain ⟨others, hothers, h⟩ := Outcome.bind_eq_ok_iff.mp h
      cases h
      obtain ⟨hasked, hdropped⟩ := ih hothers
      rw [List.filter_append, List.filterMap_cons, List.filter_cons]
      rcases directive?_cases hfirst with ⟨hrandom, hnone, hseeded⟩ | ⟨hother, rfl⟩
      · have hgone : first.toList.filter (fun d => !d.isRandom) = [] := by
          rw [List.filter_eq_nil_iff]
          intro d hd
          simp [hseeded d (Option.mem_toList.mp hd)]
        rw [hgone, hnone, hrandom]
        exact ⟨hasked, hdropped⟩
      · have hstay : (asked? registry e).toList.filter (fun d => !d.isRandom) =
            (asked? registry e).toList := by
          rw [List.filter_eq_self]
          intro d hd
          simp [isRandom_of_asked? (Option.mem_toList.mp hd)]
        rw [hstay, hasked, if_pos (by simpa using hother)]
        constructor
        · cases asked? registry e <;> rfl
        · simp only [directives, hfirst, hdropped, hasked]
          rfl

/-- Without its random entries an order compiles to the same directives, without the random ones. -/
theorem compile_withoutRandom {order : Value} {ds : List SortDirective}
    (h : compile registry seedLength order = .ok ds) :
    compile registry seedLength (withoutRandom order) = .ok (ds.filter fun d => !d.isRandom) := by
  obtain ⟨es, hes, h⟩ := Outcome.bind_eq_ok_iff.mp h
  unfold compile withoutRandom
  rw [entries_without, hes]
  exact (directives_unseeded h).2

theorem unseeded_eq_nil_iff {order : Value} {ds : List SortDirective}
    {es : List (String × Value)} (hes : entries order = .ok es)
    (h : compile registry seedLength order = .ok ds) :
    ds.filter (fun d => !d.isRandom) = [] ↔
      ∀ e ∈ es, e.1 = randomField ∨ registry.has e.1 = false ∨ Direction.ofValue? e.2 = none := by
  unfold compile at h
  rw [hes] at h
  rw [(directives_unseeded h).1, List.filterMap_eq_nil_iff]
  refine forall₂_congr fun e _ => ?_
  unfold asked?
  rw [← or_assoc]
  split
  · rename_i hnone
    exact iff_of_true rfl (.inl hnone)
  · rename_i hdeclared
    rw [Option.map_eq_none_iff, or_iff_right hdeclared]

end Order

namespace Relational

open Parity (sortKeys get?_rowValues)

section Drafting

variable {source : Source}

theorem Change.taken_of_ofCalls {calls : List Call} (h : (ofCalls source calls).2 = .ok ()) :
    ∀ call ∈ calls, (ofCall source call).2 = .ok () := by
  induction calls with
  | nil => exact List.forall_mem_nil _
  | cons call rest ih =>
      have hfirst : (ofCall source call).2 = .ok () := by
        unfold ofCalls andThen at h
        split at h
        · rename_i c hc
          rw [hc]
        · cases h
      exact List.forall_mem_cons.mpr ⟨hfirst, ih (andThen_of_ok h).1⟩

theorem Change.ofCalls_unseeded (ds : List SortDirective) :
    ofCalls source ((ds.filter fun d => !d.isRandom).map SortDirective.call) =
      ofCalls source (ds.map SortDirective.call) := by
  induction ds with
  | nil => rfl
  | cons d rest ih =>
      rw [List.filter_cons, List.map_cons, ofCalls, ← ih]
      cases hseed : d.seed with
      | none =>
          rw [if_pos (by simp [SortDirective.isRandom, hseed])]
          rfl
      | some seed =>
          have hcall : ofCall source d.call = ({}, .ok ()) := by
            unfold SortDirective.call
            rw [hseed]
            rfl
          rw [if_neg (by simp [SortDirective.isRandom, hseed]), hcall]
          simp [andThen]

theorem Source.draft_unseeded (source : Source) (plan : Plan) (request : Request) (order : Value) :
    source.draft (({ plan with sort := plan.sort.filter fun d => !d.isRandom } : Plan).calls
      { request with order }) = source.draft (plan.calls request) := by
  unfold Source.draft Plan.calls
  simp only [Change.ofCalls_append, Change.ofCalls_unseeded]

theorem filter_isSort_calls (plan : Plan) (request : Request) :
    (plan.calls request).filter Call.isSort =
      (plan.sort.filter fun d => !d.isRandom).map SortDirective.call := by
  have hpredicates : (plan.predicates.map Predicate.call).filter Call.isSort = [] := by
    rw [List.filter_eq_nil_iff, List.forall_mem_map]
    intro p _
    cases p <;> exact Bool.false_ne_true
  have hsort : ∀ d : SortDirective, d.call.isSort = !d.isRandom := by
    intro d
    unfold SortDirective.call SortDirective.isRandom
    cases d.seed <;> rfl
  have hcomp : Call.isSort ∘ SortDirective.call = fun d => !d.isRandom := funext hsort
  unfold Plan.calls
  rw [List.filter_append, List.filter_append, hpredicates, List.nil_append, List.filter_map, hcomp]
  -- The page and the free text are no sorts.
  cases request.text with
  | none => exact List.append_nil _
  | some text =>
      dsimp only
      split <;> exact List.append_nil _

theorem Source.order_of_draft {plan : Plan} {request : Request} {d : Draft}
    (h : source.draft (plan.calls request) = .ok d) :
    d.order = sortKeys source (plan.sort.filter fun d => !d.isRandom) ∧
      ∀ k ∈ plan.sort.filter fun d => !d.isRandom, ∃ c, source.table.column? k.field = some c := by
  obtain ⟨htaken, rfl⟩ := Source.draft_eq_ok_iff.mp h
  have hcall : ∀ d ∈ plan.sort.filter fun d => !d.isRandom, ∃ c,
      source.table.column? d.field = some c ∧
        (Change.ofCall source d.call).1.order = [{ column := c, direction := d.direction }] := by
    intro d hd
    have hmem : d.call ∈ plan.calls request :=
      (List.mem_filter.mp (filter_isSort_calls plan request ▸ List.mem_map_of_mem hd)).1
    have hok := Change.taken_of_ofCalls htaken d.call hmem
    have hseed : d.seed = none := by
      simpa [SortDirective.isRandom] using (List.mem_filter.mp hd).2
    unfold SortDirective.call at hok ⊢
    rw [hseed] at hok ⊢
    simp only [Change.ofCall, Source.column] at hok ⊢
    cases hcolumn : source.table.column? d.field with
    | none =>
        rw [hcolumn] at hok
        cases hok
    | some c => exact ⟨c, rfl, rfl⟩
  constructor
  · change [] ++ (Change.ofCalls source (plan.calls request)).1.order = _
    rw [List.nil_append, (Change.ofCalls_parts source htaken).2.1, filter_isSort_calls]
    generalize plan.sort.filter (fun d => !d.isRandom) = ds at hcall
    induction ds with
    | nil => rfl
    | cons d rest ih =>
        obtain ⟨c, hc, horder⟩ := hcall d (.head _)
        rw [List.map_cons, List.flatMap_cons, horder, ih fun d hd => hcall d (.tail _ hd)]
        simp [sortKeys, hc]
  · intro d hd
    obtain ⟨c, hc, -⟩ := hcall d hd
    exact ⟨c, hc⟩

end Drafting

/-- The fields that a listing goes by: those of the directives that are not random or, without any,
those of the default order that are columns. -/
def Source.keysOf (source : Source) (ds : List SortDirective) : List (String × Direction) :=
  let chosen := ds.filter fun d => !d.isRandom
  (if chosen.isEmpty then
    source.registry.defaultOrder.filter fun d => (source.table.column? d.field).isSome
  else chosen).map fun d => (d.field, d.direction)

def SortKey.named (k : SortKey) : String × Direction :=
  (k.column.name, k.direction)

theorem named_sortKeys (source : Source) (ds : List SortDirective) :
    (sortKeys source ds).map SortKey.named =
      (ds.filter fun d => (source.table.column? d.field).isSome).map fun d =>
        (d.field, d.direction) := by
  induction ds with
  | nil => rfl
  | cons d rest ih =>
      have hcons : sortKeys source (d :: rest) = ((source.table.column? d.field).map fun column =>
          { column, direction := d.direction }).toList ++ sortKeys source rest := by
        unfold sortKeys
        rw [List.filterMap_cons]
        cases source.table.column? d.field <;> rfl
      rw [hcons, List.map_append, ih, List.filter_cons]
      cases hc : source.table.column? d.field with
      | none => rfl
      | some c => simp [SortKey.named, (Table.mem_of_column? hc).2]

theorem mem_sortKeys {source : Source} {ds : List SortDirective} :
    ∀ k ∈ sortKeys source ds, k.column ∈ source.table.columns := by
  intro k hk
  obtain ⟨d, -, hd⟩ := List.mem_filterMap.mp hk
  obtain ⟨c, hc, rfl⟩ := Option.map_eq_some_iff.mp hd
  exact (Table.mem_of_column? hc).1

/-- A draft's rows go by the fields of its plan and at last by the identifier. -/
theorem Source.fullOrder_of_draft {source : Source} {key : Column}
    (hkey : source.table.column? source.registry.idField = some key) {plan : Plan}
    {request : Request} {d : Draft} (h : source.draft (plan.calls request) = .ok d) :
    (d.fullOrder source).map SortKey.named =
        source.keysOf plan.sort ++ [(source.registry.idField, .ascending)] ∧
      ∀ k ∈ d.fullOrder source, k.column ∈ source.table.columns := by
  obtain ⟨horder, hnamed⟩ := source.order_of_draft h
  obtain ⟨hmem, hname⟩ := Table.mem_of_column? hkey
  have hempty : (sortKeys source (plan.sort.filter fun d => !d.isRandom)).isEmpty =
      (plan.sort.filter fun d => !d.isRandom).isEmpty := by
    apply Parity.sortKeys_isEmpty
    intro d hd
    obtain ⟨c, hc⟩ := hnamed d hd
    exact ⟨c, Table.mem_of_column? hc⟩
  have hdefault : source.defaultOrder = sortKeys source source.registry.defaultOrder := rfl
  unfold Draft.fullOrder Source.keysOf
  rw [horder, hkey, hempty, hdefault, List.map_append, List.forall_mem_append]
  refine ⟨?_, ?_, ?_⟩
  · congr 1
    · dsimp only
      split
      · exact named_sortKeys source _
      · rw [named_sortKeys, List.filter_eq_self.mpr]
        intro d hd
        obtain ⟨c, hc⟩ := hnamed d hd
        rw [hc]
        rfl
    · simp [SortKey.named, hname]
  · split <;> exact mem_sortKeys
  · simpa using hmem

section Rows

variable {t : Table}

/-- The value that a shown row has in a field. -/
def shownIn (shown : Entries) (field : String) : Value :=
  (shown.get? field).getD .null

/-- One shown row precedes another by fields in turn: the first field in which one of the two comes
before the other decides. -/
inductive Precedes : List (String × Direction) → Entries → Entries → Prop
  | apart {field : String} {d : Direction} {rest : List (String × Direction)} {a b : Entries}
      (h : IsBefore d (shownIn a field) (shownIn b field)) : Precedes ((field, d) :: rest) a b
  | tied {field : String} {d : Direction} {rest : List (String × Direction)} {a b : Entries}
      (h : ¬IsBefore d (shownIn a field) (shownIn b field))
      (h' : ¬IsBefore d (shownIn b field) (shownIn a field)) (hrest : Precedes rest a b) :
      Precedes ((field, d) :: rest) a b

theorem shownIn_rowValues {row : Row}
    (typed : List.Forall₂ (fun c cell => Cell.IsOf c.type cell) t.columns row) {c : Column}
    (hc : c ∈ t.columns) :
    shownIn (t.rowValues row) c.name = cellValue c.type (t.cell row c) ∧
      (t.cell row c).IsOf c.type := by
  obtain ⟨hlength, hentries⟩ := List.forall₂_iff_zip.mp typed
  have hentry := Table.find?_entry hlength.symm hc
  unfold shownIn
  rw [get?_rowValues, hentry]
  exact ⟨rfl, hentries (List.mem_of_find?_eq_some hentry)⟩

/-- Rows in the order of sort keys are shown in the order of their fields. -/
theorem precedes_of_compareRows {a b : Row}
    (ha : List.Forall₂ (fun c cell => Cell.IsOf c.type cell) t.columns a)
    (hb : List.Forall₂ (fun c cell => Cell.IsOf c.type cell) t.columns b) {order : List SortKey}
    (hcolumns : ∀ k ∈ order, k.column ∈ t.columns)
    (h : Database.compareRows t order a b = .lt) :
    Precedes (order.map SortKey.named) (t.rowValues a) (t.rowValues b) := by
  induction order with
  | nil => cases h
  | cons k rest ih =>
      obtain ⟨hk, hrest⟩ := List.forall_mem_cons.mp hcolumns
      obtain ⟨hshown, hof⟩ := shownIn_rowValues ha hk
      obtain ⟨hshown', hof'⟩ := shownIn_rowValues hb hk
      have hlt := hof.directed_eq_lt_iff hof' k.direction
      have hgt := hof.directed_eq_gt_iff hof' k.direction
      rw [← hshown, ← hshown'] at hlt hgt
      have hturn : (Sorting.directed k.direction ((t.cell a k.column).order (t.cell b k.column))).then
          (Database.compareRows t rest a b) = .lt := h
      rw [Ordering.then_eq_lt] at hturn
      rcases hturn with hfirst | ⟨hfirst, hlater⟩
      · exact .apart (hlt.mp hfirst)
      · exact .tied (mt hlt.mpr (by simp [hfirst])) (mt hgt.mpr (by simp [hfirst]))
          (ih hrest hlater)

end Rows

section Page

variable {source : Source} {session : Session} {key : Column}
variable (hkey : source.table.column? source.registry.idField = some key)
variable (table_eq : session.database.table = source.table) (typed : session.database.IsTyped)
variable (keyed : session.database.IsKeyed key)
include hkey table_eq typed keyed

theorem Draft.pairwise_precedes {plan : Plan} {request : Request} {d : Draft}
    (h : source.draft (plan.calls request) = .ok d) {page : Page}
    (hpage : d.page source session = .ok page) :
    page.rows.Pairwise
      (Precedes (source.keysOf plan.sort ++ [(source.registry.idField, .ascending)])) := by
  obtain ⟨hnamed, hcolumns⟩ := Source.fullOrder_of_draft hkey h
  obtain ⟨-, rfl⟩ := page_eq_ok_iff.mp hpage
  have hselect : session.database.select (d.selection source) =
      Database.page d.limit d.offset
        (session.database.listed (d.allConditions source) (d.fullOrder source)) :=
    keyed.select_withRows (d.key_mem_fullOrder hkey) (.refl _) rfl
  have hlisted := keyed.pairwise_listed (d.key_mem_fullOrder hkey) (d.allConditions source)
  have htyped : ∀ row ∈ session.database.listed (d.allConditions source) (d.fullOrder source),
      List.Forall₂ (fun c cell => Cell.IsOf c.type cell) source.table.columns row := by
    intro row hrow
    rw [← table_eq]
    exact typed row (List.mem_filter.mp ((session.database.listed_perm _ _).subset hrow)).1
  rw [hselect, List.pairwise_map, ← hnamed]
  refine (hlisted.imp_of_mem ?_).sublist (Database.page_sublist _ _ _)
  intro a b ha hb hlt
  rw [table_eq] at hlt
  exact precedes_of_compareRows (htyped a ha) (htyped b hb) hcolumns hlt

end Page

/-- Each row that is shown precedes all later ones by the directives that are not random, or by the
default order without any, and at last by the identifier. -/
theorem rows_precede_as_asked {listing : Listing} {source : Source} {session : Session}
    {key : Column} (hkey : source.table.column? source.registry.idField = some key)
    (table_eq : session.database.table = source.table) (typed : session.database.IsTyped)
    (keyed : session.database.IsKeyed key) {request : Request} {page : Page}
    (runs : (listing.fetch (adapter source) { session } request).2 = .ok page) :
    ∃ es ds, Order.entries request.order = .ok es ∧
      Order.compile listing.registry listing.settings.randomSeedLength request.order = .ok ds ∧
      page.rows.Pairwise
        (Precedes (source.keysOf ds ++ [(source.registry.idField, .ascending)])) ∧
      ((∀ e ∈ es, e.1 = Order.randomField ∨ listing.registry.has e.1 = false ∨
        Direction.ofValue? e.2 = none) → source.keysOf ds = source.keysOf []) ∧
      (listing.fetch (adapter source) { session }
        { request with order := Order.withoutRandom request.order }).2 = .ok page := by
  rw [fetch_eq_outcome] at runs
  cases hplan : Plan.ofRequest listing.today listing.registry listing.settings false request with
  | error e =>
      simp only [draftOf, hplan] at runs
      cases runs
  | ok plan =>
      obtain ⟨predicates, hpredicates, hrest⟩ := Outcome.bind_eq_ok_iff.mp hplan
      obtain ⟨ds, hds, hrest⟩ := Outcome.bind_eq_ok_iff.mp hrest
      cases hrest
      obtain ⟨es, hes, -⟩ := Outcome.bind_eq_ok_iff.mp hds
      simp only [draftOf, hplan] at runs
      refine ⟨es, ds, hes, hds, ?_, ?_, ?_⟩
      · cases hd : source.draft (({ predicates, sort := ds } : Plan).calls request) with
        | error e =>
            rw [hd] at runs
            cases runs
        | ok d =>
            rw [hd] at runs
            exact Draft.pairwise_precedes hkey table_eq typed keyed hd
              (Draft.outcome_eq_ok_iff.mp runs).2
      · intro hnothing
        unfold Source.keysOf
        rw [(Order.unseeded_eq_nil_iff hes hds).mpr hnothing]
        rfl
      · have hplan' : Plan.ofRequest listing.today listing.registry listing.settings false
            { request with order := Order.withoutRandom request.order } =
              .ok { predicates, sort := ds.filter fun d => !d.isRandom } := by
          unfold Plan.ofRequest
          rw [hpredicates, Order.compile_withoutRandom hds]
          rfl
        rw [fetch_eq_outcome]
        simp only [draftOf, hplan']
        rw [source.draft_unseeded { predicates, sort := ds } request]
        exact runs

section Articles

def mixedTitles : Database :=
  .ofValues articleTable
    [[.text "c", .text "x"], [.text "b", .null], [.text "a", .text "x"]]

def mixedOrder : Request where
  limit := 10
  order := .list [.object [(.text "random", .text "seed")],
    .object [(.text "title", .text "desc")], .object [(.text "title", .text "asc")]]

theorem isTyped_mixedTitles : mixedTitles.IsTyped := by
  apply Database.isTyped_ofValues
  simp only [List.forall_mem_cons]
  exact ⟨.cons (.text "c") (.cons (.text "x") .nil), .cons (.text "b") (.cons (.null _) .nil),
    .cons (.text "a") (.cons (.text "x") .nil), by simp⟩

theorem mixed_titles_precede_as_asked :
    ∃ page, page.total = 3 ∧
      (articleListing.fetch (adapter articleSource) { session := { database := mixedTitles } }
        mixedOrder).2 = .ok page ∧
      page.rows.Pairwise
        (Precedes [("title", .descending), ("title", .ascending), ("id", .ascending)]) ∧
      (articleListing.fetch (adapter articleSource) { session := { database := mixedTitles } }
        { mixedOrder with order := Order.withoutRandom mixedOrder.order }).2 = .ok page := by
  have keyed : mixedTitles.IsKeyed ⟨"id", .text⟩ := ⟨isTyped_mixedTitles.isKept, by decide⟩
  obtain ⟨page, htotal, runs⟩ : ∃ page : Page, page.total = 3 ∧
      (articleListing.fetch (adapter articleSource) { session := { database := mixedTitles } }
        mixedOrder).2 = .ok page := by
    rw [fetch_eq_outcome]
    exact ⟨_, rfl, Draft.outcome_of_readable (by decide) (Session.takes_iff.mpr ⟨rfl, rfl⟩)⟩
  obtain ⟨es, ds, -, hds, hrows, -, hsame⟩ :=
    @rows_precede_as_asked articleListing articleSource _ _ rfl rfl isTyped_mixedTitles keyed _ _ runs
  cases hds
  exact ⟨page, htotal, runs, hrows, hsame⟩

end Articles

end Relational

end Catalogue
