import Catalogue.Proofs.Parity.Listing

/-!
The sequence in which either side lists mirrored content. The sides agree as long as the first and
the last sort key of every path that may decide have the same direction.
-/

namespace Catalogue.Parity

open Document (distinctKeys idPath pathOf stored withTiebreaker)
open Document.Condition (valueAt)
open Relational
open Sorting (atOrBefore byKeys byKeys_append_id byKeys_distinctKeys byKeys_of_tie decisivePaths
  firstApart firstApart_of_decisive firstDirection isSome_firstDirection_iff
  isSome_lastDirection_iff lastDirection mem_decisivePaths)

/-- The first and the last key of each path that may decide have the same direction. The marker of
deleted rows is null in all others, and decides nothing. -/
def IsSettled (source : Source) (keys : List (String × Direction)) : Prop :=
  ∀ path ∈ decisivePaths keys,
    (∀ c, source.markerColumn? = some c → path ≠ pathOf source.registry c.name) →
      firstDirection keys path = lastDirection keys path

theorem mem_markerColumn? {source : Source} {c : Column} (h : source.markerColumn? = some c) :
    c ∈ source.table.columns := by
  unfold Source.markerColumn? at h
  split at h
  · split at h
    · cases h
    · exact (Table.mem_of_column? h).1
  · cases h

namespace Shared

variable {source : Source} {session : Relational.Session} {docs : List Entries}
variable {pairs : List (Row × Entries)} (h : Shared source session docs pairs)
variable (names : NamesColumns source)
include h

theorem view_marker {c : Column} (hmarker : source.markerColumn? = some c) :
    ∀ p ∈ pairs, view source p.1 c.name = .null := by
  intro p hp
  have hc := mem_markerColumn? hmarker
  have hlive := (List.mem_filter.mp (h.rows_perm.subset (List.mem_map_of_mem hp))).2
  unfold isLive at hlive
  rw [hmarker, Option.all_some, (h.mirrors p hp).cell_eq_view hc] at hlive
  exact ((h.mirrors p hp).isHeld_view hc).isNull_cellOf.mp hlive

theorem comparedAt_marker {c : Column} (hmarker : source.markerColumn? = some c) :
    ∀ p ∈ pairs, ∀ q ∈ pairs,
      comparedAt (stored p.2) (stored q.2) (pathOf source.registry c.name) = .eq := by
  intro p hp q hq
  have hc := mem_markerColumn? hmarker
  unfold comparedAt
  rw [(h.mirrors p hp).valueAt_stored hc, (h.mirrors q hq).valueAt_stored hc,
    h.view_marker hmarker p hp, h.view_marker hmarker q hq]
  rfl

include names

/-- Settled keys put mirrored content in one order. -/
theorem listedBy_eq {keys : List (String × Direction)} (settled : IsSettled source keys) :
    listedBy (keys ++ [(idPath, .ascending)]) pairs =
      listedBy (distinctKeys (withTiebreaker keys)) pairs := by
  have hsame : ∀ p ∈ pairs, ∀ q ∈ pairs,
      byKeys (comparedAt (stored p.2) (stored q.2)) (keys ++ [(idPath, .ascending)]) =
        byKeys (comparedAt (stored p.2) (stored q.2)) (distinctKeys (withTiebreaker keys)) := by
    intro p hp q hq
    by_cases apart : comparedAt (stored p.2) (stored q.2) idPath = .eq
    · obtain rfl := h.eq_of_same_id names p hp q hq apart
      have htie := (h.mirrors p hp).comparedAt_self
      rw [byKeys_of_tie fun k _ => htie k.1, byKeys_of_tie fun k _ => htie k.1]
    · rw [byKeys_append_id keys apart, byKeys_distinctKeys keys apart]
      cases hfind : firstApart (comparedAt (stored p.2) (stored q.2)) keys with
      | none => rfl
      | some path =>
          -- The marker ties between mirrored rows, so it is not the path that decides.
          rw [Option.elim_some, Option.elim_some, settled path (mem_decisivePaths apart hfind)]
          intro c hmarker hpath
          refine Sorting.ne_eq_of_firstApart hfind ?_
          rw [hpath]
          exact h.comparedAt_marker hmarker p hp q hq
  unfold listedBy
  have hsorted := List.map_mergeSort (f := id) (l := pairs)
    (r := atOrBefore fun p q => byKeys (comparedAt (stored p.2) (stored q.2))
      (keys ++ [(idPath, .ascending)]))
    (s := atOrBefore fun p q => byKeys (comparedAt (stored p.2) (stored q.2))
      (distinctKeys (withTiebreaker keys)))
    fun p hp q hq => by rw [atOrBefore, atOrBefore, hsame p hp q hq]; rfl
  simpa using hsorted

end Shared

section Values

variable {source : Source} (value : Column → Value)

/-- A row of values by column, and the document that mirrors it: what is null is missing there. -/
def ofColumns (source : Source) (value : Column → Value) : Row × Entries :=
  (source.table.columns.map fun c => cellOf (value c),
    (source.table.columns.filter fun c => !(value c).isNull).map fun c =>
      (.text (pathOf source.registry c.name), value c))

theorem cell_ofColumns {c : Column} (hc : c ∈ source.table.columns) :
    source.table.cell (ofColumns source value).1 c = cellOf (value c) := by
  have hown := find?_own_name source.table.names_nodup hc
  unfold Table.cell ofColumns
  dsimp only
  rw [← List.map_prod_left_eq_zip, List.find?_map]
  change (((source.table.columns.find? fun d => d.name == c.name).map _).elim _ _) = _
  rw [hown]
  rfl

theorem valueAt_ofColumns
    (distinct : ∀ c ∈ source.table.columns, ∀ d ∈ source.table.columns,
      pathOf source.registry c.name = pathOf source.registry d.name → c = d)
    (names : ∀ c ∈ source.table.columns, IsFieldName c.name)
    {c : Column} (hc : c ∈ source.table.columns) :
    valueAt (ofColumns source value).2 (pathOf source.registry c.name) = value c := by
  unfold valueAt Entries.get? ofColumns
  rw [isInner_pathOf (names c hc), if_neg Bool.false_ne_true]
  dsimp only
  rw [List.find?_map, Option.map_map]
  cases hfind : (source.table.columns.filter fun c => !(value c).isNull).find?
      ((fun e : Value × Value => e.1.isText (pathOf source.registry c.name)) ∘
        fun c => (.text (pathOf source.registry c.name), value c)) with
  | some d =>
      have hd := List.mem_of_mem_filter (List.mem_of_find?_eq_some hfind)
      have hpath := List.find?_some hfind
      have hown : d = c := distinct d hd c hc (by simpa [Value.isText] using hpath)
      rw [hown]
      rfl
  | none =>
      have hnull : value c = .null := by
        by_contra hset
        have hmem : c ∈ source.table.columns.filter fun c => !(value c).isNull := by
          refine List.mem_filter.mpr ⟨hc, ?_⟩
          generalize value c = v at hset
          cases v with
          | null => exact absurd rfl hset
          | _ => rfl
        exact List.find?_eq_none.mp hfind c hmem (by simp [Value.isText])
      rw [hnull]
      rfl

theorem mirrors_ofColumns
    (distinct : ∀ c ∈ source.table.columns, ∀ d ∈ source.table.columns,
      pathOf source.registry c.name = pathOf source.registry d.name → c = d)
    (names : ∀ c ∈ source.table.columns, IsFieldName c.name)
    (held : ∀ c ∈ source.table.columns, IsHeld c.type (value c)) :
    Mirrors source (ofColumns source value).1 (ofColumns source value).2 where
  cell_eq c hc := by rw [cell_ofColumns value hc, valueAt_ofColumns value distinct names hc]
  isHeld c hc := by
    rw [valueAt_ofColumns value distinct names hc]
    exact held c hc
  keys e he := by
    obtain ⟨c, hc, rfl⟩ := List.mem_map.mp he
    exact ⟨c, List.mem_of_mem_filter hc, rfl⟩

end Values

/-- Every column has values of a type that both sides keep, and none but the identifier takes the
path or the place of another. -/
structure IsOrdinary (source : Source) : Prop where
  types : ∀ c ∈ source.table.columns, c.type ≠ .number
  paths : ∀ c ∈ source.table.columns, c.name = idPath → c.name = source.registry.idField
  marker : ∀ c, source.markerColumn? = some c → c.name ≠ source.registry.idField
  names : ∀ c ∈ source.table.columns, IsFieldName c.name
  ordered : source.defaultOrder.length < maxSortKeys

def sample : ColumnType → Value
  | .text => .text ""
  | .integer => .int 0
  | .boolean => .bool false
  | .moment => .stamp { moment := default }
  | .number => .null

theorem isOf_sample {type : ColumnType} (h : type ≠ .number) : IsOf type (sample type) := by
  cases type with
  | text => exact .text ""
  | integer => exact .integer (by decide)
  | boolean => exact .boolean false
  | moment => exact .moment rfl
  | number => exact absurd rfl h

/-- The values of a row that has nothing but an identifier, and at most one value at a path. -/
def twinValue (source : Source) (path id : String) (filled : Bool) (c : Column) : Value :=
  if c.name = source.registry.idField then .text id
  else if filled = true ∧ pathOf source.registry c.name = path then sample c.type
  else .null

/-- Two rows that differ in their identifiers, and at a path where only the second has a value. -/
def twins (source : Source) (path : String) : List (Row × Entries) :=
  [ofColumns source (twinValue source path "a" false),
    ofColumns source (twinValue source path "b" true)]

def twinSession (source : Source) (path : String) : Relational.Session where
  database := { table := source.table, rows := (twins source path).map Prod.fst }

def inDirection {α : Type} (d : Direction) (l : List α) : List α :=
  match d with
  | .ascending => l
  | .descending => l.reverse

theorem listedBy_pair (keys : List (String × Direction)) (p q : Row × Entries) :
    listedBy keys [p, q] =
      if byKeys (comparedAt (stored p.2) (stored q.2)) keys != .gt then [p, q] else [q, p] := by
  unfold listedBy
  rw [Sorting.mergeSort_pair]
  rfl

theorem head?_shownIds {source : Source} {request : Request}
    (atStart : request.offset.getD 0 = 0) (hlimit : 0 < request.limit) (p : Row × Entries)
    (rest : List (Row × Entries)) : (shownIds source request (p :: rest)).head? =
      some (view source p.1 source.registry.idField) := by
  obtain ⟨n, hn⟩ := Nat.exists_eq_succ_of_ne_zero (by omega : request.limit.toNat ≠ 0)
  unfold shownIds slice
  rw [atStart, hn]
  rfl

theorem isKept_cellOf (v : Value) : (cellOf v).IsKept := by
  cases v <;> exact Cell.noConfusion

section Twins

variable {source : Source} (names : NamesColumns source) (ordinary : IsOrdinary source)
variable (path : String)

include ordinary in
theorem IsOrdinary.distinct : ∀ c ∈ source.table.columns, ∀ d ∈ source.table.columns,
    pathOf source.registry c.name = pathOf source.registry d.name → c = d := by
  intro c hc d hd hpath
  have hname : c.name = d.name := by
    unfold pathOf at hpath
    split at hpath
    · rename_i hown
      split at hpath
      · rename_i hown'
        rw [hown, hown']
      · rename_i hother
        exact absurd (ordinary.paths d hd hpath.symm) hother
    · rename_i hother
      split at hpath
      · exact absurd (ordinary.paths c hc hpath) hother
      · exact hpath
  have hfound := Table.column?_name hc
  rw [hname, Table.column?_name hd] at hfound
  exact (Option.some.inj hfound).symm

include names ordinary

theorem isHeld_twinValue (id : String) (filled : Bool) :
    ∀ c ∈ source.table.columns, IsHeld c.type (twinValue source path id filled c) := by
  intro c hc
  unfold twinValue
  split
  · rename_i hname
    have hid : c = ⟨source.registry.idField, .text⟩ :=
      ordinary.distinct c hc _ names.id (by rw [hname])
    rw [hid]
    exact .inr (.text id)
  · split
    · exact .inr (isOf_sample (ordinary.types c hc))
    · exact .inl rfl

theorem mirrors_twin (id : String) (filled : Bool) :
    Mirrors source (ofColumns source (twinValue source path id filled)).1
      (ofColumns source (twinValue source path id filled)).2 :=
  mirrors_ofColumns _ ordinary.distinct ordinary.names (isHeld_twinValue names ordinary path id filled)

theorem view_twin (id : String) (filled : Bool) {c : Column} (hc : c ∈ source.table.columns) :
    view source (ofColumns source (twinValue source path id filled)).1 c.name =
      twinValue source path id filled c := by
  rw [(mirrors_twin names ordinary path id filled).view_eq hc,
    valueAt_ofColumns _ ordinary.distinct ordinary.names hc]

theorem view_id_twin (id : String) (filled : Bool) :
    view source (ofColumns source (twinValue source path id filled)).1 source.registry.idField =
      .text id := by
  have hview := view_twin names ordinary path id filled names.id
  rwa [twinValue, if_pos rfl] at hview

/-- The twins tie but at the identifier and at the path. -/
theorem comparedAt_twins {c : Column} (hc : c ∈ source.table.columns) :
    comparedAt (stored (ofColumns source (twinValue source path "a" false)).2)
        (stored (ofColumns source (twinValue source path "b" true)).2)
        (pathOf source.registry c.name) =
      if pathOf source.registry c.name = idPath ∨ pathOf source.registry c.name = path then .lt
      else .eq := by
  have hsample : Document.compareValues .null (sample c.type) = .lt := by
    have htype := ordinary.types c hc
    generalize c.type = type at htype
    cases type with
    | number => exact absurd rfl htype
    | _ => rfl
  unfold comparedAt
  rw [(mirrors_twin names ordinary path "a" false).valueAt_stored hc,
    (mirrors_twin names ordinary path "b" true).valueAt_stored hc,
    view_twin names ordinary path "a" false hc, view_twin names ordinary path "b" true hc]
  unfold twinValue
  by_cases hname : c.name = source.registry.idField
  · rw [if_pos hname, if_pos hname, if_pos (.inl (by rw [pathOf, if_pos hname]))]
    rfl
  · have hid : pathOf source.registry c.name ≠ idPath := by
      rw [pathOf, if_neg hname]
      exact fun h => hname (ordinary.paths c hc h)
    rw [if_neg hname, if_neg hname, if_neg (by simp)]
    by_cases hpath : pathOf source.registry c.name = path
    · rw [if_pos ⟨rfl, hpath⟩, if_pos (.inr hpath), hsample]
    · rw [if_neg fun h => hpath h.2, if_neg (not_or.mpr ⟨hid, hpath⟩)]
      rfl

variable {path : String}
  (unmarked : ∀ c, source.markerColumn? = some c → path ≠ pathOf source.registry c.name)

include unmarked in
omit names in
theorem isLive_twin (id : String) (filled : Bool) :
    isLive source (ofColumns source (twinValue source path id filled)).1 = true := by
  unfold isLive
  cases hmarker : source.markerColumn? with
  | none => rfl
  | some c =>
      rw [Option.all_some, cell_ofColumns _ (mem_markerColumn? hmarker), twinValue,
        if_neg (ordinary.marker c hmarker), if_neg fun h => unmarked c hmarker h.2.symm]
      rfl

theorem isKeyed_twins (path : String) :
    (twinSession source path).database.IsKeyed ⟨source.registry.idField, .text⟩ where
  kept := by
    intro row hrow cell hcell
    obtain ⟨p, hp, rfl⟩ := List.mem_map.mp hrow
    have hcells : ∀ value : Column → Value, ∀ cell ∈ (ofColumns source value).1, cell.IsKept := by
      intro value cell hcell
      obtain ⟨c, -, rfl⟩ := List.mem_map.mp hcell
      exact isKept_cellOf _
    unfold twins at hp
    rw [List.mem_cons, List.mem_singleton] at hp
    rcases hp with rfl | rfl
    · exact hcells _ cell hcell
    · exact hcells _ cell hcell
  unique := by
    change List.Pairwise _ [_, _]
    rw [List.pairwise_pair]
    change (source.table.cell _ _).order (source.table.cell _ _) ≠ .eq
    rw [(mirrors_twin names ordinary path "a" false).order_cell
      (mirrors_twin names ordinary path "b" true) names.id, comparedAt_twins names ordinary path
        names.id, if_pos (.inl (by rw [pathOf, if_pos rfl]))]
    exact Ordering.noConfusion

include unmarked in
theorem shared_twins :
    Shared source (twinSession source path) ((twins source path).map Prod.snd)
      (twins source path) where
  table_eq := rfl
  present := rfl
  rows_perm := by
    have hlive : ((twins source path).map Prod.fst).filter (isLive source) =
        (twins source path).map Prod.fst := by
      rw [List.filter_eq_self]
      change ∀ row ∈ [_, _], _
      simp only [List.forall_mem_cons]
      exact ⟨isLive_twin ordinary unmarked "a" false, isLive_twin ordinary unmarked "b" true,
        by simp⟩
    change List.Perm _ (((twins source path).map Prod.fst).filter (isLive source))
    rw [hlive]
  docs_perm := .refl _
  mirrors := by
    change ∀ p ∈ [_, _], _
    simp only [List.forall_mem_cons]
    exact ⟨mirrors_twin names ordinary path "a" false, mirrors_twin names ordinary path "b" true,
      by simp⟩
  names := ordinary.names
  hasId := ⟨_, names.id, rfl⟩
  ordered := ordinary.ordered
  faults := rfl
  keyed := isKeyed_twins names ordinary path
  ids := by
    change ∀ p ∈ [_, _], _
    simp only [List.forall_mem_cons]
    exact ⟨⟨"a", view_id_twin names ordinary path "a" false⟩,
      ⟨"b", view_id_twin names ordinary path "b" true⟩, by simp⟩

theorem firstApart_twins {keys : List (String × Direction)}
    (hkeys : ∀ k ∈ keys, ∃ c ∈ source.table.columns, k.1 = pathOf source.registry c.name)
    (decisive : path ∈ decisivePaths keys) (hmem : path ∈ keys.map Prod.fst) :
    let cmp := comparedAt (stored (ofColumns source (twinValue source path "a" false)).2)
      (stored (ofColumns source (twinValue source path "b" true)).2)
    cmp idPath = .lt ∧ cmp path = .lt ∧ firstApart cmp keys = some path := by
  intro cmp
  have hcompared : ∀ q ∈ keys.map Prod.fst,
      cmp q = if q = idPath ∨ q = path then .lt else .eq := by
    intro q hq
    obtain ⟨k, hk, rfl⟩ := List.mem_map.mp hq
    obtain ⟨c, hc, hpath⟩ := hkeys k hk
    rw [hpath]
    exact comparedAt_twins names ordinary path hc
  refine ⟨?_, ?_, ?_⟩
  · have hid := comparedAt_twins names ordinary path names.id
    rwa [pathOf, if_pos rfl, if_pos (.inl rfl)] at hid
  · rw [hcompared path hmem, if_pos (.inr rfl)]
  · apply firstApart_of_decisive decisive hmem
    intro q hq
    rw [hcompared q hq]
    split
    · rename_i h
      exact iff_of_true Ordering.noConfusion h.symm
    · rename_i h
      exact iff_of_false (by simp) fun hq => h hq.symm

theorem listedBy_twins {keys : List (String × Direction)} {d d' : Direction}
    (hkeys : ∀ k ∈ keys, ∃ c ∈ source.table.columns, k.1 = pathOf source.registry c.name)
    (decisive : path ∈ decisivePaths keys) (hd : firstDirection keys path = some d)
    (hd' : lastDirection keys path = some d') :
    listedBy (keys ++ [(idPath, .ascending)]) (twins source path) = inDirection d (twins source path) ∧
      listedBy (distinctKeys (withTiebreaker keys)) (twins source path) =
        inDirection d' (twins source path) := by
  have hmem : path ∈ keys.map Prod.fst := isSome_firstDirection_iff.mp (hd ▸ rfl)
  obtain ⟨hid, hown, hfind⟩ := firstApart_twins names ordinary hkeys decisive hmem
  have apart : comparedAt (stored (ofColumns source (twinValue source path "a" false)).2)
      (stored (ofColumns source (twinValue source path "b" true)).2) idPath ≠ .eq := by
    rw [hid]
    exact Ordering.noConfusion
  have hrows := byKeys_append_id keys apart
  have hdocs := byKeys_distinctKeys keys apart
  rw [hfind, Option.elim_some, hd, Option.getD_some, hown] at hrows
  rw [hfind, Option.elim_some, hd', Option.getD_some, hown] at hdocs
  unfold twins
  rw [listedBy_pair, listedBy_pair, hrows, hdocs]
  constructor
  · cases d <;> rfl
  · cases d' <;> rfl

/-- Where the first and the last key of a path that may decide differ, a page that shows the twins
begins with one on one side and with the other on the other. -/
theorem shownIds_twins_ne {keys : List (String × Direction)}
    (hkeys : ∀ k ∈ keys, ∃ c ∈ source.table.columns, k.1 = pathOf source.registry c.name)
    (decisive : path ∈ decisivePaths keys)
    (unlike : firstDirection keys path ≠ lastDirection keys path) {request : Request}
    (atStart : request.offset.getD 0 = 0) (hlimit : 0 < request.limit) :
    shownIds source request (listedBy (keys ++ [(idPath, .ascending)]) (twins source path)) ≠
      shownIds source request
        (listedBy (distinctKeys (withTiebreaker keys)) (twins source path)) := by
  have hmem : path ∈ keys.map Prod.fst := by
    by_contra hmem
    apply unlike
    rw [Option.not_isSome_iff_eq_none.mp (mt isSome_firstDirection_iff.mp hmem),
      Option.not_isSome_iff_eq_none.mp (mt isSome_lastDirection_iff.mp hmem)]
  obtain ⟨d, hd⟩ := Option.isSome_iff_exists.mp (isSome_firstDirection_iff.mpr hmem)
  obtain ⟨d', hd'⟩ := Option.isSome_iff_exists.mp (isSome_lastDirection_iff.mpr hmem)
  obtain ⟨hrows, hdocs⟩ := listedBy_twins names ordinary hkeys decisive hd hd'
  rw [hd, hd'] at unlike
  rw [hrows, hdocs]
  intro heq
  have hhead := congrArg List.head? heq
  have hfirst : ∀ d : Direction,
      (shownIds source request (inDirection d (twins source path))).head? =
        some (.text (match d with | .ascending => "a" | .descending => "b")) := by
    intro d
    cases d with
    | ascending =>
        change (shownIds source request (_ :: _)).head? = _
        rw [head?_shownIds atStart hlimit, view_id_twin names ordinary]
    | descending =>
        change (shownIds source request (_ :: _)).head? = _
        rw [head?_shownIds atStart hlimit, view_id_twin names ordinary]
  rw [hfirst, hfirst] at hhead
  cases d with
  | ascending =>
      cases d' with
      | ascending => exact unlike rfl
      | descending => simp at hhead
  | descending =>
      cases d' with
      | ascending => simp at hhead
      | descending => exact unlike rfl

end Twins

/-- Parameters that ask for an order, and for nothing else but a page. -/
structure Asks (listing : Listing) (order : Value) (params : Entries) (request : Request) :
    Prop where
  read : Request.ofParameters listing.settings params {} = .ok request
  order_eq : request.order = order
  unfiltered : request.filter = .object []
  textless : request.text = none
  offset_isSendable : IsSendable request.offset
  limit_isSendable : IsSendable (some request.limit)

/-- An order settles a listing if the keys that it leads to are settled. -/
def Settles (listing : Listing) (source : Source) (order : Value) : Prop :=
  ∀ ds, Order.compile listing.registry listing.settings.randomSeedLength order = .ok ds →
    IsSettled source (pathKeys source.registry (effective source.registry ds))

/-- An order has fewer keys than an engine takes: the identifier is one more. -/
def Fits (listing : Listing) (order : Value) : Prop :=
  ∀ ds, Order.compile listing.registry listing.settings.randomSeedLength order = .ok ds →
    ds.length < maxSortKeys

section Asks

variable {listing : Listing} {source : Source} {order : Value} {params : Entries}
variable {request : Request} (asks : Asks listing order params request)
include asks

theorem Asks.admits : Admits request.offset request.limit :=
  ⟨Request.isPage_of_ofRaw asks.read, asks.offset_isSendable, asks.limit_isSendable⟩

theorem Asks.fetchParameters {σ : Type} (adapter : Adapter σ) (s : σ) :
    (listing.fetchParameters adapter s params).2 = (listing.fetch adapter s request).2 := by
  unfold Listing.fetchParameters
  rw [asks.read]

theorem Asks.fetch_of_error {σ : Type} (adapter : Adapter σ) (s : σ) {e : Failure}
    (he : Order.compile listing.registry listing.settings.randomSeedLength order = .error e) :
    (listing.fetch adapter s request).2 = .error e := by
  unfold Listing.fetch
  rw [Plan.ofRequest_unfiltered _ _ _ _ asks.unfiltered, asks.order_eq, he]
  rfl

end Asks

/-- Where an order fits and settles a listing, a table and a collection of the same content list the
same identifiers in the same sequence. Where it does not, some content is listed differently. -/
theorem stores_list_alike {listing : Listing} {source : Source} {order : Value}
    (names : NamesColumns source) (same : listing.registry = source.registry)
    (unseeded : ∀ ds, Order.compile listing.registry listing.settings.randomSeedLength order =
      .ok ds → ∀ d ∈ ds, d.seed = none) :
    (Settles listing source order → Fits listing order →
      ∀ session docs pairs params request, Shared source session docs pairs →
        Asks listing order params request →
        identifiers source.registry
            (listing.fetchParameters (Relational.adapter source) { session } params).2 =
          identifiers source.registry (listing.fetchParameters (Document.adapter source.registry)
            { collection := .documents docs } params).2) ∧
    (IsOrdinary source → ¬Settles listing source order →
      ∃ session docs pairs, Shared source session docs pairs ∧
        ∀ params request, Asks listing order params request → request.offset.getD 0 = 0 →
          identifiers source.registry
              (listing.fetchParameters (Relational.adapter source) { session } params).2 ≠
            identifiers source.registry (listing.fetchParameters
              (Document.adapter source.registry) { collection := .documents docs } params).2) ∧
    (¬Fits listing order →
      ∀ session docs pairs params request, Shared source session docs pairs →
        Asks listing order params request →
        (listing.fetchParameters (Relational.adapter source) { session } params).2 =
            .error .queryRejected ∧
          ∃ ids, identifiers source.registry (listing.fetchParameters
            (Document.adapter source.registry) { collection := .documents docs } params).2 =
              .ok ids) := by
  have hexceeds : ¬Fits listing order →
      ∀ session docs pairs params request, Shared source session docs pairs →
        Asks listing order params request →
        (listing.fetchParameters (Relational.adapter source) { session } params).2 =
            .error .queryRejected ∧
          ∃ ids, identifiers source.registry (listing.fetchParameters
            (Document.adapter source.registry) { collection := .documents docs } params).2 =
              .ok ids := by
    intro exceeds session docs pairs params request shared asks
    simp only [Fits, not_forall, not_lt] at exceeds
    obtain ⟨ds, hds, exceeds⟩ := exceeds
    have hown := unseeded ds hds
    rw [← asks.order_eq] at hds
    rw [asks.fetchParameters, asks.fetchParameters]
    exact ⟨shared.rows_rejected names asks.unfiltered asks.textless hown hds asks.admits same exceeds,
      _, shared.documents_identifiers names asks.unfiltered asks.textless hown hds asks.admits⟩
  refine ⟨?_, ?_, hexceeds⟩
  · intro settles fits session docs pairs params request shared asks
    rw [asks.fetchParameters, asks.fetchParameters]
    cases hds : Order.compile listing.registry listing.settings.randomSeedLength order with
    | error e => rw [asks.fetch_of_error _ _ hds, asks.fetch_of_error _ _ hds]
    | ok ds =>
        have hown := hds
        rw [← asks.order_eq] at hds
        rw [shared.rows_identifiers names asks.unfiltered asks.textless (unseeded ds hown) hds
            asks.admits same (fits ds hown),
          shared.documents_identifiers names asks.unfiltered asks.textless (unseeded ds hown) hds
            asks.admits,
          shared.listedBy_eq names (settles ds hown)]
  · intro ordinary unsettled
    simp only [Settles, IsSettled, not_forall] at unsettled
    obtain ⟨ds, hds, path, decisive, unmarked, unlike⟩ := unsettled
    refine ⟨_, _, _, shared_twins names ordinary unmarked, ?_⟩
    intro params request asks atStart
    have hshared := shared_twins names ordinary unmarked
    by_cases fits : Fits listing order
    · have hcolumns : ∀ k ∈ pathKeys source.registry (effective source.registry ds),
          ∃ c ∈ source.table.columns, k.1 = pathOf source.registry c.name := by
        intro k hk
        obtain ⟨d, hd, rfl⟩ := List.mem_map.mp hk
        obtain ⟨c, hc, hname⟩ := named_effective names
          (named_of_compile names same hds (unseeded ds hds)) d hd
        exact ⟨c, hc, by rw [hname]⟩
      have hunlike := shownIds_twins_ne names ordinary hcolumns decisive unlike atStart
        asks.admits.isPage.limit_pos
      have hown := unseeded ds hds
      have hfits := fits ds hds
      rw [← asks.order_eq] at hds
      rw [asks.fetchParameters, asks.fetchParameters,
        hshared.rows_identifiers names asks.unfiltered asks.textless hown hds asks.admits same hfits,
        hshared.documents_identifiers names asks.unfiltered asks.textless hown hds asks.admits]
      exact fun heq => hunlike (Except.ok.inj heq)
    · obtain ⟨hrows, ids, hdocs⟩ := hexceeds fits _ _ _ _ _ hshared asks
      rw [hrows, hdocs]
      exact fun heq => nomatch heq

section Articles

def titleOrder (directions : List String) : Value :=
  .list (directions.map fun d => .object [(.text "title", .text d)])

def halfTitled : Database :=
  .ofValues articleTable [[.text "a", .null], [.text "b", .text "t"]]

def halfTitledDocuments : List Entries :=
  [(untitled "a").2, (titled "b" "t").2]

theorem namesColumns_articles : NamesColumns articleSource where
  fields := by
    change ∀ f ∈ [_, _], _
    simp only [List.forall_mem_cons]
    exact ⟨⟨⟨"id", .text⟩, .head _, rfl⟩, ⟨⟨"title", .text⟩, .tail _ (.head _), rfl⟩, by simp⟩
  defaultOrder := by
    change ∀ d ∈ [], _
    simp
  id := .head _

theorem shared_titled :
    Shared articleSource { database := halfTitled } halfTitledDocuments
      [untitled "a", titled "b" "t"] where
  table_eq := rfl
  present := rfl
  rows_perm := .refl _
  docs_perm := .refl _
  mirrors := by
    simp only [List.forall_mem_cons]
    exact ⟨mirrors_untitled "a", mirrors_titled "b" "t", by simp⟩
  names := by decide
  hasId := ⟨⟨"id", .text⟩, .head _, rfl⟩
  ordered := by decide
  faults := rfl
  keyed := ⟨Database.isKept_ofValues _ _, by decide⟩
  ids := by
    simp only [List.forall_mem_cons]
    exact ⟨⟨"a", rfl⟩, ⟨"b", rfl⟩, by simp⟩

theorem asks_title (directions : List String) (h : directions ≠ []) :
    Asks articleListing (titleOrder directions) [(.text "order", titleOrder directions)]
      { limit := 100, order := titleOrder directions } where
  read := by
    cases directions with
    | nil => exact absurd rfl h
    | cons d rest => rfl
  order_eq := rfl
  unfiltered := rfl
  textless := rfl
  offset_isSendable := by simp [IsSendable]
  limit_isSendable := by simp [IsSendable, isStorable]

theorem compile_titleOrder :
    Order.compile articleListing.registry articleListing.settings.randomSeedLength
      (titleOrder ["asc", "desc"]) =
        .ok [{ field := "title" }, { field := "title", direction := .descending }] := by
  decide

theorem stores_list_titles_alike :
    identifiers articleSource.registry
        (articleListing.fetchParameters (Relational.adapter articleSource)
          { session := { database := halfTitled } }
          [(.text "order", titleOrder ["desc"])]).2 =
      identifiers articleSource.registry
        (articleListing.fetchParameters (Document.adapter articleSource.registry)
          { collection := .documents halfTitledDocuments }
          [(.text "order", titleOrder ["desc"])]).2 ∧
    ∃ session docs pairs, Shared articleSource session docs pairs ∧
      identifiers articleSource.registry
          (articleListing.fetchParameters (Relational.adapter articleSource) { session }
            [(.text "order", titleOrder ["asc", "desc"])]).2 ≠
        identifiers articleSource.registry
          (articleListing.fetchParameters (Document.adapter articleSource.registry)
            { collection := .documents docs } [(.text "order", titleOrder ["asc", "desc"])]).2 := by
  constructor
  · have hcompile : Order.compile articleListing.registry
        articleListing.settings.randomSeedLength (titleOrder ["desc"]) =
          .ok [{ field := "title", direction := .descending }] := by decide
    have unseeded : ∀ ds, Order.compile articleListing.registry
        articleListing.settings.randomSeedLength (titleOrder ["desc"]) = .ok ds →
          ∀ d ∈ ds, d.seed = none := by
      intro ds hds
      cases hcompile.symm.trans hds
      simp
    have settles : Settles articleListing articleSource (titleOrder ["desc"]) := by
      intro ds hds path _ _
      cases hcompile.symm.trans hds
      rfl
    have fits : Fits articleListing (titleOrder ["desc"]) := by
      intro ds hds
      cases hcompile.symm.trans hds
      decide
    exact (stores_list_alike namesColumns_articles rfl unseeded).1
      settles fits _ _ _ _ _ shared_titled (asks_title ["desc"] (by simp))
  · have unseeded : ∀ ds, Order.compile articleListing.registry
        articleListing.settings.randomSeedLength (titleOrder ["asc", "desc"]) = .ok ds →
          ∀ d ∈ ds, d.seed = none := by
      intro ds hds
      cases compile_titleOrder.symm.trans hds
      simp
    have ordinary : IsOrdinary articleSource :=
      ⟨by decide, by decide, (fun c hc => nomatch hc), by decide, by decide⟩
    have unsettled : ¬Settles articleListing articleSource (titleOrder ["asc", "desc"]) := by
      intro settles
      have htitle := settles _ compile_titleOrder "title" (.head _) fun c hc => by cases hc
      cases htitle
    obtain ⟨session, docs, pairs, shared, hunlike⟩ :=
      (stores_list_alike namesColumns_articles rfl unseeded).2.1
        ordinary unsettled
    exact ⟨session, docs, pairs, shared, hunlike _ _ (asks_title ["asc", "desc"] (by simp)) rfl⟩

/-- Ordered by one title both ways, a table goes by the first and a collection by the last. -/
theorem titles_listed_both_ways :
    identifiers articleSource.registry
        (articleListing.fetchParameters (Relational.adapter articleSource)
          { session := { database := halfTitled } }
          [(.text "order", titleOrder ["asc", "desc"])]).2 = .ok [.text "a", .text "b"] ∧
      identifiers articleSource.registry
        (articleListing.fetchParameters (Document.adapter articleSource.registry)
          { collection := .documents halfTitledDocuments }
          [(.text "order", titleOrder ["asc", "desc"])]).2 = .ok [.text "b", .text "a"] := by
  have asks := asks_title ["asc", "desc"] (by simp)
  have unseeded : ∀ d ∈ [({ field := "title" } : SortDirective),
      { field := "title", direction := .descending }], d.seed = none := by simp
  have hkeys : pathKeys articleSource.registry (effective articleSource.registry
      [{ field := "title" }, { field := "title", direction := .descending }]) =
        [("title", .ascending), ("title", .descending)] := rfl
  have hfirst : listedBy ([("title", .ascending), ("title", .descending)] ++
      [(idPath, .ascending)]) [untitled "a", titled "b" "t"] = [untitled "a", titled "b" "t"] := by
    rw [listedBy_pair]
    exact if_pos (by decide)
  have hlast : listedBy (distinctKeys (withTiebreaker
      [("title", .ascending), ("title", .descending)])) [untitled "a", titled "b" "t"] =
        [titled "b" "t", untitled "a"] := by
    rw [listedBy_pair]
    exact if_neg (by decide)
  have hrows := shared_titled.rows_identifiers namesColumns_articles asks.unfiltered asks.textless
    unseeded compile_titleOrder asks.admits rfl (by decide)
  have hdocs := shared_titled.documents_identifiers namesColumns_articles asks.unfiltered
    asks.textless unseeded compile_titleOrder asks.admits
  rw [hkeys, hfirst] at hrows
  rw [hkeys, hlast] at hdocs
  rw [asks.fetchParameters, asks.fetchParameters]
  exact ⟨hrows, hdocs⟩

end Articles

end Catalogue.Parity
