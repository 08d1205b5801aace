import Catalogue.Proofs.Query.Forms
import Catalogue.Proofs.Store.Paging
import Catalogue.Proofs.Store.SingleUse

/-!
Whether a compiled request can be told to a table. The columns are there where the fields are columns,
and the only thing that a table then refuses is a bound that is a truth value, which compiles on every
field that is not a moment.
-/

namespace Catalogue

open Calendar (Date)

def Value.isTruth : Value → Bool
  | .bool _ => true
  | _ => false

/-- Is one of the bounds that are asked for a truth value? -/
def Term.boundsByTruth : Term → Bool
  | .range lower upper _ => lower.isTruth || upper.isTruth
  | _ => false

def Call.boundsByTruth : Call → Bool
  | .range _ lower upper => lower.isTruth || upper.isTruth
  | _ => false

/-- Does a filter bound one of the registry's fields by a truth value? -/
def Filter.boundsByTruth (registry : Registry) : Value → Bool
  | .object es =>
    registry.fields.any fun f =>
      (Entries.get? es f.name).any fun raw => (Term.ofValue raw).boundsByTruth
  | _ => false

namespace Field

variable {today : Date} {f : Field}

/-- A truth value that is a usable bound stays one, as no moment is read from it. -/
theorem isTruth_of_bound {v : Value} {made : Option Value} (h : f.bound today v = .ok made) :
    made.any Value.isTruth = v.isTruth := by
  rcases cases_of_bound h with ⟨hscalar, rfl⟩ | ⟨-, w, rfl, -, ⟨m, rfl, -, hm⟩ | ⟨rfl, -⟩⟩
  · cases v with
    | bool b => cases hscalar
    | _ => rfl
  · cases v with
    | bool b => cases hm
    | _ => rfl
  · rfl

theorem boundsByTruth_of_excluding {values : List Value} {ps : List Predicate}
    (h : f.excluding today values = .ok ps) :
    (ps.any fun p => p.call.boundsByTruth) = false := by
  rw [List.any_eq_false]
  intro p hp
  obtain ⟨-, hexcludes⟩ := admits_of_excluding h p hp
  cases p with
  | notEquals field v => exact Bool.false_ne_true
  | isSet field => exact Bool.false_ne_true
  | _ => cases hexcludes

theorem boundsByTruth_of_among {values : List Value} {ps : List Predicate}
    (h : (do return [← f.among today values]) = Except.ok ps) :
    (ps.any fun p => p.call.boundsByTruth) = false := by
  obtain ⟨p, hp, h⟩ := Outcome.bind_eq_ok_iff.mp h
  obtain ⟨members, -, hp⟩ := Outcome.bind_eq_ok_iff.mp hp
  cases hp
  cases h
  rfl

theorem boundsByTruth_of_equalTo {v : Value} {ps : List Predicate}
    (h : (do return [← f.equalTo today v]) = Except.ok ps) :
    (ps.any fun p => p.call.boundsByTruth) = false := by
  obtain ⟨p, hp, h⟩ := Outcome.bind_eq_ok_iff.mp h
  cases h
  unfold equalTo at hp
  split at hp
  · cases hp
    rfl
  · obtain ⟨w, -, hp⟩ := Outcome.bind_eq_ok_iff.mp hp
    cases hp
    rfl

theorem boundsByTruth_of_within {lower upper : Value} {values : List Value} {ps : List Predicate}
    (h : f.within today lower upper values = .ok ps) :
    (ps.any fun p => p.call.boundsByTruth) = (lower.isTruth || upper.isTruth) := by
  obtain ⟨least, hleast, h⟩ := Outcome.bind_eq_ok_iff.mp h
  obtain ⟨most, hmost, h⟩ := Outcome.bind_eq_ok_iff.mp h
  rw [← isTruth_of_bound hleast, ← isTruth_of_bound hmost]
  cases least with
  | none =>
      cases most with
      | none => exact boundsByTruth_of_among h
      | some u =>
          cases h
          simp [Predicate.call, Call.boundsByTruth, Value.isTruth]
  | some l =>
      cases most with
      | none =>
          cases h
          simp [Predicate.call, Call.boundsByTruth, Value.isTruth]
      | some u =>
          cases h
          simp [Predicate.call, Call.boundsByTruth, Value.isTruth]

theorem boundsByTruth_of_predicates {raw : Value} {ps : List Predicate}
    (h : f.predicates today raw = .ok ps) :
    (ps.any fun p => p.call.boundsByTruth) = (Term.ofValue raw).boundsByTruth := by
  unfold predicates at h
  cases hterm : Term.ofValue raw with
  | negated values =>
      rw [hterm] at h
      exact boundsByTruth_of_excluding h
  | range lower upper values =>
      rw [hterm] at h
      exact boundsByTruth_of_within h
  | members values =>
      rw [hterm] at h
      exact boundsByTruth_of_among h
  | absent =>
      rw [hterm] at h
      cases h
      rfl
  | single v =>
      rw [hterm] at h
      exact boundsByTruth_of_equalTo h

end Field

namespace Filter

variable {today : Date} {registry : Registry}

theorem boundsByTruth_of_compileFields {es : Entries} {fields : List Field} {ps : List Predicate}
    (h : compileFields today es fields = .ok ps) :
    (ps.any fun p => p.call.boundsByTruth) = fields.any fun f =>
      (es.get? f.name).any fun raw => (Term.ofValue raw).boundsByTruth := by
  induction fields generalizing ps with
  | nil =>
      cases h
      rfl
  | cons f rest ih =>
      unfold compileFields at h
      rw [List.any_cons]
      cases hraw : es.get? f.name with
      | none =>
          rw [hraw] at h
          rw [ih h, Option.any_none, Bool.false_or]
      | some raw =>
          rw [hraw] at h
          obtain ⟨first, hfirst, h⟩ := Outcome.bind_eq_ok_iff.mp h
          obtain ⟨others, hothers, h⟩ := Outcome.bind_eq_ok_iff.mp h
          cases h
          rw [List.any_append, Field.boundsByTruth_of_predicates hfirst, ih hothers,
            Option.any_some]

theorem boundsByTruth_of_compile {filter : Value} {ps : List Predicate}
    (h : compile today registry filter = .ok ps) :
    (ps.any fun p => p.call.boundsByTruth) = boundsByTruth registry filter := by
  cases filter with
  | object es => exact boundsByTruth_of_compileFields h
  | _ => cases h

end Filter

namespace Relational

/-- Are the columns there that a call is about? -/
def Source.hasColumnsOf (source : Source) : Call → Bool
  | .equality f _ | .negatedEquality f _ | .range f _ _ | .membership f _ | .pattern f _
  | .absence f | .existence f | .sort f _ => (source.table.column? f).isSome
  | .randomSort _ | .pagination .. => true
  | .textSearch _ => source.textFields.all fun f => (source.table.column? f).isSome

/-- What an open draft says to a call whose columns are there. -/
def answerTo (refused : Bool) : Outcome Unit :=
  if refused then .error (.fault .badArgument) else .ok ()

namespace Change

variable {source : Source}

theorem outcome_onColumn {f : String} (h : (source.table.column? f).isSome = true)
    (change : Column → Change) : (onColumn (source.column f) change).2 = .ok () := by
  obtain ⟨c, hc⟩ := Option.isSome_iff_exists.mp h
  simp [onColumn, Source.column, hc]

theorem outcome_ofBound (c : Column) (comparison : Comparison) (v : Value) :
    (ofBound c comparison v).2 = answerTo v.isTruth := by
  cases v <;> rfl

theorem outcome_andThen {first second : Change × Outcome Unit} {refused refused' : Bool}
    (h : first.2 = answerTo refused) (h' : second.2 = answerTo refused') :
    (andThen first second).2 = answerTo (refused || refused') := by
  obtain ⟨c, outcome⟩ := first
  dsimp only at h
  subst h
  cases refused with
  | true => rfl
  | false => exact h'

theorem outcome_ofCall {call : Call} (h : source.hasColumnsOf call = true) :
    (ofCall source call).2 = answerTo call.boundsByTruth := by
  cases call with
  | equality f v => exact outcome_onColumn h _
  | negatedEquality f v => exact outcome_onColumn h _
  | membership f vs => exact outcome_onColumn h _
  | pattern f w => exact outcome_onColumn h _
  | absence f => exact outcome_onColumn h _
  | existence f => exact outcome_onColumn h _
  | sort f direction => exact outcome_onColumn h _
  | randomSort seed => rfl
  | pagination offset limit => rfl
  | range f lower upper =>
      obtain ⟨c, hc⟩ := Option.isSome_iff_exists.mp h
      simp only [ofCall, Source.column, hc]
      exact outcome_andThen (outcome_ofBound c _ lower) (outcome_ofBound c _ upper)
  | textSearch text =>
      have hcolumns : source.textColumns.isOk = true := source.isOk_textColumns.trans h
      simp only [ofCall]
      split
      · rfl
      · cases hcs : source.textColumns with
        | error e =>
            rw [hcs] at hcolumns
            cases hcolumns
        | ok cs => rfl

/-- Of calls whose columns are there, the first that bounds by a truth value is refused. -/
theorem outcome_ofCalls {calls : List Call} (h : ∀ call ∈ calls, source.hasColumnsOf call = true) :
    (ofCalls source calls).2 = answerTo (calls.any Call.boundsByTruth) := by
  induction calls with
  | nil => rfl
  | cons call rest ih =>
      obtain ⟨hcall, hrest⟩ := List.forall_mem_cons.mp h
      exact outcome_andThen (outcome_ofCall hcall) (ih hrest)

end Change

section Columns

variable {source : Source} {today : Date} {registry : Registry} {settings : Settings}
  (columns : ∀ f ∈ registry.fields, (source.table.column? f.name).isSome = true)
include columns

theorem hasColumnsOf_predicates {filter : Value} {ps : List Predicate}
    (h : Filter.compile today registry filter = .ok ps) :
    ∀ call ∈ ps.map Predicate.call, source.hasColumnsOf call = true := by
  rw [List.forall_mem_map]
  intro p hp
  obtain ⟨hname, -⟩ := Filter.holds_of_compile h p hp
  obtain ⟨f, hf, hfield⟩ := List.mem_map.mp hname
  have hcolumn := columns f hf
  rw [hfield] at hcolumn
  cases p <;> exact hcolumn

theorem hasColumnsOf_sort {seedLength : Int} {order : Value} {ds : List SortDirective}
    (h : Order.compile registry seedLength order = .ok ds) :
    ∀ call ∈ ds.map SortDirective.call, source.hasColumnsOf call = true := by
  rw [List.forall_mem_map]
  intro d hd
  unfold SortDirective.call
  cases hseed : d.seed with
  | some seed => rfl
  | none =>
      obtain ⟨f, hf, hname⟩ := Registry.has_iff.mp (Order.has_of_compile h d hd hseed)
      have hcolumn := columns f hf
      rw [hname] at hcolumn
      exact hcolumn

end Columns

theorem boundsByTruth_sort (ds : List SortDirective) :
    (ds.map SortDirective.call).any Call.boundsByTruth = false := by
  rw [List.any_map, List.any_eq_false]
  intro d _
  simp only [Function.comp, SortDirective.call]
  cases d.seed <;> exact Bool.false_ne_true

theorem boundsByTruth_calls (plan : Plan) (request : Request) :
    (plan.calls request).any Call.boundsByTruth =
      plan.predicates.any fun p => p.call.boundsByTruth := by
  rw [Plan.calls, List.any_append, List.any_append, boundsByTruth_sort, List.any_map,
    Bool.or_false]
  cases request.text with
  | none => exact Bool.or_false _
  | some text =>
      dsimp only
      split <;> exact Bool.or_false _

/-- Where the fields are columns, a table takes all conditions and sort directives that a request
compiles to, unless the filter bounds an open field by a truth value, which it then refuses. The same
goes for all calls of the request, where the columns for free text are there. -/
theorem compiled_requests_apply (source : Source) (today : Date) (registry : Registry)
    (settings : Settings) (columns : ∀ f ∈ registry.fields, (source.table.column? f.name).isSome = true)
    {request : Request} {plan : Plan}
    (h : Plan.ofRequest today registry settings false request = .ok plan) (session : Session) :
    let outcome := answerTo
      (Filter.boundsByTruth registry (Plan.withoutMarker settings request.filter))
    ((adapter source).applyAll { session }
        (plan.predicates.map Predicate.call ++ plan.sort.map SortDirective.call)).2 = outcome ∧
      ((∀ name ∈ source.textFields, (source.table.column? name).isSome = true) →
        ((adapter source).applyAll { session } (plan.calls request)).2 = outcome) := by
  intro outcome
  obtain ⟨predicates, hpredicates, h⟩ := Outcome.bind_eq_ok_iff.mp h
  obtain ⟨sort, hsort, h⟩ := Outcome.bind_eq_ok_iff.mp h
  cases h
  have compiled : ∀ call ∈ predicates.map Predicate.call ++ sort.map SortDirective.call,
      source.hasColumnsOf call = true :=
    List.forall_mem_append.mpr
      ⟨hasColumnsOf_predicates columns hpredicates, hasColumnsOf_sort columns hsort⟩
  have hfilter : (predicates.any fun p => p.call.boundsByTruth) =
      Filter.boundsByTruth registry (Plan.withoutMarker settings request.filter) :=
    Filter.boundsByTruth_of_compile hpredicates
  constructor
  · rw [adapter_applyAll rfl]
    refine (Change.outcome_ofCalls compiled).trans (congrArg answerTo ?_)
    rw [List.any_append, boundsByTruth_sort, Bool.or_false, List.any_map]
    exact hfilter
  · intro textColumns
    have hall : ∀ call ∈ Plan.calls { predicates, sort } request,
        source.hasColumnsOf call = true := by
      refine List.forall_mem_append.mpr ⟨compiled, List.forall_mem_cons.mpr ⟨rfl, ?_⟩⟩
      cases request.text with
      | none => exact List.forall_mem_nil _
      | some text =>
          dsimp only
          split
          · exact List.forall_mem_nil _
          · exact List.forall_mem_singleton.mpr (List.all_eq_true.mpr textColumns)
    rw [adapter_applyAll rfl]
    refine (Change.outcome_ofCalls hall).trans (congrArg answerTo ?_)
    rw [boundsByTruth_calls]
    exact hfilter

section Bounded

/-- A request with all that a table can be told, of which no bound is a truth value. -/
def boundedRequest : Request where
  limit := 10
  filter := .object [(.text "id", .object [(.text "from", .int 1), (.text "to", .text "b")]),
    (.text "title", .object [(.text "not", .list [.null, .bool true])])]
  order := .list [.object [(.text "random", .text "7")], .object [(.text "title", .text "desc")]]
  text := some "word"

def searchedSource : Source :=
  { articleSource with textFields := ["title"] }

theorem bounded_request_applies :
    ∃ plan, Plan.ofRequest default articleRegistry default false boundedRequest = .ok plan ∧
      (plan.calls boundedRequest).length = 8 ∧
      ((adapter searchedSource).applyAll { session := { database := articles } }
        (plan.calls boundedRequest)).2 = .ok () := by
  have hplan : Plan.ofRequest default articleRegistry default false boundedRequest = .ok _ := rfl
  obtain ⟨-, hcalls⟩ := compiled_requests_apply searchedSource default articleRegistry default
    (by decide) hplan { database := articles }
  exact ⟨_, hplan, rfl, hcalls (by decide)⟩

/-- A title that is bounded by a truth value compiles, and is refused when it is told to a table. -/
theorem truth_as_bound_is_refused :
    (∀ f ∈ articleRegistry.fields, (articleSource.table.column? f.name).isSome = true) ∧
      ∃ plan, Plan.ofRequest default articleRegistry default false {
          limit := 10
          filter := .object [(.text "title", .object [(.text "from", .bool true)])] } = .ok plan ∧
        ((adapter articleSource).applyAll { session := { database := articles } }
          (plan.predicates.map Predicate.call ++ plan.sort.map SortDirective.call)).2 =
          .error (.fault .badArgument) :=
  ⟨by decide, _, rfl, rfl⟩

end Bounded

end Relational

end Catalogue
