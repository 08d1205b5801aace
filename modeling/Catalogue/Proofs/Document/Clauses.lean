import Catalogue.Proofs.Document.Paging
import Catalogue.Proofs.Filter.Parts

/-!
Lists of clauses. The clauses of a list compile side by side, none of them merged with another, and
documents match the list when they match every clause.
-/

namespace Catalogue

namespace Filter

/-- A way to compile filters that takes a list clause by clause, where `single` is the way that takes
no lists. -/
structure IsClausewise (single compile : Value → Outcome (List Predicate)) : Prop where
  /-- The predicates of the first clauses stand in front of those of the others. -/
  append : ∀ as bs, compile (.list (as ++ bs)) = do
    return (← compile (.list as)) ++ (← compile (.list bs))
  /-- An object counts as a single clause. -/
  object : ∀ es, compile (.object es) = single (.object es)
  singleton : ∀ es, compile (.list [.object es]) = compile (.object es)
  /-- It fails exactly as the first clause that does. -/
  first_failure : ∀ clauses e, compile (.list clauses) = .error e ↔ ∃ before v rest,
    clauses = before ++ v :: rest ∧ (∀ b ∈ before, ∃ ps, asClause single b = .ok ps) ∧
      asClause single v = .error e

section Clausewise

variable {single compile : Value → Outcome (List Predicate)}

theorem IsClausewise.of_collect
    (list : ∀ clauses, compile (.list clauses) = collect (asClause single) clauses)
    (object : ∀ es, compile (.object es) = single (.object es)) : IsClausewise single compile where
  append as bs := by
    rw [list, list, list, collect_append]
  object := object
  singleton es := by
    rw [list, object, collect_cons, collect_nil]
    change (do return (← single (.object es)) ++ []) = _
    cases single (.object es) with
    | error e => rfl
    | ok ps => exact congrArg Except.ok (List.append_nil ps)
  first_failure clauses e := by
    rw [list, collect_eq_error_iff]

theorem IsClausewise.append_ok (h : IsClausewise single compile) {as bs : List Value}
    {ps qs : List Predicate} (ha : compile (.list as) = .ok ps) (hb : compile (.list bs) = .ok qs) :
    compile (.list (as ++ bs)) = .ok (ps ++ qs) := by
  rw [h.append, ha, hb]
  rfl

end Clausewise

theorem isClausewise_compileClauses (today : Calendar.Date) (registry : Registry) :
    IsClausewise (compile today registry) (compileClauses today registry) :=
  .of_collect (compileEach_eq_collect today registry) fun _ => rfl

end Filter

namespace Plan

variable (today : Calendar.Date) (registry : Registry) (settings : Settings)

/-- The predicates of what is left of a filter without the marker of deleted rows. -/
def compileOpen (acceptsClauses : Bool) (filter : Value) : Outcome (List Predicate) :=
  compileFilter today registry acceptsClauses (withoutMarker settings filter)

theorem isClausewise_compileOpen :
    Filter.IsClausewise (compileOpen today registry settings false)
      (compileOpen today registry settings true) := by
  refine .of_collect ?_ ?_
  · intro clauses
    unfold compileOpen
    rw [withoutMarker_list]
    refine (Filter.compileEach_eq_collect today registry _).trans ?_
    unfold collect
    rw [List.mapM_map]
    congr 2
    funext v
    cases v with
    | object es => exact congrArg (Filter.compile today registry) (withoutMarker_object settings es).symm
    | _ => rfl
  · intro es
    unfold compileOpen
    rw [withoutMarker_object]
    rfl

theorem ofRequest_object {request : Request} {es : Entries} (h : request.filter = .object es) :
    ofRequest today registry settings true request =
      ofRequest today registry settings false request := by
  have hfilter := (isClausewise_compileOpen today registry settings).object es
  unfold compileOpen at hfilter
  unfold ofRequest
  rw [h, hfilter]

theorem ofRequest_append {request : Request} {as bs : List Value} {plan other : Plan}
    (ha : ofRequest today registry settings true { request with filter := .list as } = .ok plan)
    (hb : ofRequest today registry settings true { request with filter := .list bs } = .ok other) :
    ofRequest today registry settings true { request with filter := .list (as ++ bs) } =
      .ok { plan with predicates := plan.predicates ++ other.predicates } := by
  obtain ⟨ps, hps, ha⟩ := Outcome.bind_eq_ok_iff.mp ha
  obtain ⟨qs, hqs, hb⟩ := Outcome.bind_eq_ok_iff.mp hb
  obtain ⟨sort, hsort, ⟨⟩⟩ := Outcome.bind_eq_ok_iff.mp ha
  obtain ⟨-, -, ⟨⟩⟩ := Outcome.bind_eq_ok_iff.mp hb
  have happend := (isClausewise_compileOpen today registry settings).append_ok hps hqs
  exact Outcome.bind_eq_ok_iff.mpr
    ⟨ps ++ qs, happend, Outcome.bind_eq_ok_iff.mpr ⟨sort, hsort, rfl⟩⟩

end Plan

namespace Document

/-- The documents that a pipeline finds, as they are stored. -/
def Pipeline.found (p : Pipeline) (docs : List Entries) : List Entries :=
  matching p.conditions (docs.map stored)

/-- A pipeline that asks for the conditions of another as well. -/
def Pipeline.and (p q : Pipeline) : Pipeline :=
  { p with conditions := p.conditions ++ q.conditions }

section Found

variable (p q : Pipeline) (docs : List Entries)

theorem Pipeline.found_and : (p.and q).found docs = matching q.conditions (p.found docs) := by
  unfold found matching
  rw [List.filter_filter]
  congr 1
  funext doc
  exact List.all_append.trans (Bool.and_comm _ _)

theorem Pipeline.mem_found_and {doc : Entries} :
    doc ∈ (p.and q).found docs ↔ doc ∈ p.found docs ∧ doc ∈ q.found docs := by
  rw [found_and]
  unfold found matching
  simp only [List.mem_filter]
  exact and_congr_right fun h => (and_iff_right h.1).symm

theorem Pipeline.found_and_sublist : ((p.and q).found docs).Sublist (p.found docs) := by
  rw [found_and]
  exact List.filter_sublist

end Found

variable {listing : Listing} {registry : Registry} {request : Request} {p q : Pipeline}

theorem pipelineFor_append {as bs : List Value}
    (hp : pipelineFor listing registry { request with filter := .list as } = .ok p)
    (hq : pipelineFor listing registry { request with filter := .list bs } = .ok q) :
    pipelineFor listing registry { request with filter := .list (as ++ bs) } = .ok (p.and q) := by
  obtain ⟨plan, hplan, rfl⟩ := pipelineFor_eq_ok_iff.mp hp
  obtain ⟨other, hother, rfl⟩ := pipelineFor_eq_ok_iff.mp hq
  refine pipelineFor_eq_ok_iff.mpr ⟨_, Plan.ofRequest_append _ _ _ hplan hother, ?_⟩
  unfold pipelineOf Pipeline.and
  rw [List.flatMap_append]

end Document

/-- A list of clauses means all of them at once, and an object is the list of it alone. Over
documents the clauses of two lists together find just what both find. -/
theorem clauses_hold_together (listing : Listing) (registry : Registry) :
    Filter.IsClausewise (Filter.compile listing.today listing.registry)
      (Filter.compileClauses listing.today listing.registry) ∧
    Filter.IsClausewise
      (Plan.compileOpen listing.today listing.registry listing.settings false)
      (Plan.compileOpen listing.today listing.registry listing.settings true) ∧
    ∀ request : Request,
      (∀ es, request.filter = .object es →
        Plan.ofRequest listing.today listing.registry listing.settings true request =
          Plan.ofRequest listing.today listing.registry listing.settings false request) ∧
      ∀ as bs p q,
        Document.pipelineFor listing registry { request with filter := .list as } = .ok p →
        Document.pipelineFor listing registry { request with filter := .list bs } = .ok q →
        Document.pipelineFor listing registry { request with filter := .list (as ++ bs) } =
          .ok (p.and q) ∧
        ∀ docs : List Entries,
          (∀ doc, doc ∈ (p.and q).found docs ↔ doc ∈ p.found docs ∧ doc ∈ q.found docs) ∧
          ((p.and q).found docs).Sublist (p.found docs) ∧
          (p.text = none → p.seed = none →
            (listing.fetch (Document.adapter registry) { collection := .documents docs }
                { request with filter := .list (as ++ bs) }).2 =
              Page.of (Document.rowOf registry)
                ((p.completed registry).page ((p.and q).found docs))
                ((p.and q).found docs).length) := by
  refine ⟨Filter.isClausewise_compileClauses _ _, Plan.isClausewise_compileOpen _ _ _, ?_⟩
  intro request
  refine ⟨fun es h => Plan.ofRequest_object _ _ _ h, ?_⟩
  intro as bs p q hp hq
  have hboth := Document.pipelineFor_append hp hq
  refine ⟨hboth, fun docs => ⟨fun doc => p.mem_found_and q docs, p.found_and_sublist q docs, ?_⟩⟩
  intro htext hseed
  exact Document.fetch_outcome docs hboth htext hseed

section Books

def bookListing : Listing where
  registry := bookRegistry
  settings := default
  today := default

def titledBooks : List Entries :=
  ["a", "b", "c"].map fun title => [(.text "title", .text title)]

def titledOtherwise (title : String) : Value :=
  .object [(.text "title", .object [(.text "not", .list [.text title])])]

/-- Two clauses on one field are both kept. -/
theorem books_with_neither_title :
    (bookListing.fetch (Document.adapter bookRegistry) { collection := .documents titledBooks }
      { limit := 10, filter := .list ([titledOtherwise "a"] ++ [titledOtherwise "b"]) }).2 =
        .ok { rows := [[(.text "title", .text "c")]], total := 1 } := by
  obtain ⟨-, -, hrequest⟩ := clauses_hold_together bookListing bookRegistry
  obtain ⟨-, hdocs⟩ := (hrequest { limit := 10 }).2 [titledOtherwise "a"] [titledOtherwise "b"]
    _ _ rfl rfl
  have hanswer := (hdocs titledBooks).2.2 rfl rfl
  generalize hfound : Document.Pipeline.found _ titledBooks = found at hanswer
  have hlast : found = [[(.text "title", .text "c")]] := hfound.symm.trans rfl
  subst hlast
  refine hanswer.trans ?_
  unfold Document.Pipeline.page Document.sorted
  rw [List.mergeSort_singleton]
  rfl

end Books

end Catalogue
