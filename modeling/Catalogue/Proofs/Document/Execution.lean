import Catalogue.Document.Adapter
import Catalogue.Proofs.Store.Page

/-!
What a run of the document adapter answers: the pipeline that calls make, and the page that documents
in memory give for it.
-/

namespace Catalogue.Document

def Pipeline.addAll (registry : Registry) (p : Pipeline) (calls : List Call) : Pipeline :=
  calls.foldl (Pipeline.add registry) p

theorem Pipeline.add_of_isIdle (registry : Registry) (p : Pipeline) {call : Call}
    (h : isIdle call = true) : p.add registry call = p := by
  cases call with
  | range f lower upper =>
      obtain ⟨hl, hu⟩ : lower.isNull = true ∧ upper.isNull = true := by
        simpa [isIdle] using h
      simp [add, conditionsOf, hl, hu]
  | _ => exact absurd h (by simp [isIdle])

theorem conditionsOf_atLeast (registry : Registry) (f : String) {v : Value}
    (h : v.isNull = false) : conditionsOf registry (Predicate.atLeast f v).call =
      [.atLeast (pathOf registry f) v] := by
  change (if v.isNull then [] else [_]) ++ [] = _
  rw [h]
  rfl

theorem conditionsOf_atMost (registry : Registry) (f : String) {v : Value}
    (h : v.isNull = false) : conditionsOf registry (Predicate.atMost f v).call =
      [.atMost (pathOf registry f) v] := by
  change [] ++ (if v.isNull then [] else [_]) = _
  rw [h]
  rfl

theorem adapter_applyAll {registry : Registry} {s : Session} (h : s.executed = false)
    (calls : List Call) :
    (adapter registry).applyAll s calls =
      ({ s with pipeline := s.pipeline.addAll registry calls }, .ok ()) := by
  induction calls generalizing s with
  | nil => rfl
  | cons call rest ih =>
      have happly : (adapter registry).apply s call =
          ({ s with pipeline := s.pipeline.add registry call }, .ok ()) := by
        change apply registry s call = _
        unfold apply
        cases hidle : isIdle call with
        | true => rw [if_pos rfl, Pipeline.add_of_isIdle registry s.pipeline hidle]
        | false =>
            have hspent : ¬s.executed = true := by simp [h]
            rw [if_neg Bool.false_ne_true, if_neg hspent]
      simp only [Adapter.applyAll, happly]
      exact ih (s := { s with pipeline := s.pipeline.add registry call }) h

def sortKeyOf (registry : Registry) (d : SortDirective) : String × Direction :=
  if d.seed.isSome then (randomPath, .descending) else (pathOf registry d.field, d.direction)

/-- The seed of directives: the last one given. -/
def seedOf (sort : List SortDirective) : Option String :=
  sort.foldl (fun seed d => d.seed.or seed) none

def pipelineOf (registry : Registry) (plan : Plan) (request : Request) : Pipeline where
  text := request.text.bind fun text => if text.isEmpty then none else searchText text
  conditions := plan.predicates.flatMap fun p => conditionsOf registry p.call
  sort := plan.sort.map (sortKeyOf registry)
  seed := seedOf plan.sort
  offset := request.offset
  limit := some request.limit

theorem addAll_predicates (registry : Registry) (p : Pipeline) (ps : List Predicate) :
    p.addAll registry (ps.map Predicate.call) =
      { p with conditions := p.conditions ++ ps.flatMap fun p => conditionsOf registry p.call } := by
  induction ps generalizing p with
  | nil => simp [Pipeline.addAll]
  | cons first rest ih =>
      have hadd : p.add registry first.call =
          { p with conditions := p.conditions ++ conditionsOf registry first.call } := by
        cases first <;> rfl
      change (p.add registry first.call).addAll registry (rest.map Predicate.call) = _
      rw [ih, hadd]
      simp

theorem addAll_directives (registry : Registry) (p : Pipeline) (sort : List SortDirective) :
    p.addAll registry (sort.map SortDirective.call) =
      { p with
        sort := p.sort ++ sort.map (sortKeyOf registry)
        seed := sort.foldl (fun seed d => d.seed.or seed) p.seed } := by
  induction sort generalizing p with
  | nil => simp [Pipeline.addAll]
  | cons first rest ih =>
      have hadd : p.add registry first.call =
          { p with sort := p.sort ++ [sortKeyOf registry first], seed := first.seed.or p.seed } := by
        unfold SortDirective.call sortKeyOf
        cases first.seed <;> rfl
      change (p.add registry first.call).addAll registry (rest.map SortDirective.call) = _
      rw [ih, hadd]
      simp

theorem addAll_calls (registry : Registry) (plan : Plan) (request : Request) :
    ({} : Pipeline).addAll registry (plan.calls request) = pipelineOf registry plan request := by
  have happend : ∀ (p : Pipeline) (xs ys : List Call),
      p.addAll registry (xs ++ ys) = (p.addAll registry xs).addAll registry ys := by
    intro p xs ys
    exact List.foldl_append
  unfold Plan.calls
  rw [happend, happend, addAll_predicates, addAll_directives]
  unfold pipelineOf seedOf
  cases request.text with
  | none => simp [Pipeline.addAll, Pipeline.add]
  | some text => by_cases h : text = "" <;> simp [Pipeline.addAll, Pipeline.add, h]

section Answer

variable (rows : List Entries) (count : Nat)

theorem totalOf_answer : totalOf (answer rows count) = .ok count := by
  unfold answer
  cases count with
  | zero => rfl
  | succ n => rfl

theorem rowsOf_answer (registry : Registry) :
    rowsOf registry (answer rows count) = rows.mapM (rowOf registry) := by
  change (rows.map Value.object).mapM (rowOfValue registry) = _
  rw [List.mapM_map]
  rfl

end Answer

/-- The number of matches that is read from the answer to a pipeline, if one is. -/
def Collection.count? (c : Collection) (p : Pipeline) : Option Int :=
  match c.ask p with
  | .ok answers => (totalOf (answers.head?.getD [])).toOption
  | .error _ => none

/-- The page that is read from what a collection answers, if one is. -/
def pageOf (registry : Registry) : Except StoreFault (List Entries) → Outcome Page
  | .error fault => .error (failureOf fault)
  | .ok answers =>
    match totalOf (answers.head?.getD []) with
    | .error fault => .error (.fault fault)
    | .ok total =>
      match rowsOf registry (answers.head?.getD []) with
      | .error fault => .error (.fault fault)
      | .ok rows => .ok { rows, total }

theorem pageOf_answer (registry : Registry) (found : List Entries) (count : Nat) :
    pageOf registry (.ok [answer found count]) = Page.of (rowOf registry) found count := by
  unfold Page.of
  simp only [pageOf, List.head?_cons, Option.getD_some, totalOf_answer, rowsOf_answer]
  cases found.mapM (rowOf registry) <;> rfl

theorem count?_of_pageOf {registry : Registry} {c : Collection} {p : Pipeline} {page : Page}
    (h : pageOf registry (c.ask p) = .ok page) : c.count? p = some page.total := by
  unfold Collection.count?
  cases hask : c.ask p with
  | error fault => simp [hask, pageOf] at h
  | ok answers =>
      rw [hask] at h
      unfold pageOf at h
      dsimp only at h ⊢
      cases htotal : totalOf (answers.head?.getD []) with
      | error fault => simp [htotal] at h
      | ok total =>
          rw [htotal] at h
          cases hrows : rowsOf registry (answers.head?.getD []) with
          | error fault => simp [hrows] at h
          | ok rows =>
              rw [hrows] at h
              cases h
              rfl

/-- An open session sends its completed pipeline, keeps what it counts, and answers what it reads. -/
theorem execute_of_open {registry : Registry} {s : Session} (h : s.executed = false) :
    execute registry s =
      ({ s with
          executed := true
          sent := s.sent ++ [s.pipeline.completed registry]
          total := (s.collection.count? (s.pipeline.completed registry)).getD s.total },
        pageOf registry (s.collection.ask (s.pipeline.completed registry))) := by
  simp only [execute, h, Collection.count?]
  cases s.collection.ask (s.pipeline.completed registry) with
  | error fault => rfl
  | ok answers =>
      simp only [pageOf]
      cases totalOf (answers.head?.getD []) with
      | error fault => rfl
      | ok total => cases rowsOf registry (answers.head?.getD []) <;> rfl

theorem execute_of_spent {registry : Registry} {s : Session} (h : s.executed = true) :
    execute registry s = (s, .error .adapterSpent) := by
  unfold execute
  rw [if_pos h]

/-- What documents in memory answer to a pipeline that asks for neither free text nor a random
order. -/
def Pipeline.outcome (registry : Registry) (p : Pipeline) (docs : List Entries) : Outcome Page :=
  let found := matching p.conditions (docs.map stored)
  Page.of (rowOf registry) (p.page found) found.length

theorem execute_outcome {registry : Registry} {s : Session} {docs : List Entries}
    (fresh : s.executed = false) (hdocs : s.collection = .documents docs)
    (htext : s.pipeline.text = none) (hseed : s.pipeline.seed = none) :
    (execute registry s).2 = (s.pipeline.completed registry).outcome registry docs := by
  have htext' : (s.pipeline.completed registry).text = none := htext
  have hseed' : (s.pipeline.completed registry).seed = none := hseed
  rw [execute_of_open fresh]
  unfold Pipeline.outcome
  dsimp only
  generalize s.pipeline.completed registry = p at *
  have hask : s.collection.ask p =
      .ok [answer (p.page (matching p.conditions (docs.map stored)))
        (matching p.conditions (docs.map stored)).length] := by
    rw [hdocs]
    simp [Collection.ask, htext', hseed']
  rw [hask, pageOf_answer]

/-- A run of a fresh adapter answers the pipeline that the calls make. -/
theorem adapter_run_outcome {registry : Registry} {docs : List Entries} {calls : List Call}
    {p : Pipeline} (hp : ({} : Pipeline).addAll registry calls = p)
    (htext : p.text = none) (hseed : p.seed = none) :
    ((adapter registry).run { collection := .documents docs } calls).2 =
      (p.completed registry).outcome registry docs := by
  subst hp
  unfold Adapter.run
  rw [adapter_applyAll rfl]
  exact execute_outcome
    (s := { collection := .documents docs, pipeline := ({} : Pipeline).addAll registry calls })
    rfl rfl htext hseed

end Catalogue.Document
