import Catalogue.Proofs.Document.Operators

/-!
The form of a pipeline: its keys and its nesting. Requests that are alike but for their values are
answered through pipelines of one form.
-/

namespace Catalogue

/-- Conditions of one sort on one field. -/
inductive Predicate.Alike : Predicate → Predicate → Prop
  | equals (f : String) (v w : Value) : Alike (.equals f v) (.equals f w)
  | notEquals (f : String) (v w : Value) : Alike (.notEquals f v) (.notEquals f w)
  | isSet (f : String) : Alike (.isSet f) (.isSet f)
  | isAbsent (f : String) : Alike (.isAbsent f) (.isAbsent f)
  | atLeast (f : String) (v w : Value) : Alike (.atLeast f v) (.atLeast f w)
  | atMost (f : String) (v w : Value) : Alike (.atMost f v) (.atMost f w)
  | isAmong (f : String) (vs ws : List Value) : Alike (.isAmong f vs) (.isAmong f ws)
  | matching (f : String) (v w : Wildcard) : Alike (.matching f v) (.matching f w)

/-- Directives that differ at most in the seed that both of them have. -/
structure SortDirective.Alike (d e : SortDirective) : Prop where
  field_eq : d.field = e.field
  direction_eq : d.direction = e.direction
  isRandom_eq : d.isRandom = e.isRandom

namespace Value

/-- Is there nothing inside the value? -/
def isLeaf : Value → Bool
  | .list _ | .object _ => false
  | _ => true

theorem isLeaf_of_isPlain {v : Value} (h : v.isPlain = true) : v.isLeaf = true := by
  cases v with
  | list items => cases h
  | object entries => cases h
  | _ => rfl

/-- The same keys and the same nesting at every depth, with leaves in the same places. Only the
members under `$in` may be more or fewer. -/
inductive SameForm : Value → Value → Prop
  | leaf {v w : Value} (hv : v.isLeaf = true) (hw : w.isLeaf = true) : SameForm v w
  | nil : SameForm (.list []) (.list [])
  | item {v w : Value} {vs ws : List Value} (h : SameForm v w)
      (hrest : SameForm (.list vs) (.list ws)) : SameForm (.list (v :: vs)) (.list (w :: ws))
  | empty : SameForm (.object []) (.object [])
  | entry {k v w : Value} {es fs : List (Value × Value)} (h : SameForm v w)
      (hrest : SameForm (.object es) (.object fs)) :
      SameForm (.object ((k, v) :: es)) (.object ((k, w) :: fs))
  | members {vs ws : List Value} {es fs : List (Value × Value)} (hvs : ∀ v ∈ vs, v.isLeaf = true)
      (hws : ∀ w ∈ ws, w.isLeaf = true) (hrest : SameForm (.object es) (.object fs)) :
      SameForm (.object ((.text "$in", .list vs) :: es)) (.object ((.text "$in", .list ws) :: fs))

namespace SameForm

theorem list {vs ws : List Value} (h : List.Forall₂ SameForm vs ws) :
    SameForm (.list vs) (.list ws) := by
  induction h with
  | nil => exact .nil
  | cons h _ ih => exact .item h ih

theorem single (key : String) {v w : Value} (h : SameForm v w) :
    SameForm (Document.single key v) (Document.single key w) :=
  .entry h .empty

theorem ofLeaves {es : List (Value × Value)} (h : ∀ e ∈ es, e.2.isLeaf = true) :
    SameForm (.object es) (.object es) := by
  induction es with
  | nil => exact .empty
  | cons e rest ih =>
      obtain ⟨he, hrest⟩ := List.forall_mem_cons.mp h
      exact .entry (.leaf he he) (ih hrest)

end SameForm

end Value

namespace Document

open Value (SameForm)

theorem sameForm_compared (path op : String) {v w : Value} (hv : v.isPlain = true)
    (hw : w.isPlain = true) :
    SameForm (single path (single op v)) (single path (single op w)) :=
  .single path (.single op (.leaf (Value.isLeaf_of_isPlain hv) (Value.isLeaf_of_isPlain hw)))

theorem sameForm_conditionsOf (registry : Registry) {p q : Predicate} (alike : p.Alike q)
    (hp : p.IsPlain) (hq : q.IsPlain) :
    List.Forall₂ SameForm ((conditionsOf registry p.call).map Condition.document)
      ((conditionsOf registry q.call).map Condition.document) := by
  cases alike with
  | equals f v w =>
      exact .cons (sameForm_compared _ _ (hp v (.head _)) (hq w (.head _))) .nil
  | notEquals f v w =>
      exact .cons (sameForm_compared _ _ (hp v (.head _)) (hq w (.head _))) .nil
  | atLeast f v w =>
      rw [conditionsOf_atLeast registry f (Value.isNull_of_isPlain (hp v (.head _))),
        conditionsOf_atLeast registry f (Value.isNull_of_isPlain (hq w (.head _)))]
      exact .cons (sameForm_compared _ _ (hp v (.head _)) (hq w (.head _))) .nil
  | atMost f v w =>
      rw [conditionsOf_atMost registry f (Value.isNull_of_isPlain (hp v (.head _))),
        conditionsOf_atMost registry f (Value.isNull_of_isPlain (hq w (.head _)))]
      exact .cons (sameForm_compared _ _ (hp v (.head _)) (hq w (.head _))) .nil
  | isAmong f vs ws =>
      have hvs : ∀ v ∈ vs, v.isLeaf = true := fun v hv => Value.isLeaf_of_isPlain (hp v hv)
      have hws : ∀ w ∈ ws, w.isLeaf = true := fun w hw => Value.isLeaf_of_isPlain (hq w hw)
      exact .cons (.single _ (.members hvs hws .empty)) .nil
  | matching f v w => exact .cons (.single _ (.single _ (.leaf rfl rfl))) .nil
  | isSet f => exact .cons (.single _ (.ofLeaves (by simp [Value.isLeaf]))) .nil
  | isAbsent f =>
      have hmissing : ∀ (op : String) {v : Value}, v.isLeaf = true →
          SameForm (single (pathOf registry f) (single op v))
            (single (pathOf registry f) (single op v)) :=
        fun op _ hv => .single _ (.single op (.leaf hv hv))
      exact .cons (.single _ (.item (hmissing _ rfl) (.item (hmissing _ rfl) .nil))) .nil

theorem sameForm_conditions (registry : Registry) {ps qs : List Predicate}
    (alike : List.Forall₂ Predicate.Alike ps qs) (hps : ∀ p ∈ ps, p.IsPlain)
    (hqs : ∀ q ∈ qs, q.IsPlain) :
    List.Forall₂ SameForm
      ((ps.flatMap fun p => conditionsOf registry p.call).map Condition.document)
      ((qs.flatMap fun q => conditionsOf registry q.call).map Condition.document) := by
  induction alike with
  | nil => exact .nil
  | cons h _ ih =>
      obtain ⟨hp, hps⟩ := List.forall_mem_cons.mp hps
      obtain ⟨hq, hqs⟩ := List.forall_mem_cons.mp hqs
      simp only [List.flatMap_cons, List.map_append]
      exact List.rel_append (sameForm_conditionsOf registry h hp hq) (ih hps hqs)

theorem sortKeyOf_eq (registry : Registry) {d e : SortDirective} (alike : d.Alike e) :
    sortKeyOf registry d = sortKeyOf registry e := by
  have hrandom : d.seed.isSome = e.seed.isSome := alike.isRandom_eq
  unfold sortKeyOf
  rw [alike.field_eq, alike.direction_eq, hrandom]

theorem map_sortKeyOf_eq (registry : Registry) {ds es : List SortDirective}
    (alike : List.Forall₂ SortDirective.Alike ds es) :
    ds.map (sortKeyOf registry) = es.map (sortKeyOf registry) := by
  induction alike with
  | nil => rfl
  | cons h _ ih => rw [List.map_cons, List.map_cons, sortKeyOf_eq registry h, ih]

theorem sort_completed_congr (registry : Registry) {p q : Pipeline} (h : p.sort = q.sort) :
    (p.completed registry).sort = (q.completed registry).sort := by
  unfold Pipeline.completed
  rw [h]

theorem isSome_seedOf_eq {ds es : List SortDirective}
    (alike : List.Forall₂ SortDirective.Alike ds es) :
    (seedOf ds).isSome = (seedOf es).isSome := by
  have hfold : ∀ s t : Option String, s.isSome = t.isSome →
      (ds.foldl (fun seed d => d.seed.or seed) s).isSome =
        (es.foldl (fun seed d => d.seed.or seed) t).isSome := by
    induction alike with
    | nil => exact fun s t h => h
    | cons h _ ih =>
        intro s t hst
        have hrandom := h.isRandom_eq
        refine ih _ _ ?_
        rw [Option.isSome_or, Option.isSome_or, hst]
        exact congrArg (· || t.isSome) hrandom
  exact hfold none none rfl

section Stages

variable {text text' : Option String} {seed seed' : Option String}
variable {offset offset' limit limit' : Option Int} {conditions conditions' : List Value}

theorem sameForm_randomStage (s t : String) : SameForm (randomStage s) (randomStage t) :=
  .single _ (.single _ (.single _ (.single _
    (.item (.leaf rfl rfl) (.item (.single _ (.leaf rfl rfl)) .nil)))))

theorem sameForm_numbers (key : String) {n n' : Option Int} (h : n.isSome = n'.isSome) :
    List.Forall₂ SameForm (n.toList.map fun m => single key (.int m))
      (n'.toList.map fun m => single key (.int m)) := by
  cases n with
  | none =>
      cases n' with
      | none => exact .nil
      | some m' => cases h
  | some m =>
      cases n' with
      | none => cases h
      | some m' => exact .cons (.single _ (.leaf rfl rfl)) .nil

theorem isSome_of_isNonZero {n : Option Int} (h : isNonZero n = true) : n.isSome = true := by
  cases n with
  | none => cases h
  | some m => rfl

theorem sameForm_pageStages (sort : List (String × Direction)) (hseed : seed.isSome = seed'.isSome)
    (hoffset : isNonZero offset = isNonZero offset') (hlimit : limit.isSome = limit'.isSome) :
    List.Forall₂ SameForm (pageStages sort seed offset limit)
      (pageStages sort seed' offset' limit') := by
  unfold pageStages
  rw [← hseed]
  refine .cons (.single _ (.ofLeaves ?_)) (List.rel_append (List.rel_append ?_ ?_) ?_)
  · intro e he
    obtain ⟨key, -, rfl⟩ := List.mem_map.mp he
    rfl
  · rw [← hoffset]
    split
    · rename_i h
      refine sameForm_numbers _ ?_
      rw [isSome_of_isNonZero h, isSome_of_isNonZero (hoffset ▸ h)]
    · exact .nil
  · exact sameForm_numbers _ hlimit
  · split
    · exact .cons (.single _ (.single _ (.leaf rfl rfl))) .nil
    · exact .nil

/-- Pipelines have one form where their conditions have, where they sort by the same keys, and where
each has a free text, a seed, an offset or a limit as the other has. -/
theorem sameForm_stages (sort : List (String × Direction)) (htext : text.isSome = text'.isSome)
    (nonempty : ∀ t ∈ text, t ≠ "") (nonempty' : ∀ t ∈ text', t ≠ "")
    (hconditions : List.Forall₂ SameForm conditions conditions')
    (hseed : seed.isSome = seed'.isSome) (hoffset : isNonZero offset = isNonZero offset')
    (hlimit : limit.isSome = limit'.isSome) :
    List.Forall₂ SameForm (stages text conditions sort seed offset limit)
      (stages text' conditions' sort seed' offset' limit') := by
  unfold stages
  refine List.rel_append (List.rel_append ?_ ?_) (.cons (.single _ ?_) .nil)
  · have hrequired : SameForm (.object [(.text "$and", .list conditions)])
        (.object [(.text "$and", .list conditions')]) :=
      .single _ (.list hconditions)
    cases text with
    | none =>
        cases text' with
        | some t' => cases htext
        | none =>
            cases hconditions with
            | nil => exact .nil
            | cons h hrest => exact .cons (.single _ hrequired) .nil
    | some t =>
        cases text' with
        | none => cases htext
        | some t' =>
            have ht : t.isEmpty = false := by simpa using nonempty t rfl
            have ht' : t'.isEmpty = false := by simpa using nonempty' t' rfl
            have hsearch {es fs : List (Value × Value)} (h : SameForm (.object es) (.object fs)) :
                SameForm (.object ((.text "$text", single "$search" (.text t)) :: es))
                  (.object ((.text "$text", single "$search" (.text t')) :: fs)) :=
              .entry (.single _ (.leaf rfl rfl)) h
            simp only [ht, ht', Bool.false_eq_true, if_false]
            cases hconditions with
            | nil => exact .cons (.single _ (hsearch .empty)) .nil
            | cons h hrest => exact .cons (.single _ (hsearch hrequired)) .nil
  · cases seed with
    | none =>
        cases seed' with
        | none => exact .nil
        | some s' => cases hseed
    | some s =>
        cases seed' with
        | none => cases hseed
        | some s' => exact .cons (sameForm_randomStage s s') .nil
  · have htotal : SameForm (.list [single "$count" (.text "count")])
        (.list [single "$count" (.text "count")]) :=
      .item (.single _ (.leaf rfl rfl)) .nil
    exact .entry (.list (sameForm_pageStages sort hseed hoffset hlimit)) (.entry htotal .empty)

end Stages

theorem ne_empty_of_searchText {s t : String} (h : searchText s = some t) : t ≠ "" := by
  unfold searchText at h
  dsimp only at h
  split at h
  · cases h
  · rename_i hne
    cases h
    simpa using hne

theorem text_pipelineOf (registry : Registry) (plan : Plan) (request : Request) :
    (pipelineOf registry plan request).text = request.text.bind searchText := by
  unfold pipelineOf
  cases request.text with
  | none => rfl
  | some s =>
      by_cases hs : s = ""
      · subst hs
        rfl
      · simp [hs]

end Document

open Document

/-- No value of a request with a decoded filter becomes an operator, and requests that compile alike
but for their values are answered through pipelines of one form. -/
theorem request_values_become_no_operators (listing : Listing) (registry : Registry)
    (collection : Collection) :
    (∀ (request : Request) (p : Pipeline), request.filter.IsJson →
      p ∈ (listing.fetch (adapter registry) { collection } request).1.sent →
      (∀ op ∈ operators, ∀ v, Operand op v false (.list p.documents) →
        v.isPlain = true ∨ ∃ c ∈ p.conditions, Operand op v false c.document) ∧
      ∀ c ∈ p.conditions, ∀ op ∈ operators, ∀ v, Operand op v false c.document →
        v.isPlain = true ∨
        (op = "$in" ∧ ∃ items, v = .list items ∧ ∀ item ∈ items, item.isPlain = true) ∨
        (v = .null ∧ ∃ path, c = .isAbsent path ∨ c = .isSet path)) ∧
    ∀ (request request' : Request) (plan plan' : Plan),
      request.filter.IsJson → request'.filter.IsJson →
      Plan.ofRequest listing.today listing.registry listing.settings true request = .ok plan →
      Plan.ofRequest listing.today listing.registry listing.settings true request' = .ok plan' →
      List.Forall₂ Predicate.Alike plan.predicates plan'.predicates →
      List.Forall₂ SortDirective.Alike plan.sort plan'.sort →
      isNonZero request.offset = isNonZero request'.offset →
      (request.text.bind searchText).isSome = (request'.text.bind searchText).isSome →
      ∃ p p' : Pipeline,
        (listing.fetch (adapter registry) { collection } request).1.sent = [p] ∧
        (listing.fetch (adapter registry) { collection } request').1.sent = [p'] ∧
        Value.SameForm (.list p.documents) (.list p'.documents) := by
  constructor
  · intro request p hfilter hp
    exact ⟨p.operand_documents, fun c hc =>
      Condition.only_allows (isPlain_of_sent hfilter hp c hc)⟩
  · intro request request' plan plan' hfilter hfilter' hplan hplan' hpredicates hsort hoffset htext
    refine ⟨(pipelineOf registry plan request).completed registry,
      (pipelineOf registry plan' request').completed registry, ?_, ?_, ?_⟩
    · rw [sent_of_fetch, hplan]
    · rw [sent_of_fetch, hplan']
    · have hconditions := sameForm_conditions registry hpredicates
        (Plan.isPlain_of_ofRequest hfilter hplan) (Plan.isPlain_of_ofRequest hfilter' hplan')
      have hkeys : ((pipelineOf registry plan' request').completed registry).sort =
          ((pipelineOf registry plan request).completed registry).sort :=
        sort_completed_congr registry (map_sortKeyOf_eq registry hsort).symm
      have hnonempty : ∀ (plan : Plan) (request : Request),
          ∀ t ∈ (pipelineOf registry plan request).text, t ≠ "" := by
        intro plan request t ht
        rw [text_pipelineOf] at ht
        obtain ⟨s, -, hs⟩ := Option.bind_eq_some_iff.mp ht
        exact ne_empty_of_searchText hs
      rw [← text_pipelineOf registry plan, ← text_pipelineOf registry plan'] at htext
      refine .list ?_
      unfold Pipeline.documents
      rw [hkeys]
      exact sameForm_stages _ htext (hnonempty plan request) (hnonempty plan' request') hconditions
        (isSome_seedOf_eq hsort) hoffset rfl

section Articles

def excludingTitles (values : List Value) : Request where
  limit := 10
  filter := .object [(.text "title", .object [(.text "not", .list values)])]

theorem isJson_excludingTitles {values : List Value} (h : ∀ v ∈ values, v.IsJson) :
    (excludingTitles values).filter.IsJson :=
  .object (List.forall_mem_singleton.mpr (.object (List.forall_mem_singleton.mpr (.list h))))

/-- An object that looks like an operator is passed over, so that both requests exclude one title
and are answered through pipelines of one form. -/
theorem excluded_operator_is_passed_over :
    let probe := .object [(.text "$gt", .text "")]
    ∃ p p' : Pipeline,
      (articleListing.fetch (adapter articleRegistry) { collection := .documents [] }
        (excludingTitles [probe, .text "a"])).1.sent = [p] ∧
      (articleListing.fetch (adapter articleRegistry) { collection := .documents [] }
        (excludingTitles [.text "b"])).1.sent = [p'] ∧
      Value.SameForm (.list p.documents) (.list p'.documents) ∧
      ∀ v, Operand "$ne" v false (.list p.documents) → v ≠ probe := by
  intro probe
  have hprobe : ∀ v ∈ [probe, .text "a"], v.IsJson := by
    rw [List.forall_mem_cons, List.forall_mem_singleton]
    exact ⟨.object (List.forall_mem_singleton.mpr (.text "")), .text "a"⟩
  have hjson := isJson_excludingTitles hprobe
  have hjson' := isJson_excludingTitles (List.forall_mem_singleton.mpr (.text "b"))
  obtain ⟨hoperands, hforms⟩ :=
    request_values_become_no_operators articleListing articleRegistry (.documents [])
  obtain ⟨p, p', hp, hp', hform⟩ := hforms _ _
    { predicates := [.notEquals "title" (.text "a")], sort := [] }
    { predicates := [.notEquals "title" (.text "b")], sort := [] } hjson hjson' rfl rfl
    (.cons (.notEquals _ _ _) .nil) .nil rfl rfl
  refine ⟨p, p', hp, hp', hform, ?_⟩
  obtain ⟨hplain, hfragments⟩ := hoperands _ p hjson (hp ▸ .head _)
  rintro v hv rfl
  obtain h | ⟨c, hc, hv⟩ := hplain "$ne" (by decide) _ hv
  · cases h
  · obtain h | ⟨h, -⟩ | ⟨h, -⟩ := hfragments c hc "$ne" (by decide) _ hv
    · cases h
    · exact absurd h (by decide)
    · simp [probe] at h

end Articles

end Catalogue
