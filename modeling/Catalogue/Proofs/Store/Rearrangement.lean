import Catalogue.Proofs.Field.Wildcard
import Catalogue.Proofs.Relational.Acceptance
import Catalogue.Proofs.Relational.Deletion

/-!
Calls in another order. Each sort of call has its own part of what is asked for, and the conditions
count together, so it does not matter how calls of different sorts are interleaved.
-/

namespace Catalogue

namespace Call

def isFilter : Call → Bool
  | .equality .. | .negatedEquality .. | .range .. | .membership .. | .pattern .. | .absence _
  | .existence _ => true
  | _ => false

def isSort : Call → Bool
  | .sort .. => true
  | _ => false

/-- Does the call ask for an order, random or not? -/
def isOrder : Call → Bool
  | .sort .. | .randomSort _ => true
  | _ => false

def page? : Call → Option (Option Int × Option Int)
  | .pagination offset limit => some (offset, limit)
  | _ => none

def text? : Call → Option String
  | .textSearch text => some text
  | _ => none

end Call

/-- The same filters in some order, and the same orders, pages and free texts in the same order. -/
structure IsRearrangement (isOrder : Call → Bool) (calls calls' : List Call) : Prop where
  filters : (calls.filter Call.isFilter).Perm (calls'.filter Call.isFilter)
  orders : calls.filter isOrder = calls'.filter isOrder
  pages : calls.filterMap Call.page? = calls'.filterMap Call.page?
  texts : calls.filterMap Call.text? = calls'.filterMap Call.text?

namespace Document

def sortKey? (registry : Registry) : Call → Option (String × Direction)
  | .sort f d => some (pathOf registry f, d)
  | .randomSort _ => some (randomPath, .descending)
  | _ => none

def seed? : Call → Option String
  | .randomSort seed => some seed
  | _ => none

/-- Each part of a pipeline comes from the calls of one sort. The last page, the last free text and
the last seed count. -/
theorem Pipeline.addAll_eq (registry : Registry) (p : Pipeline) (calls : List Call) :
    p.addAll registry calls = {
      text := (calls.filterMap Call.text?).getLast?.elim p.text searchText
      conditions := p.conditions ++ (calls.filter Call.isFilter).flatMap (conditionsOf registry)
      sort := p.sort ++ (calls.filter Call.isOrder).filterMap (sortKey? registry)
      seed := ((calls.filter Call.isOrder).filterMap seed?).getLast?.or p.seed
      offset := (calls.filterMap Call.page?).getLast?.elim p.offset Prod.fst
      limit := (calls.filterMap Call.page?).getLast?.elim p.limit Prod.snd } := by
  induction calls generalizing p with
  | nil => simp [addAll]
  | cons call rest ih =>
      change (p.add registry call).addAll registry rest = _
      rw [ih]
      simp only [List.filter_cons, List.filterMap_cons]
      cases call with
      | sort f d => simp [add, Call.text?, Call.isFilter, Call.isOrder, Call.page?, sortKey?, seed?]
      | randomSort seed =>
          simp only [add, Call.text?, Call.isFilter, Call.isOrder, Call.page?, sortKey?, seed?,
            if_true, List.filterMap_cons, List.getLast?_cons]
          cases ((rest.filter Call.isOrder).filterMap seed?).getLast? <;> simp
      | pagination offset limit =>
          simp only [add, Call.text?, Call.isFilter, Call.isOrder, Call.page?, List.getLast?_cons]
          cases (rest.filterMap Call.page?).getLast? <;> simp
      | textSearch text =>
          simp only [add, Call.text?, Call.isFilter, Call.isOrder, Call.page?, List.getLast?_cons]
          cases (rest.filterMap Call.text?).getLast? <;> simp
      | _ => simp [add, Call.text?, Call.isFilter, Call.isOrder, Call.page?]

theorem Pipeline.addAll_of_rearrangement (registry : Registry) {calls calls' : List Call}
    (h : IsRearrangement Call.isOrder calls calls') :
    ∃ conditions, conditions.Perm (({} : Pipeline).addAll registry calls).conditions ∧
      ({} : Pipeline).addAll registry calls' =
        { ({} : Pipeline).addAll registry calls with conditions } := by
  refine ⟨(({} : Pipeline).addAll registry calls').conditions, ?_, ?_⟩
  · rw [addAll_eq, addAll_eq]
    exact (h.filters.symm.flatMap_right _).append_left _
  · rw [addAll_eq registry {} calls, addAll_eq, h.texts, h.orders, h.pages]

theorem Collection.ask_of_perm (c : Collection) (p : Pipeline) {conditions : List Condition}
    (h : conditions.Perm p.conditions) : c.ask { p with conditions } = c.ask p := by
  cases c with
  | answering answers => rfl
  | failing fault => rfl
  | documents docs =>
      have hmatching : ∀ docs, matching conditions docs = matching p.conditions docs := by
        intro docs
        exact List.filter_congr fun doc _ => h.all_eq
      simp only [ask, hmatching]
      rfl

theorem execute_of_perm (registry : Registry) (s : Session) {conditions : List Condition}
    (h : conditions.Perm s.pipeline.conditions) :
    (execute registry { s with pipeline := { s.pipeline with conditions } }).2 =
      (execute registry s).2 := by
  have hask := s.collection.ask_of_perm (s.pipeline.completed registry) h
  let t : Session := { s with pipeline := { s.pipeline with conditions } }
  have ht : t.executed = s.executed := rfl
  change (execute registry t).2 = _
  cases hs : s.executed with
  | true => rw [execute_of_spent hs, execute_of_spent (ht.trans hs)]
  | false =>
      rw [execute_of_open hs, execute_of_open (ht.trans hs)]
      exact congrArg (pageOf registry) hask

theorem run_of_rearrangement (registry : Registry) (collection : Collection) {calls calls' : List Call}
    (h : IsRearrangement Call.isOrder calls calls') :
    ((adapter registry).run { collection } calls').2 =
      ((adapter registry).run { collection } calls).2 := by
  obtain ⟨conditions, hperm, hadd⟩ := Pipeline.addAll_of_rearrangement registry h
  unfold Adapter.run
  rw [adapter_applyAll rfl, adapter_applyAll rfl, hadd]
  exact execute_of_perm registry
    { collection, pipeline := ({} : Pipeline).addAll registry calls } hperm

theorem Pipeline.mem_of_mem_page {p : Pipeline} {found : List Entries} {doc : Entries}
    (h : doc ∈ p.page found) : doc ∈ found := by
  have hskip : ∀ (n : Int) (docs : List Entries), skip n docs ⊆ docs := by
    intro n docs
    unfold skip
    split <;> exact List.drop_subset _ _
  have htake : ∀ (n : Int) (docs : List Entries), take n docs ⊆ docs := by
    intro n docs
    unfold take
    split <;> exact List.take_subset _ _
  have hsorted : sorted p.sort found ⊆ found := (List.mergeSort_perm _ _).subset
  apply hsorted
  unfold page at h
  dsimp only at h
  cases hlimit : p.limit with
  | none =>
      rw [hlimit] at h
      cases hoffset : p.offset with
      | none => rwa [hoffset] at h
      | some m =>
          rw [hoffset] at h
          exact hskip m _ h
  | some n =>
      rw [hlimit] at h
      cases hoffset : p.offset with
      | none =>
          rw [hoffset] at h
          exact htake n _ h
      | some m =>
          rw [hoffset] at h
          exact hskip m _ (htake n _ h)

/-- Documents in memory answer with a page where each document can be shown, unless they are asked
for free text or a random order. -/
theorem exists_page_of_run (registry : Registry) {docs : List Entries} {calls : List Call}
    (htext : ∀ call ∈ calls, call.text? = none) (hseed : ∀ call ∈ calls, seed? call = none)
    (shown : ∀ doc ∈ docs, ∃ row, rowOf registry (stored doc) = .ok row) :
    ∃ page, ((adapter registry).run { collection := .documents docs } calls).2 = .ok page := by
  have hadd := Pipeline.addAll_eq registry {} calls
  have htexts : calls.filterMap Call.text? = [] := List.filterMap_eq_nil_iff.mpr htext
  have hseeds : (calls.filter Call.isOrder).filterMap seed? = [] :=
    List.filterMap_eq_nil_iff.mpr fun call hcall => hseed call (List.mem_filter.mp hcall).1
  rw [htexts, hseeds] at hadd
  rw [adapter_run_outcome hadd rfl rfl]
  unfold Pipeline.outcome
  dsimp only
  generalize Pipeline.completed registry _ = p
  have hrows : ∀ doc ∈ p.page (matching p.conditions (docs.map stored)),
      ∃ row, rowOf registry doc = .ok row := by
    intro doc hdoc
    obtain ⟨kept, hkept, rfl⟩ :=
      List.mem_map.mp (List.mem_filter.mp (Pipeline.mem_of_mem_page hdoc)).1
    exact shown kept hkept
  obtain ⟨rows, hmap⟩ := exists_map_ok hrows
  exact ⟨{ rows, total := _ }, Page.of_eq_ok_iff.mpr ⟨hmap, rfl⟩⟩

end Document

namespace Relational

namespace Change

variable (source : Source)

theorem ofBound_parts (c : Column) (comparison : Comparison) (v : Value) :
    (ofBound c comparison v).1.order = [] ∧ (ofBound c comparison v).1.page = none := by
  cases v <;> exact ⟨rfl, rfl⟩

theorem ofRange_parts (f : String) (lower upper : Value) :
    (ofCall source (.range f lower upper)).1.order = [] ∧
      (ofCall source (.range f lower upper)).1.page = none := by
  simp only [ofCall]
  cases source.column f with
  | error e => exact ⟨rfl, rfl⟩
  | ok c =>
      obtain ⟨horder, hpage⟩ := ofBound_parts c .atLeast lower
      obtain ⟨horder', hpage'⟩ := ofBound_parts c .atMost upper
      dsimp only
      generalize ofBound c .atLeast lower = first at *
      obtain ⟨change, outcome⟩ := first
      cases outcome with
      | error e => exact ⟨horder, hpage⟩
      | ok _ => simp_all [andThen, append]

theorem conditions_ofCall (call : Call) :
    (ofCall source call).1.conditions =
      (if call.isFilter then (ofCall source call).1.conditions else []) ++
        call.text?.toList.flatMap fun text => (ofCall source (.textSearch text)).1.conditions := by
  cases call with
  | sort f d => cases hc : source.column f <;> simp [ofCall, hc, onColumn, Call.isFilter, Call.text?]
  | textSearch text => simp [Call.isFilter, Call.text?]
  | _ => simp [ofCall, Call.isFilter, Call.text?]

theorem order_ofCall (call : Call) :
    (ofCall source call).1.order = if call.isSort then (ofCall source call).1.order else [] := by
  cases call with
  | sort f d => rfl
  | range f lower upper => exact (ofRange_parts source f lower upper).1
  | textSearch text =>
      simp only [ofCall, Call.isSort]
      split
      · rfl
      · cases source.textColumns <;> rfl
  | randomSort seed => rfl
  | pagination offset limit => rfl
  | equality f v | negatedEquality f v | membership f vs | pattern f w | absence f | existence f =>
      simp only [ofCall]
      cases source.column f <;> rfl

theorem page_ofCall (call : Call) : (ofCall source call).1.page = call.page? := by
  cases call with
  | range f lower upper => exact (ofRange_parts source f lower upper).2
  | textSearch text => exact page_ofText source text
  | randomSort seed => rfl
  | pagination offset limit => rfl
  | equality f v | negatedEquality f v | membership f vs | pattern f w | absence f | existence f
  | sort f d =>
      simp only [ofCall]
      cases source.column f <;> rfl

theorem andThen_of_ok {first second : Change × Outcome Unit}
    (h : (andThen first second).2 = .ok ()) :
    second.2 = .ok () ∧ (andThen first second).1 = first.1.append second.1 := by
  obtain ⟨c, outcome⟩ := first
  cases outcome with
  | error e => cases h
  | ok _ => exact ⟨h, rfl⟩

/-- Calls that are all taken change a draft by parts, each of which comes from the calls of one
sort. -/
theorem ofCalls_parts {calls : List Call} (h : (ofCalls source calls).2 = .ok ()) :
    (ofCalls source calls).1.conditions.Perm
        ((calls.filter Call.isFilter).flatMap (fun call => (ofCall source call).1.conditions) ++
          (calls.filterMap Call.text?).flatMap fun text =>
            (ofCall source (.textSearch text)).1.conditions) ∧
      (ofCalls source calls).1.order =
        (calls.filter Call.isSort).flatMap (fun call => (ofCall source call).1.order) ∧
      (ofCalls source calls).1.page = (calls.filterMap Call.page?).getLast? := by
  induction calls with
  | nil => exact ⟨.refl _, rfl, rfl⟩
  | cons call rest ih =>
      obtain ⟨hrest, happend⟩ := andThen_of_ok h
      obtain ⟨hconditions, horder, hpage⟩ := ih hrest
      have hcons : (ofCalls source (call :: rest)).1 =
          (ofCall source call).1.append (ofCalls source rest).1 := happend
      rw [hcons]
      refine ⟨?_, ?_, ?_⟩
      · have hfilter : ((call :: rest).filter Call.isFilter).flatMap
            (fun call => (ofCall source call).1.conditions) =
              (if call.isFilter then (ofCall source call).1.conditions else []) ++
                (rest.filter Call.isFilter).flatMap fun call =>
                  (ofCall source call).1.conditions := by
          rw [List.filter_cons]
          split <;> rfl
        have htext : (((call :: rest).filterMap Call.text?).flatMap fun text =>
            (ofCall source (.textSearch text)).1.conditions) =
              (call.text?.toList.flatMap fun text =>
                (ofCall source (.textSearch text)).1.conditions) ++
                (rest.filterMap Call.text?).flatMap fun text =>
                  (ofCall source (.textSearch text)).1.conditions := by
          rw [List.filterMap_cons]
          cases call.text? <;> simp
        rw [append, conditions_ofCall, hfilter, htext, List.append_assoc, List.append_assoc]
        exact ((hconditions.append_left _).trans (List.perm_append_comm_assoc _ _ _)).append_left _
      · rw [append, order_ofCall, horder, List.filter_cons]
        split <;> rfl
      · rw [append, page_ofCall, hpage, List.filterMap_cons]
        cases call.page? with
        | none => simp
        | some page => simp [List.getLast?_cons]

end Change

theorem Source.draft_eq_ok_iff {source : Source} {calls : List Call} {d : Draft} :
    source.draft calls = .ok d ↔ (Change.ofCalls source calls).2 = .ok () ∧
      d = ({} : Draft).extend (Change.ofCalls source calls).1 := by
  unfold draft
  generalize Change.ofCalls source calls = change
  obtain ⟨c, outcome⟩ := change
  cases outcome with
  | error e => simp
  | ok _ => simp [eq_comm]

theorem exists_draft {source : Source} {session : Session} {calls : List Call}
    (h : ((adapter source).applyAll { session } calls).2 = .ok ()) :
    ∃ d, source.draft calls = .ok d := by
  rw [adapter_applyAll rfl] at h
  exact ⟨_, Source.draft_eq_ok_iff.mpr ⟨h, rfl⟩⟩

/-- Rearranged calls draft the same but for the order of the conditions. -/
theorem Source.draft_of_rearrangement {source : Source} {calls calls' : List Call} {d d' : Draft}
    (h : IsRearrangement Call.isSort calls calls') (hd : source.draft calls = .ok d)
    (hd' : source.draft calls' = .ok d') :
    d'.conditions.Perm d.conditions ∧ d' = { d with conditions := d'.conditions } := by
  obtain ⟨hok, rfl⟩ := draft_eq_ok_iff.mp hd
  obtain ⟨hok', rfl⟩ := draft_eq_ok_iff.mp hd'
  obtain ⟨hconditions, horder, hpage⟩ := Change.ofCalls_parts source hok
  obtain ⟨hconditions', horder', hpage'⟩ := Change.ofCalls_parts source hok'
  rw [← h.texts] at hconditions'
  rw [← h.orders, ← horder] at horder'
  rw [← h.pages, ← hpage] at hpage'
  constructor
  · exact hconditions'.trans (((h.filters.symm.flatMap_right _).append_right _).trans
      hconditions.symm)
  · simp only [Draft.extend, horder', hpage']

end Relational

/-- Before an execution calls of different sorts commute, and so do filters among themselves. A
table answers rearranged calls with one page wherever it answers with pages. -/
theorem rearranged_calls_answer_alike (calls calls' : List Call) :
    (∀ (registry : Registry) (collection : Document.Collection),
      IsRearrangement Call.isOrder calls calls' →
      ((Document.adapter registry).run { collection } calls').2 =
        ((Document.adapter registry).run { collection } calls).2) ∧
    (∀ (registry : Registry) (docs : List Entries),
      (∀ call ∈ calls, call.text? = none) → (∀ call ∈ calls, Document.seed? call = none) →
      (∀ doc ∈ docs, ∃ row, Document.rowOf registry (Document.stored doc) = .ok row) →
      ∃ page, ((Document.adapter registry).run { collection := .documents docs } calls).2 =
        .ok page) ∧
    ∀ (source : Relational.Source) (session : Relational.Session),
      IsRearrangement Call.isSort calls calls' →
      ((Relational.adapter source).applyAll { session } calls).2 = .ok () →
      ((Relational.adapter source).applyAll { session } calls').2 = .ok () →
      (∀ page page', ((Relational.adapter source).run { session } calls).2 = .ok page →
        ((Relational.adapter source).run { session } calls').2 = .ok page' → page' = page) ∧
      ((∀ call ∈ calls, Relational.IsShort call) → source.IsLimited calls →
        source.IsLimited calls' →
        (∀ page, ((Relational.adapter source).run { session } calls').2 = .ok page ↔
          ((Relational.adapter source).run { session } calls).2 = .ok page) ∧
        ∃ d, source.draft calls = .ok d ∧
          ((∃ page, ((Relational.adapter source).run { session } calls).2 = .ok page) ↔
            session.Takes (d.selection source) ∧
              ∀ row ∈ session.database.select (d.selection source),
                source.table.IsReadable row)) := by
  refine ⟨fun registry collection => Document.run_of_rearrangement registry collection,
    fun registry _ => Document.exists_page_of_run registry, ?_⟩
  intro source session hcalls htaken htaken'
  obtain ⟨d, hd⟩ := Relational.exists_draft htaken
  obtain ⟨d', hd'⟩ := Relational.exists_draft htaken'
  obtain ⟨hperm, heq⟩ := Relational.Source.draft_of_rearrangement hcalls hd hd'
  have hpage : d'.page source session = d.page source session := by
    rw [heq]
    exact Relational.Draft.page_of_perm hperm source session
  rw [Relational.adapter_run_eq_outcome, Relational.adapter_run_eq_outcome, hd, hd']
  simp only [Relational.Draft.outcome_eq_ok_iff, hpage]
  constructor
  · rintro page page' ⟨-, hfirst⟩ ⟨-, hsecond⟩
    exact Except.ok.inj (hsecond.symm.trans hfirst)
  · intro short limited limited'
    have hshort := Relational.Source.isShort_of_draft hd short
    have hlimited' := limited' d' hd'
    have htakes : session.Takes (d'.selection source) ↔ session.Takes (d.selection source) := by
      rw [heq] at hlimited' ⊢
      exact Relational.Draft.takes_iff_of_perm hperm source session hshort (limited d hd)
        hlimited'
    refine ⟨fun page => by rw [htakes], d, rfl, ?_⟩
    rw [exists_and_left, Relational.Draft.exists_page_iff]

section Articles

theorem rearranged_article_calls : IsRearrangement Call.isSort
    [.absence "title", .sort "id" .descending, .existence "id"]
    [.existence "id", .absence "title", .sort "id" .descending] where
  filters := .swap _ _ _
  orders := rfl
  pages := rfl
  texts := rfl

theorem short_article_calls :
    ∀ call ∈ [Call.absence "title", .sort "id" .descending, .existence "id"],
      Relational.IsShort call := by
  simp [Relational.IsShort]

theorem takes_untitled {d : Relational.Draft}
    (hd : articleSource.draft [.absence "title", .sort "id" .descending, .existence "id"] = .ok d) :
    ({ database := articles } : Relational.Session).Takes (d.selection articleSource) := by
  have hshort := Relational.Source.isShort_of_draft hd short_article_calls
  cases hd
  refine ⟨⟨rfl, rfl⟩, rfl, by decide, ?_, ⟨nofun, nofun⟩, ?_⟩
  · change ∀ c ∈ [_, _], _
    simp only [List.forall_mem_cons]
    exact ⟨⟨[], [], rfl, rfl⟩, ⟨[], [], rfl, rfl⟩, by simp⟩
  · exact articles.triesTooLong_eq_false (Relational.Draft.isShort_allConditions hshort)

/-- Two articles without a title, in a collection and in a table. -/
theorem untitled_articles_answer_alike :
    (∃ page, ((Document.adapter articleRegistry).run { collection := .documents articleDocuments }
        [.absence "title", .existence "id"]).2 = .ok page ∧
      ((Document.adapter articleRegistry).run { collection := .documents articleDocuments }
        [.existence "id", .absence "title"]).2 = .ok page) ∧
    ∃ page, ((Relational.adapter articleSource).run { session := { database := articles } }
        [.absence "title", .sort "id" .descending, .existence "id"]).2 = .ok page ∧
      ((Relational.adapter articleSource).run { session := { database := articles } }
        [.existence "id", .absence "title", .sort "id" .descending]).2 = .ok page := by
  constructor
  · obtain ⟨hsame, hshown, -⟩ := rearranged_calls_answer_alike
      [.absence "title", .existence "id"] [.existence "id", .absence "title"]
    obtain ⟨page, hpage⟩ := hshown articleRegistry articleDocuments (by simp [Call.text?])
      (by simp [Document.seed?])
      (by simp only [articleDocuments, List.forall_mem_cons]; exact ⟨⟨_, rfl⟩, ⟨_, rfl⟩, by simp⟩)
    refine ⟨page, hpage, ?_⟩
    rw [hsame articleRegistry (.documents articleDocuments) ⟨.swap _ _ _, rfl, rfl, rfl⟩, hpage]
  · obtain ⟨-, -, htables⟩ := rearranged_calls_answer_alike
      [.absence "title", .sort "id" .descending, .existence "id"]
      [.existence "id", .absence "title", .sort "id" .descending]
    obtain ⟨-, hshort⟩ := htables articleSource { database := articles } rearranged_article_calls
      rfl rfl
    obtain ⟨hsame, d, hd, hruns⟩ := hshort short_article_calls
      (by rintro d ⟨rfl⟩; decide) (by rintro d ⟨rfl⟩; decide)
    obtain ⟨page, hpage⟩ := hruns.mpr ⟨takes_untitled hd, fun row hrow =>
      isReadable_articles row (Relational.Database.mem_of_mem_select hrow)⟩
    exact ⟨page, hpage, (hsame page).mpr hpage⟩

theorem length_le_utf8ByteSize (cs : List Char) : cs.length ≤ (String.ofList cs).utf8ByteSize := by
  induction cs with
  | nil => exact Nat.zero_le _
  | cons c rest ih =>
      have hpos := c.utf8Size_pos
      rw [String.ofList_cons, String.utf8ByteSize_append, String.utf8ByteSize_singleton,
        List.length_cons]
      omega

theorem length_le_utf8ByteSize_toLike (w : Wildcard) :
    w.text.length ≤ (w.toLike Wildcard.defaultEscape).utf8ByteSize := by
  have hmark : ∀ cs : List Char, cs.length ≤ (cs.flatMap Wildcard.escapeMark).length := by
    intro cs
    induction cs with
    | nil => exact Nat.zero_le _
    | cons c rest ih =>
        have hone : 1 ≤ (Wildcard.escapeMark c).length := by
          unfold Wildcard.escapeMark
          split <;> simp
        rw [List.flatMap_cons, List.length_append, List.length_cons]
        omega
  refine le_trans ?_ (length_le_utf8ByteSize _)
  have hescape : Wildcard.defaultEscape.toList = ['\\'] := rfl
  have htext := hmark w.text.toList
  rw [hescape, Wildcard.escaped_eq, List.length_append, List.length_append]
  rw [String.length_toList] at htext
  omega

theorem isTooLong_of_length {w : Wildcard} (h : Relational.maxPatternSize < w.text.length)
    (c : Relational.Column) :
    (Relational.Atom.matchesLike c (w.toLike Wildcard.defaultEscape)).isTooLong = true :=
  decide_eq_true (lt_of_lt_of_le h (length_le_utf8ByteSize_toLike w))

theorem page_of_selected_eq_nil {source : Relational.Source} {session : Relational.Session}
    {d : Relational.Draft} (h : session.database.selected (d.allConditions source) = []) :
    d.page source session = .ok { rows := [], total := 0 } := by
  have hselect : session.database.select (d.selection source) = [] := by
    rw [List.eq_nil_iff_forall_not_mem]
    intro row hrow
    have hsorted := (Relational.Database.page_sublist _ _ _).subset hrow
    obtain ⟨hmet, hselected⟩ := List.mem_filter.mp ((List.mergeSort_perm _ _).subset hsorted)
    have hmem : row ∈ session.database.selected (d.allConditions source) :=
      List.mem_filter.mpr ⟨(session.database.scan_perm _).subset hmet, hselected⟩
    rw [h] at hmem
    cases hmem
  rw [Relational.Draft.page, h, hselect]
  rfl

theorem rows_articles : articles.rows = [[.text "b", .null], [.text "a", .null]] := rfl

/-- No article has a title, and a row that has been passed over is not compared with a pattern. -/
theorem existence_before_pattern (w : Wildcard) :
    ((Relational.adapter articleSource).run { session := { database := articles } }
      [.existence "title", .pattern "title" w]).2 = .ok { rows := [], total := 0 } := by
  have hdraft : articleSource.draft [.existence "title", .pattern "title" w] =
      .ok { conditions := [[.isNotNull ⟨"title", .text⟩],
        [.matchesLike ⟨"title", .text⟩ (w.toLike Wildcard.defaultEscape)]] } := rfl
  rw [Relational.adapter_run_eq_outcome, hdraft]
  generalize w.toLike Wildcard.defaultEscape = pattern
  refine Relational.Draft.outcome_eq_ok_iff.mpr
    ⟨⟨⟨rfl, rfl⟩, rfl, rfl, ?_, ⟨nofun, nofun⟩, ?_⟩, page_of_selected_eq_nil rfl⟩
  · change ∀ c ∈ [_, _], _
    simp only [List.forall_mem_cons]
    exact ⟨⟨[], [], rfl, rfl⟩, ⟨_, _, rfl, rfl⟩, by simp⟩
  · have htries : (articles.rows.any fun row => Relational.meetsTooLong articleTable row
        [[.isNotNull ⟨"title", .text⟩], [.matchesLike ⟨"title", .text⟩ pattern]]) = false := rfl
    exact Bool.and_eq_false_imp.mpr fun _ => htries

theorem pattern_before_existence {w : Wildcard} (h : Relational.maxPatternSize < w.text.length) :
    ((Relational.adapter articleSource).run { session := { database := articles } }
      [.pattern "title" w, .existence "title"]).2 = .error .queryRejected := by
  obtain ⟨d, hdraft, hall⟩ :
      ∃ d, articleSource.draft [.pattern "title" w, .existence "title"] = .ok d ∧
        d.allConditions articleSource = [
          [.matchesLike ⟨"title", .text⟩ (w.toLike Wildcard.defaultEscape)],
          [.isNotNull ⟨"title", .text⟩]] :=
    ⟨_, rfl, rfl⟩
  have hlong := isTooLong_of_length h ⟨"title", .text⟩
  generalize w.toLike Wildcard.defaultEscape = pattern at *
  have htries : articles.triesTooLong
      [[.matchesLike ⟨"title", .text⟩ pattern], [.isNotNull ⟨"title", .text⟩]] = true := by
    change (_ && articles.rows.any fun row => Relational.meetsTooLong articleTable row _) = true
    simp [rows_articles, Relational.meetsTooLong, Relational.Condition.meetsTooLong, hlong]
  have hrefusal : ({ database := articles } : Relational.Session).refusal?
      (.count (d.allConditions articleSource)) = some .rejected := by
    rw [hall]
    exact if_pos htries
  rw [Relational.adapter_run_eq_outcome, hdraft]
  exact Relational.Draft.outcome_of_refusal hrefusal

/-- Of two filters that no article passes, the one with too long a text fails the listing, but only
where it comes first. -/
theorem long_text_fails_when_first :
    let w : Wildcard := { text := .ofList (List.replicate 50001 'x') }
    let a := Relational.adapter articleSource
    (a.run { session := { database := articles } } [.existence "title", .pattern "title" w]).2 =
      .ok { rows := [], total := 0 } ∧
    (a.run { session := { database := articles } } [.pattern "title" w, .existence "title"]).2 =
      .error .queryRejected := by
  refine ⟨existence_before_pattern _, pattern_before_existence ?_⟩
  rw [String.length_ofList, List.length_replicate]
  decide

end Articles

end Catalogue
