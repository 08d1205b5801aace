import Catalogue.Proofs.Store.Page
import Catalogue.Proofs.Relational.Execution

/-!
What calls make of a draft. An open draft is extended by a change that the call alone decides, a
spent one stays as it is, and the session is never touched.
-/

namespace Catalogue.Relational

/-- What a call adds to an open draft. -/
structure Change where
  conditions : List Condition := []
  order : List SortKey := []
  /-- The offset and the limit, where the call sets them. -/
  page : Option (Option Int × Option Int) := none

namespace Change

/-- Two changes in one; the later page counts. -/
def append (c c' : Change) : Change where
  conditions := c.conditions ++ c'.conditions
  order := c.order ++ c'.order
  page := c'.page.or c.page

theorem append_assoc (a b c : Change) : (a.append b).append c = a.append (b.append c) := by
  simp [append, Option.or_assoc]

@[simp] theorem append_empty (c : Change) : c.append {} = c := by
  simp [append]

@[simp] theorem empty_append (c : Change) : append {} c = c := by
  simp [append]

def onColumn (column : Outcome Column) (f : Column → Change) : Change × Outcome Unit :=
  match column with
  | .ok c => (f c, .ok ())
  | .error e => ({}, .error e)

def ofBound (c : Column) (comparison : Comparison) : Value → Change × Outcome Unit
  | .null => ({}, .ok ())
  | .bool _ => ({}, .error (.fault .badArgument))
  | v => ({ conditions := [[.compares c comparison v]] }, .ok ())

def andThen (first second : Change × Outcome Unit) : Change × Outcome Unit :=
  match first with
  | (c, .ok ()) => (c.append second.1, second.2)
  | (c, .error e) => (c, .error e)

def ofCall (source : Source) : Call → Change × Outcome Unit
  | .equality f v =>
    onColumn (source.column f) fun c => { conditions := [[Condition.equalTo c v]] }
  | .negatedEquality f v =>
    onColumn (source.column f) fun c =>
      { conditions := [[.isNull c, Condition.differentFrom c v]] }
  | .range f lower upper =>
    match source.column f with
    | .error e => ({}, .error e)
    | .ok c => andThen (ofBound c .atLeast lower) (ofBound c .atMost upper)
  | .membership f vs => onColumn (source.column f) fun c => { conditions := [[.isAmong c vs]] }
  | .pattern f w =>
    onColumn (source.column f) fun c =>
      { conditions := [[.matchesLike c (w.toLike Wildcard.defaultEscape)]] }
  | .absence f => onColumn (source.column f) fun c => { conditions := [[.isNull c]] }
  | .existence f => onColumn (source.column f) fun c => { conditions := [[.isNotNull c]] }
  | .sort f direction =>
    onColumn (source.column f) fun column => { order := [{ column, direction }] }
  | .randomSort _ => ({}, .ok ())
  | .pagination offset limit => ({ page := some (offset, limit) }, .ok ())
  | .textSearch text =>
    if source.textFields.isEmpty then ({}, .ok ())
    else match source.textColumns with
      | .error e => ({}, .error e)
      | .ok cs => ({ conditions := [cs.map fun c => .matchesFolded c (containsPattern text)] },
          .ok ())

def ofCalls (source : Source) : List Call → Change × Outcome Unit
  | [] => ({}, .ok ())
  | call :: rest => andThen (ofCall source call) (ofCalls source rest)

theorem ofCalls_append (source : Source) (first second : List Call) :
    ofCalls source (first ++ second) = andThen (ofCalls source first) (ofCalls source second) := by
  induction first with
  | nil => simp [ofCalls, andThen]
  | cons call rest ih =>
      rw [List.cons_append, ofCalls, ih, ofCalls]
      generalize ofCall source call = head
      generalize ofCalls source rest = tail
      obtain ⟨c, outcome⟩ := head
      obtain ⟨c', outcome'⟩ := tail
      cases outcome with
      | error e => rfl
      | ok _ => cases outcome' <;> simp [andThen, append_assoc]

/-- What a call may ask of a row, as a part of one of its conditions. -/
inductive Gives : Call → Atom → Prop
  | equal (f : String) (v : Value) (c : Column) : Gives (.equality f v) (Condition.equalTo c v)
  | missing (f : String) (v : Value) (c : Column) : Gives (.negatedEquality f v) (.isNull c)
  | different (f : String) (v : Value) (c : Column) :
      Gives (.negatedEquality f v) (Condition.differentFrom c v)
  | lower (f : String) (l u : Value) (c : Column) : Gives (.range f l u) (.compares c .atLeast l)
  | upper (f : String) (l u : Value) (c : Column) : Gives (.range f l u) (.compares c .atMost u)
  | among (f : String) (vs : List Value) (c : Column) : Gives (.membership f vs) (.isAmong c vs)
  | like (f : String) (w : Wildcard) (c : Column) :
      Gives (.pattern f w) (.matchesLike c (w.toLike Wildcard.defaultEscape))
  | absent (f : String) (c : Column) : Gives (.absence f) (.isNull c)
  | present (f : String) (c : Column) : Gives (.existence f) (.isNotNull c)
  | containing (text : String) (c : Column) :
      Gives (.textSearch text) (.matchesFolded c (containsPattern text))

/-- Is every part of the change's conditions among these? -/
def Asks (P : Atom → Prop) (c : Change) : Prop :=
  ∀ condition ∈ c.conditions, ∀ a ∈ condition, P a

theorem asks_onColumn {P : Atom → Prop} (column : Outcome Column) {f : Column → Condition}
    (h : ∀ c, ∀ a ∈ f c, P a) : (onColumn column fun c => { conditions := [f c] }).1.Asks P := by
  cases column with
  | error e => exact List.forall_mem_nil _
  | ok c => exact List.forall_mem_singleton.mpr (h c)

theorem asks_ofBound {P : Atom → Prop} {c : Column} {comparison : Comparison} {v : Value}
    (h : P (.compares c comparison v)) : (ofBound c comparison v).1.Asks P := by
  cases v with
  | null => exact List.forall_mem_nil _
  | bool b => exact List.forall_mem_nil _
  | _ => exact List.forall_mem_singleton.mpr (List.forall_mem_singleton.mpr h)

theorem asks_andThen {P : Atom → Prop} {first second : Change × Outcome Unit}
    (h : first.1.Asks P) (h' : second.1.Asks P) : (andThen first second).1.Asks P := by
  obtain ⟨c, outcome⟩ := first
  cases outcome with
  | error e => exact h
  | ok _ => exact List.forall_mem_append.mpr ⟨h, h'⟩

theorem gives_of_ofCall (source : Source) (call : Call) :
    (ofCall source call).1.Asks (Gives call) := by
  cases call with
  | equality f v =>
      apply asks_onColumn
      intro c
      exact List.forall_mem_singleton.mpr (.equal f v c)
  | negatedEquality f v =>
      apply asks_onColumn
      intro c
      exact List.forall_mem_cons.mpr
        ⟨.missing f v c, List.forall_mem_singleton.mpr (.different f v c)⟩
  | range f lower upper =>
      simp only [ofCall]
      cases source.column f with
      | error e => exact List.forall_mem_nil _
      | ok c =>
          exact asks_andThen (asks_ofBound (.lower f lower upper c))
            (asks_ofBound (.upper f lower upper c))
  | membership f vs =>
      apply asks_onColumn
      intro c
      exact List.forall_mem_singleton.mpr (.among f vs c)
  | pattern f w =>
      apply asks_onColumn
      intro c
      exact List.forall_mem_singleton.mpr (.like f w c)
  | absence f =>
      apply asks_onColumn
      intro c
      exact List.forall_mem_singleton.mpr (.absent f c)
  | existence f =>
      apply asks_onColumn
      intro c
      exact List.forall_mem_singleton.mpr (.present f c)
  | sort f direction =>
      simp only [ofCall]
      cases source.column f <;> exact List.forall_mem_nil _
  | randomSort seed => exact List.forall_mem_nil _
  | pagination offset limit => exact List.forall_mem_nil _
  | textSearch text =>
      simp only [ofCall]
      split
      · exact List.forall_mem_nil _
      · cases source.textColumns with
        | error e => exact List.forall_mem_nil _
        | ok cs =>
            refine List.forall_mem_singleton.mpr (List.forall_mem_map.mpr ?_)
            intro c _
            exact .containing text c

theorem gives_of_ofCalls (source : Source) (calls : List Call) :
    (ofCalls source calls).1.Asks fun a => ∃ call ∈ calls, Gives call a := by
  induction calls with
  | nil => exact List.forall_mem_nil _
  | cons call rest ih =>
      refine asks_andThen ?_ ?_
      · intro condition hcondition a ha
        exact ⟨call, .head _, gives_of_ofCall source call condition hcondition a ha⟩
      · intro condition hcondition a ha
        obtain ⟨later, hlater, hgives⟩ := ih condition hcondition a ha
        exact ⟨later, .tail _ hlater, hgives⟩

end Change

namespace Draft

def extend (d : Draft) (c : Change) : Draft :=
  { d with
    conditions := d.conditions ++ c.conditions
    order := d.order ++ c.order
    offset := c.page.elim d.offset Prod.fst
    limit := c.page.elim d.limit Prod.snd }

@[simp] theorem extend_empty (d : Draft) : d.extend {} = d := by
  simp [extend]

theorem extend_append (d : Draft) (c c' : Change) :
    d.extend (c.append c') = (d.extend c).extend c' := by
  simp only [extend, Change.append, List.append_assoc]
  cases c'.page <;> rfl

@[simp] theorem executed_extend (d : Draft) (c : Change) :
    (d.extend c).executed = d.executed := rfl

section Open

variable {d : Draft} (h : d.executed = false)
include h

theorem require_of_open (c : Condition) :
    d.require c = (d.extend { conditions := [c] }, .ok ()) := by
  simp [require, ensureOpen, h, extend]

theorem requireOf_of_open (column : Outcome Column) (f : Column → Condition) :
    d.requireOf column f =
      (d.extend (Change.onColumn column fun c => { conditions := [f c] }).1,
        (Change.onColumn column fun c => { conditions := [f c] }).2) := by
  cases column with
  | error e => simp [requireOf, Change.onColumn]
  | ok c => exact require_of_open h (f c)

theorem requireBound_of_open (c : Column) (comparison : Comparison) (v : Value) :
    d.requireBound c comparison v =
      (d.extend (Change.ofBound c comparison v).1, (Change.ofBound c comparison v).2) := by
  cases v with
  | null => simp [requireBound, Change.ofBound]
  | bool b => simp [requireBound, Change.ofBound]
  | _ => exact require_of_open h _

theorem apply_of_open (source : Source) (call : Call) :
    d.apply source call = (d.extend (Change.ofCall source call).1, (Change.ofCall source call).2) := by
  cases call with
  | equality f v => exact requireOf_of_open h _ _
  | negatedEquality f v => exact requireOf_of_open h _ _
  | membership f vs => exact requireOf_of_open h _ _
  | pattern f w => exact requireOf_of_open h _ _
  | absence f => exact requireOf_of_open h _ _
  | existence f => exact requireOf_of_open h _ _
  | range f lower upper =>
      simp only [apply, Change.ofCall]
      cases source.column f with
      | error e => simp
      | ok c =>
          dsimp only
          rw [requireBound_of_open h]
          generalize Change.ofBound c .atLeast lower = first
          obtain ⟨change, outcome⟩ := first
          cases outcome with
          | error e => rfl
          | ok _ =>
              dsimp only [Change.andThen]
              rw [requireBound_of_open (d := d.extend change) h, extend_append]
  | sort f direction =>
      simp only [apply, modify, ensureOpen, h, Change.ofCall]
      cases source.column f with
      | error e => simp [Change.onColumn, Except.map]
      | ok c => simp [Change.onColumn, Except.map, extend, h]
  | randomSort seed => simp [apply, modify, ensureOpen, h, Change.ofCall]
  | pagination offset limit => simp [apply, modify, ensureOpen, h, Change.ofCall, extend]
  | textSearch text =>
      simp only [apply, Change.ofCall]
      split
      · simp
      · cases source.textColumns with
        | error e => simp
        | ok cs => exact require_of_open h _

end Open

end Draft

theorem adapter_applyAll {source : Source} {s : State} (h : s.draft.executed = false)
    (calls : List Call) :
    (adapter source).applyAll s calls =
      ({ s with draft := s.draft.extend (Change.ofCalls source calls).1 },
        (Change.ofCalls source calls).2) := by
  induction calls generalizing s with
  | nil => simp [Change.ofCalls]
  | cons call rest ih =>
      have happly : (adapter source).apply s call =
          ({ s with draft := s.draft.extend (Change.ofCall source call).1 },
            (Change.ofCall source call).2) := by
        simp only [adapter]
        rw [Draft.apply_of_open h]
      simp only [Adapter.applyAll, Change.ofCalls, happly]
      generalize Change.ofCall source call = head
      obtain ⟨change, outcome⟩ := head
      cases outcome with
      | error e => rfl
      | ok _ =>
          dsimp only [Change.andThen]
          rw [Draft.extend_append]
          exact ih (s := { s with draft := s.draft.extend change }) h

def Source.draft (source : Source) (calls : List Call) : Outcome Draft :=
  match Change.ofCalls source calls with
  | (c, .ok ()) => .ok (({} : Draft).extend c)
  | (_, .error e) => .error e

/-- The statements for the calls are within the limits of an engine. -/
def Source.IsLimited (source : Source) (calls : List Call) : Prop :=
  ∀ d, source.draft calls = .ok d → (Statement.page (d.selection source)).isWithinLimits = true

theorem Source.gives_of_draft {source : Source} {calls : List Call} {d : Draft}
    (h : source.draft calls = .ok d) :
    ∀ condition ∈ d.conditions, ∀ a ∈ condition, ∃ call ∈ calls, Change.Gives call a := by
  have hgives := Change.gives_of_ofCalls source calls
  unfold draft at h
  split at h
  · rename_i c hc
    cases h
    rw [hc] at hgives
    exact hgives
  · cases h

/-- A run of a fresh adapter fails with the first call that does, and else comes to what its draft
does. -/
theorem adapter_run_eq_outcome (source : Source) (session : Session) (calls : List Call) :
    ((adapter source).run { session } calls).2 =
      match source.draft calls with
      | .ok d => d.outcome source session
      | .error e => .error e := by
  unfold Adapter.run
  rw [adapter_applyAll rfl]
  unfold Source.draft
  generalize Change.ofCalls source calls = change
  obtain ⟨c, outcome⟩ := change
  cases outcome with
  | error e => rfl
  | ok _ => exact execute_eq_outcome (s := { session, draft := ({} : Draft).extend c }) rfl

namespace Change

theorem page_ofText (source : Source) (text : String) :
    (ofCall source (.textSearch text)).1.page = none := by
  simp only [ofCall]
  split
  · rfl
  · cases source.textColumns <;> rfl

theorem exists_ofCalls_plan (source : Source) (plan : Plan) (request : Request) :
    ∃ (before after : Change × Outcome Unit), after.1.page = none ∧ ∀ offset limit,
      ofCalls source (plan.calls (request.paged offset limit)) =
        andThen before (andThen ({ page := some (offset, some limit) }, .ok ()) after) := by
  refine ⟨ofCalls source (plan.predicates.map Predicate.call ++ plan.sort.map SortDirective.call),
    ofCalls source (request.text.elim [] fun text =>
      if text.isEmpty then [] else [.textSearch text]), ?_, ?_⟩
  · cases request.text with
    | none => rfl
    | some text =>
        rw [Option.elim_some]
        split
        · rfl
        · have hpage := page_ofText source text
          simp only [ofCalls]
          generalize ofCall source (.textSearch text) = change at *
          obtain ⟨c, outcome⟩ := change
          cases outcome <;> simpa [andThen] using hpage
  · intro offset limit
    rw [Plan.calls, ofCalls_append]
    cases htext : request.text <;> simp only [Request.paged, htext] <;> rfl

end Change

theorem Source.draft_paged (source : Source) (plan : Plan) (request : Request)
    (offset : Option Int) (limit : Int) :
    source.draft (plan.calls (request.paged offset limit)) =
      (source.draft (plan.calls request)).map fun d => { d with offset, limit := some limit } := by
  obtain ⟨before, after, hpage, hcalls⟩ := Change.exists_ofCalls_plan source plan request
  have hown : request.paged request.offset request.limit = request := rfl
  have hrequest := hcalls request.offset request.limit
  rw [hown] at hrequest
  unfold Source.draft
  rw [hrequest, hcalls]
  obtain ⟨b, bo⟩ := before
  obtain ⟨a, ao⟩ := after
  dsimp only at hpage
  cases bo with
  | error e => rfl
  | ok _ =>
      cases ao with
      | error e => rfl
      | ok _ =>
          simp [Change.andThen, Change.append, Draft.extend, hpage, Except.map]

theorem Source.page_of_draft {source : Source} {plan : Plan} {request : Request} {d : Draft}
    (h : source.draft (plan.calls request) = .ok d) :
    d.offset = request.offset ∧ d.limit = some request.limit := by
  have hown : request.paged request.offset request.limit = request := rfl
  have hpaged := source.draft_paged plan request request.offset request.limit
  rw [hown, h] at hpaged
  have hd := Except.ok.inj hpaged
  exact ⟨congrArg Draft.offset hd, congrArg Draft.limit hd⟩

end Catalogue.Relational
