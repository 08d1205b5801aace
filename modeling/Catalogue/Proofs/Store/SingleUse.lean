import Catalogue.Proofs.Document.Execution
import Catalogue.Proofs.Relational.Drafting
import Catalogue.Proofs.Store.Recording

/-!
Adapters are good for one execution. Whatever happens to an adapter after that, it stays as the
execution left it, and it refuses every call that comes as far as its state.
-/

namespace Catalogue

namespace Adapter

variable {σ : Type}

/-- The state after something is told to an adapter, be it in vain or not. -/
def tell (a : Adapter σ) (s : σ) : Event → σ
  | .call call => (a.apply s call).1
  | .execution => (a.execute s).1

/-- The state after a history of calls and executions. -/
def after (a : Adapter σ) (s : σ) (history : List Event) : σ :=
  history.foldl a.tell s

theorem after_append (a : Adapter σ) (s : σ) (before rest : List Event) :
    a.after s (before ++ rest) = a.after (a.after s before) rest :=
  List.foldl_append

/-- What every call preserves, a history of calls alone does. -/
theorem after_induction {a : Adapter σ} {P : σ → Prop} (step : ∀ s call, P s → P (a.apply s call).1)
    {history : List Event} (h : Event.execution ∉ history) {s : σ} (hs : P s) :
    P (a.after s history) := by
  induction history generalizing s with
  | nil => exact hs
  | cons event rest ih =>
      cases event with
      | execution => exact absurd rfl (List.ne_of_not_mem_cons h)
      | call call => exact ih (List.not_mem_of_not_mem_cons h) (step s call hs)

/-- Executing spends an adapter, and a spent one neither changes nor executes. -/
structure IsSingleUse (a : Adapter σ) (isSpent : σ → Bool) : Prop where
  spent_execute : ∀ s, isSpent (a.execute s).1 = true
  apply_of_spent : ∀ s call, isSpent s = true → (a.apply s call).1 = s
  execute_of_spent : ∀ s, isSpent s = true → a.execute s = (s, .error .adapterSpent)

namespace IsSingleUse

variable {a : Adapter σ} {isSpent : σ → Bool} (single : a.IsSingleUse isSpent)
include single

theorem tell_of_spent {s : σ} (h : isSpent s = true) (event : Event) : a.tell s event = s := by
  cases event with
  | call call => exact single.apply_of_spent s call h
  | execution => exact congrArg Prod.fst (single.execute_of_spent s h)

theorem after_of_spent {s : σ} (h : isSpent s = true) (history : List Event) :
    a.after s history = s := by
  induction history with
  | nil => rfl
  | cons event rest ih =>
      have hcons : a.after s (event :: rest) = a.after (a.tell s event) rest := rfl
      rw [hcons, single.tell_of_spent h, ih]

theorem after_execution (s : σ) (before rest : List Event) :
    a.after s (before ++ .execution :: rest) = (a.execute (a.after s before)).1 := by
  rw [after_append]
  exact single.after_of_spent (single.spent_execute _) rest

theorem isSpent_after_execution (s : σ) (before rest : List Event) :
    isSpent (a.after s (before ++ .execution :: rest)) = true := by
  rw [single.after_execution]
  exact single.spent_execute _

end IsSingleUse

end Adapter

namespace Document

variable (registry : Registry)

theorem apply_of_spent {s : Session} (h : s.executed = true) (call : Call) :
    apply registry s call = (s, if isIdle call then .ok () else .error .adapterSpent) := by
  unfold apply
  rw [h]
  cases isIdle call <;> rfl

theorem isSingleUse_adapter : (adapter registry).IsSingleUse Session.executed where
  spent_execute s := by
    change (execute registry s).1.executed = true
    cases h : s.executed with
    | true => rw [execute_of_spent h, h]
    | false => rw [execute_of_open h]
  apply_of_spent _ call h := congrArg Prod.fst (apply_of_spent registry h call)
  execute_of_spent _ h := execute_of_spent h

end Document

namespace Relational

/-- Is the value a bound that a column can be compared with? -/
def isProperBound : Value → Bool
  | .null | .bool _ => false
  | _ => true

/-- Does a call come as far as the draft? It does not where a column is missing, where no bound or no
column for free text is given, or where the first bound is a truth value. -/
def Source.reachesDraft (source : Source) : Call → Bool
  | .equality f _ | .negatedEquality f _ | .membership f _ | .pattern f _ | .absence f
  | .existence f => (source.table.column? f).isSome
  | .range f lower upper =>
    (source.table.column? f).isSome && isProperBound (if lower.isNull then upper else lower)
  | .sort .. | .randomSort _ | .pagination .. => true
  | .textSearch _ =>
    !source.textFields.isEmpty && source.textFields.all fun f => (source.table.column? f).isSome

theorem Source.isOk_column (source : Source) (f : String) :
    (source.column f).isOk = (source.table.column? f).isSome := by
  unfold column
  cases source.table.column? f <;> rfl

theorem Source.isOk_textColumns (source : Source) :
    source.textColumns.isOk =
      source.textFields.all fun f => (source.table.column? f).isSome := by
  unfold textColumns
  induction source.textFields with
  | nil => rfl
  | cons f rest ih =>
      rw [List.all_cons, ← ih, ← source.isOk_column, List.mapM_cons]
      cases source.column f with
      | error e => rfl
      | ok c => cases rest.mapM source.column <;> rfl

namespace Draft

variable {source : Source} {d : Draft} (h : d.executed = true)
include h

theorem require_of_spent (c : Condition) : d.require c = (d, .error .adapterSpent) := by
  simp [require, ensureOpen, h]

theorem requireOf_of_spent (f : String) (condition : Column → Condition) (change : Column → Change) :
    d.requireOf (source.column f) condition =
      (d, if (source.table.column? f).isSome then .error .adapterSpent
        else (Change.onColumn (source.column f) change).2) := by
  unfold Source.column
  cases source.table.column? f with
  | none => rfl
  | some c => exact require_of_spent h _

theorem requireBound_of_spent (c : Column) (comparison : Comparison) (v : Value) :
    d.requireBound c comparison v =
      (d, if isProperBound v then .error .adapterSpent else (Change.ofBound c comparison v).2) := by
  cases v with
  | null => rfl
  | bool b => rfl
  | _ => exact require_of_spent h _

theorem modify_of_spent (f : Draft → Outcome Draft) :
    d.modify f = (d, .error .adapterSpent) := by
  simp [modify, ensureOpen, h]

/-- A spent draft refuses the calls that reach it. Others come to what they come to on an open one:
nothing, or the failure that they meet before. -/
theorem apply_of_spent (call : Call) :
    d.apply source call =
      (d, if source.reachesDraft call then .error .adapterSpent
        else (Change.ofCall source call).2) := by
  cases call with
  | equality f v => exact requireOf_of_spent h f _ _
  | negatedEquality f v => exact requireOf_of_spent h f _ _
  | membership f vs => exact requireOf_of_spent h f _ _
  | pattern f w => exact requireOf_of_spent h f _ _
  | absence f => exact requireOf_of_spent h f _ _
  | existence f => exact requireOf_of_spent h f _ _
  | sort f direction => simp only [apply, modify_of_spent h, Source.reachesDraft, if_true]
  | randomSort seed => simp only [apply, modify_of_spent h, Source.reachesDraft, if_true]
  | pagination offset limit => simp only [apply, modify_of_spent h, Source.reachesDraft, if_true]
  | range f lower upper =>
      cases hc : source.table.column? f with
      | none =>
          simp only [apply, Change.ofCall, Source.reachesDraft, Source.column, hc]
          rfl
      | some c =>
          simp only [apply, Change.ofCall, Source.reachesDraft, Source.column, hc,
            requireBound_of_spent h, Option.isSome_some, Bool.true_and]
          cases lower with
          | null =>
              have hfirst : Change.ofBound c .atLeast .null = ({}, .ok ()) := rfl
              have himproper : isProperBound .null = false := rfl
              simp [Value.isNull, hfirst, himproper, Change.andThen, requireBound_of_spent h]
          | _ => rfl
  | textSearch text =>
      simp only [apply, Change.ofCall, Source.reachesDraft, ← source.isOk_textColumns]
      cases hfields : source.textFields.isEmpty with
      | true => simp
      | false =>
          cases source.textColumns with
          | error e => simp [Except.isOk, Except.toBool]
          | ok cs => simp [Except.isOk, Except.toBool, require_of_spent h]

end Draft

theorem executed_apply (source : Source) (d : Draft) (call : Call) :
    (d.apply source call).1.executed = d.executed := by
  cases hd : d.executed with
  | true => rw [Draft.apply_of_spent hd, hd]
  | false => rw [Draft.apply_of_open hd, Draft.executed_extend, hd]

/-- The session after a count is sent for a selection and, where it is answered, a page. -/
def Session.sendBoth (s : Session) (selection : Selection) : Session :=
  match s.send (.count selection.conditions) with
  | (s, .error _) => s
  | (s, .ok _) => (s.send (.page selection)).1

theorem execute_state {s : State} (h : s.draft.executed = false) (source : Source) :
    (s.execute source).1 =
      { session := s.session.sendBoth (s.draft.selection source)
        draft := { s.draft with executed := true } } := by
  have hconditions : s.draft.allConditions source = (s.draft.selection source).conditions := rfl
  rw [execute_of_open h, Session.sendBoth, hconditions]
  generalize s.draft.selection source = selection
  obtain ⟨session, outcome⟩ := s.session.send (.count selection.conditions)
  cases outcome with
  | error fault => rfl
  | ok count =>
      dsimp only
      obtain ⟨session, outcome⟩ := session.send (.page selection)
      cases outcome with
      | error fault => rfl
      | ok page =>
          dsimp only
          split
          · split <;> rfl
          · rfl

theorem execute_of_spent {s : State} (h : s.draft.executed = true) (source : Source) :
    s.execute source = (s, .error .adapterSpent) := by
  simp [State.execute, Draft.ensureOpen, h]

theorem isSingleUse_adapter (source : Source) :
    (adapter source).IsSingleUse fun s => s.draft.executed where
  spent_execute s := by
    change (s.execute source).1.draft.executed = true
    cases h : s.draft.executed with
    | true => rw [execute_of_spent h, h]
    | false => rw [execute_state h]
  apply_of_spent s call h := by
    simp only [adapter, Draft.apply_of_spent h]
  execute_of_spent s h := execute_of_spent h source

end Relational

/-- Once an execution has been asked for, adapters keep their state and refuse to execute again.
Calls are refused as well, but for those that come to nothing or fail before they reach the state.
-/
theorem spent_adapters_refuse (before rest : List Event) :
    (∀ (registry : Registry) (s : Document.Session),
      let a := Document.adapter registry
      let spent := a.after s (before ++ .execution :: rest)
      a.execute spent = (spent, .error .adapterSpent) ∧
      ∀ call, a.apply spent call =
        (spent, if Document.isIdle call then .ok () else .error .adapterSpent)) ∧
    ∀ (source : Relational.Source) (s : Relational.State),
      let a := Relational.adapter source
      let spent := a.after s (before ++ .execution :: rest)
      a.execute spent = (spent, .error .adapterSpent) ∧
      ∀ call, a.apply spent call =
        (spent, if source.reachesDraft call then .error .adapterSpent
          else (Relational.Change.ofCall source call).2) := by
  constructor
  · intro registry s a spent
    have hspent := (Document.isSingleUse_adapter registry).isSpent_after_execution s before rest
    exact ⟨Document.execute_of_spent hspent, Document.apply_of_spent registry hspent⟩
  · intro source s a spent
    have hspent := (Relational.isSingleUse_adapter source).isSpent_after_execution s before rest
    refine ⟨Relational.execute_of_spent hspent source, fun call => ?_⟩
    change ({ spent with draft := (spent.draft.apply source call).1 },
      (spent.draft.apply source call).2) = _
    rw [Relational.Draft.apply_of_spent hspent]

/-- After an execution a range without bounds and, where no columns are declared for it, free text
are taken for done, and a column is still missed. -/
theorem spent_adapters_take_calls :
    (let a := Document.adapter articleRegistry
     let spent := a.after { collection := .documents articleDocuments } [.execution]
     (a.apply spent (.range "title" .null .null)).2 = .ok ()) ∧
    let a := Relational.adapter articleSource
    let spent := a.after { session := { database := articles } } [.execution]
    (a.apply spent (.range "title" .null .null)).2 = .ok () ∧
    (a.apply spent (.textSearch "word")).2 = .ok () ∧
    (a.apply spent (.equality "rating" (.int 1))).2 =
      .error (.unknownColumn "articles" "rating") :=
  ⟨rfl, rfl, rfl, rfl⟩

end Catalogue
