import Catalogue.Proofs.Store.SingleUse

/-!
The one query of an adapter. The first execution of a history asks for what the calls before it have
set up, and nothing later asks again or changes what was asked for.
-/

namespace Catalogue

namespace Adapter.IsSingleUse

variable {σ : Type} {a : Adapter σ} {isSpent : σ → Bool} (single : a.IsSingleUse isSpent)
include single

/-- Only the first execution of a history counts, if there is one. -/
theorem after_eq (s : σ) (history : List Event) :
    Event.execution ∉ history ∨
      ∃ before rest, history = before ++ .execution :: rest ∧ Event.execution ∉ before ∧
        a.after s history = (a.execute (a.after s before)).1 := by
  by_cases h : Event.execution ∈ history
  · obtain ⟨before, rest, rfl, hbefore⟩ := List.eq_append_cons_of_mem h
    exact .inr ⟨before, rest, rfl, hbefore, single.after_execution s before rest⟩
  · exact .inl h

end Adapter.IsSingleUse

namespace Document

theorem total_execute {registry : Registry} {s : Session} {page : Page}
    (h : (execute registry s).2 = .ok page) : (execute registry s).1.total = page.total := by
  cases hs : s.executed with
  | true =>
      rw [execute_of_spent hs] at h
      cases h
  | false =>
      rw [execute_of_open hs] at h ⊢
      dsimp only
      rw [count?_of_pageOf h]
      rfl

theorem apply_state (registry : Registry) (s : Session) (call : Call) :
    (apply registry s call).1 = { s with pipeline := (apply registry s call).1.pipeline } := by
  unfold apply
  split
  · rfl
  · split <;> rfl

theorem after_calls (registry : Registry) (s : Session) {history : List Event}
    (h : Event.execution ∉ history) :
    let t : Session := (adapter registry).after s history
    t.collection = s.collection ∧ t.executed = s.executed ∧ t.sent = s.sent ∧ t.total = s.total := by
  refine Adapter.after_induction
    (P := fun t : Session => t.collection = s.collection ∧ t.executed = s.executed ∧ t.sent = s.sent ∧
      t.total = s.total) (fun t call ht => ?_) h ⟨rfl, rfl, rfl, rfl⟩
  have happly : ((adapter registry).apply t call).1 = _ := apply_state registry t call
  rw [happly]
  exact ht

end Document

namespace Relational

theorem Session.asked_send (s : Session) (statement : Statement) :
    (s.send statement).1.asked = s.asked ++ [statement] := by
  unfold send
  split
  · rfl
  · dsimp only
    cases statement.parameters? with
    | none => rfl
    | some parameters =>
        dsimp only
        cases faultOf s.database statement parameters <;> rfl

/-- A page is asked for only where the count is answered. -/
theorem Session.asked_sendBoth (s : Session) (selection : Selection) :
    (s.sendBoth selection).asked = s.asked ++ .count selection.conditions ::
      if (s.send (.count selection.conditions)).2.isOk then [.page selection] else [] := by
  have hcount := s.asked_send (.count selection.conditions)
  unfold sendBoth
  revert hcount
  obtain ⟨session, outcome⟩ := s.send (.count selection.conditions)
  intro hcount
  cases outcome with
  | error fault => exact hcount
  | ok result =>
      dsimp only at hcount ⊢
      rw [asked_send, hcount, List.append_assoc]
      rfl

theorem after_calls (source : Source) (s : State) {history : List Event}
    (h : Event.execution ∉ history) :
    let t : State := (adapter source).after s history
    t.session = s.session ∧ t.draft.executed = s.draft.executed :=
  Adapter.after_induction
    (P := fun t : State => t.session = s.session ∧ t.draft.executed = s.draft.executed)
    (fun t call ht => ⟨ht.1, (executed_apply source t.draft call).trans ht.2⟩) h ⟨rfl, rfl⟩

end Relational

/-- However often a fresh adapter is told to execute, a collection is asked one pipeline, and a
table one count and, exactly where that is answered, one page. -/
theorem adapters_ask_once (history : List Event) :
    (∀ (registry : Registry) (collection : Document.Collection),
      let a := Document.adapter registry
      let fresh : Document.Session := { collection }
      let s := a.after fresh history
      (Event.execution ∉ history ∧ s.sent = [] ∧ s.total = 0 ∨
        ∃ before rest, history = before ++ .execution :: rest ∧ Event.execution ∉ before ∧
          let p := (a.after fresh before).pipeline
          s.pipeline = p ∧ s.sent = [p.completed registry] ∧
          s.total = (collection.count? (p.completed registry)).getD 0) ∧
      ∀ before rest page, history = before ++ .execution :: rest →
        (a.execute (a.after fresh before)).2 = .ok page → s.total = page.total) ∧
    ∀ (source : Relational.Source) (session : Relational.Session),
      let a := Relational.adapter source
      let fresh : Relational.State := { session }
      let s := a.after fresh history
      Event.execution ∉ history ∧ s.session = session ∨
        ∃ before rest, history = before ++ .execution :: rest ∧ Event.execution ∉ before ∧
          let d := (a.after fresh before).draft
          let selection := d.selection source
          s.draft = { d with executed := true } ∧ s.session = session.sendBoth selection ∧
          s.session.asked = session.asked ++ .count selection.conditions ::
            if (session.send (.count selection.conditions)).2.isOk then [.page selection] else [] := by
  constructor
  · intro registry collection a fresh s
    have single := Document.isSingleUse_adapter registry
    constructor
    · obtain hnone | ⟨before, rest, hhistory, hbefore, hs⟩ := single.after_eq fresh history
      · obtain ⟨-, -, hsent, htotal⟩ := Document.after_calls registry fresh hnone
        exact .inl ⟨hnone, hsent, htotal⟩
      · obtain ⟨hcollection, hopen, hsent, htotal⟩ := Document.after_calls registry fresh hbefore
        have hexecute := hs.trans (congrArg Prod.fst (Document.execute_of_open hopen))
        refine .inr ⟨before, rest, hhistory, hbefore, ?_, ?_, ?_⟩
        · rw [show s = _ from hexecute]
        · rw [show s = _ from hexecute, hsent]
          rfl
        · rw [show s = _ from hexecute, hcollection, htotal]
    · intro before rest page hhistory hpage
      have hs : s = (a.execute (a.after fresh before)).1 := by
        simp only [s, hhistory]
        exact single.after_execution fresh before rest
      rw [hs]
      exact Document.total_execute hpage
  · intro source session a fresh s
    have single := Relational.isSingleUse_adapter source
    obtain hnone | ⟨before, rest, hhistory, hbefore, hs⟩ := single.after_eq fresh history
    · exact .inl ⟨hnone, (Relational.after_calls source fresh hnone).1⟩
    · obtain ⟨hsession, hopen⟩ := Relational.after_calls source fresh hbefore
      have hexecute := hs.trans (Relational.execute_state hopen source)
      have hboth : s.session = session.sendBoth ((a.after fresh before).draft.selection source) :=
        (congrArg Relational.State.session hexecute).trans (by rw [hsession])
      refine .inr ⟨before, rest, hhistory, hbefore, ?_, hboth, ?_⟩
      · rw [show s = _ from hexecute]
      · rw [hboth]
        exact session.asked_sendBoth _

/-- The total of the page that is answered first stays when the adapter is told to execute again. -/
theorem total_of_answered_page_stays :
    let a := Document.adapter articleRegistry
    let history := [.call (.existence "id"), .execution, .call (.absence "id"), .execution]
    let answers := [Document.answer [[(.text "_id", .text "a")]] 5]
    (a.after { collection := .answering answers } history).total = 5 :=
  ((adapters_ask_once
    [.call (.existence "id"), .execution, .call (.absence "id"), .execution]).1
      articleRegistry (.answering [Document.answer [[(.text "_id", .text "a")]] 5])).2
    [.call (.existence "id")] [.call (.absence "id"), .execution]
    { rows := [[(.text "id", .text "a")]], total := 5 } rfl rfl

end Catalogue
