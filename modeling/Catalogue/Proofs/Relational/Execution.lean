import Catalogue.Proofs.Store.Page
import Catalogue.Relational.Adapter

/-!
What a run of the relational adapter comes to: a count and then a page, unless one of the two is
refused.
-/

namespace Catalogue.Relational

namespace Session

/-- Why a statement fails when it is sent, if it does. -/
def refusal? (s : Session) (statement : Statement) : Option SessionFault :=
  match s.faults.head?.join with
  | some fault => some fault
  | none =>
    match statement.parameters? with
    | none => some .rejected
    | some parameters => faultOf s.database statement parameters

def next (s : Session) : Session :=
  { s with faults := s.faults.drop 1 }

theorem send_outcome (s : Session) (statement : Statement) :
    (s.send statement).2 =
      match s.refusal? statement with
      | some fault => .error fault
      | none => .ok (s.database.run statement).2 := by
  unfold send refusal?
  split
  · rename_i fault rest h
    simp [h]
  · rename_i faults h
    have hdue : s.faults.head?.join = none := by
      cases hf : s.faults with
      | nil => rfl
      | cons due rest =>
          cases due with
          | none => rfl
          | some fault => exact absurd hf (h fault rest)
    rw [hdue]
    dsimp only
    cases statement.parameters? with
    | none => rfl
    | some parameters =>
        dsimp only
        cases faultOf s.database statement parameters <;> rfl

theorem send_database {s : Session} {statement : Statement}
    (reads : (s.database.run statement).1 = s.database) :
    (s.send statement).1.database = s.database := by
  unfold send
  split
  · rfl
  · dsimp only
    cases statement.parameters? with
    | none => rfl
    | some parameters =>
        dsimp only
        cases faultOf s.database statement parameters with
        | none => exact reads
        | some fault => rfl

theorem send_faults (s : Session) (statement : Statement) :
    (s.send statement).1.faults = s.faults.drop 1 := by
  unfold send
  split
  · rename_i fault rest h
    simp [h]
  · dsimp only
    cases statement.parameters? with
    | none => rfl
    | some parameters =>
        dsimp only
        cases faultOf s.database statement parameters <;> rfl

/-- A refusal depends on the session only through its faults and its database. -/
theorem refusal?_congr {s s' : Session} (hf : s.faults = s'.faults)
    (hd : s.database = s'.database) (statement : Statement) :
    s.refusal? statement = s'.refusal? statement := by
  unfold refusal?
  rw [hf, hd]

end Session

/-- Can every cell of the row be read? -/
def Table.IsReadable (t : Table) (row : Row) : Prop :=
  ∀ entry ∈ t.columns.zip row, readFault? entry.1.type entry.2 = none

instance (t : Table) (row : Row) : Decidable (t.IsReadable row) :=
  inferInstanceAs (Decidable (∀ entry ∈ t.columns.zip row, readFault? entry.1.type entry.2 = none))

theorem Table.readRow_eq_ok_iff {t : Table} {row : Row} {values : Entries} :
    t.readRow row = .ok values ↔ t.IsReadable row ∧ values = t.rowValues row := by
  unfold readRow
  split
  · rename_i fault hfault
    refine iff_of_false nofun ?_
    rintro ⟨readable, -⟩
    rw [List.findSome?_eq_none_iff.mpr readable] at hfault
    cases hfault
  · rename_i hreadable
    have readable : t.IsReadable row := List.findSome?_eq_none_iff.mp hreadable
    rw [and_iff_right readable, Except.ok.injEq, eq_comm]

/-- The page of a draft, if its rows can be read. -/
def Draft.page (source : Source) (s : Session) (d : Draft) : Outcome Page :=
  Page.of source.table.readRow (s.database.select (d.selection source))
    (s.database.selected (d.allConditions source)).length

/-- What a draft comes to when it is executed: the count and then the page, unless one of the two is
refused. -/
def Draft.outcome (source : Source) (s : Session) (d : Draft) : Outcome Page :=
  match s.refusal? (.count (d.allConditions source)) with
  | some fault => .error (listingFailure fault)
  | none =>
    match s.next.refusal? (.page (d.selection source)) with
    | some fault => .error (listingFailure fault)
    | none => d.page source s

/-- An open draft is executed in two steps, the count and the page of its selection. -/
theorem execute_of_open {source : Source} {s : State} (h : s.draft.executed = false) :
    State.execute source s =
      match s.session.send (.count (s.draft.allConditions source)) with
      | (session, .error fault) =>
        ({ session, draft := { s.draft with executed := true } }, .error (listingFailure fault))
      | (session, .ok count) =>
        match session.send (.page (s.draft.selection source)) with
        | (session, .error fault) =>
          ({ session, draft := { s.draft with executed := true } }, .error (listingFailure fault))
        | (session, .ok page) =>
          match count, page with
          | .number total, .rows rows =>
            match rows.mapM source.table.readRow with
            | .ok rows => ({ session, draft := { s.draft with executed := true } }, .ok { rows, total })
            | .error fault =>
              ({ session, draft := { s.draft with executed := true } }, .error (.fault fault))
          | _, _ =>
            ({ session, draft := { s.draft with executed := true } }, .error .queryRejected) := by
  have hopen : s.draft.ensureOpen = .ok () := by simp [Draft.ensureOpen, h]
  unfold State.execute
  rw [hopen]
  rfl

theorem execute_eq_outcome {source : Source} {s : State} (h : s.draft.executed = false) :
    (State.execute source s).2 = s.draft.outcome source s.session := by
  rw [execute_of_open h]
  have hcount := s.session.send_outcome (.count (s.draft.allConditions source))
  have hdatabase : (s.session.send (.count (s.draft.allConditions source))).1.database =
      s.session.database := Session.send_database rfl
  have hfaults := s.session.send_faults (.count (s.draft.allConditions source))
  unfold Draft.outcome
  generalize s.session.send (.count (s.draft.allConditions source)) = sent at *
  obtain ⟨session, outcome⟩ := sent
  dsimp only at hcount hdatabase hfaults
  subst hcount
  cases s.session.refusal? (.count (s.draft.allConditions source)) with
  | some fault => rfl
  | none =>
      dsimp only
      have hpage := session.send_outcome (.page (s.draft.selection source))
      have hnext : session.refusal? (.page (s.draft.selection source)) =
          s.session.next.refusal? (.page (s.draft.selection source)) :=
        @Session.refusal?_congr session s.session.next hfaults hdatabase _
      rw [hnext, hdatabase] at hpage
      generalize session.send (.page (s.draft.selection source)) = sentPage at *
      obtain ⟨session', outcome⟩ := sentPage
      dsimp only at hpage
      subst hpage
      cases s.session.next.refusal? (.page (s.draft.selection source)) with
      | some fault => rfl
      | none =>
          simp only [Database.run, Draft.page, Page.of]
          cases (s.session.database.select (s.draft.selection source)).mapM
            source.table.readRow <;> rfl

theorem isTooLong_equalTo (c : Column) (v : Value) :
    (Condition.equalTo c v).isTooLong = false := by
  cases v <;> rfl

theorem isTooLong_differentFrom (c : Column) (v : Value) :
    (Condition.differentFrom c v).isTooLong = false := by
  cases v <;> rfl

theorem Database.triesTooLong_eq_false (db : Database) {conditions : List Condition}
    (h : ∀ c ∈ conditions, ∀ a ∈ c, a.isTooLong = false) : db.triesTooLong conditions = false := by
  have hnone : (conditions.any (·.any Atom.isTooLong)) = false := by
    simp only [List.any_eq_false, Bool.not_eq_true]
    exact h
  rw [triesTooLong, hnone, Bool.false_and]

end Catalogue.Relational
