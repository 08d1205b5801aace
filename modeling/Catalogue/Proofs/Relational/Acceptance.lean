import Catalogue.Proofs.Failing
import Catalogue.Proofs.Relational.Execution
import Catalogue.Proofs.Relational.Limits

/-!
When a session lets a listing through: its statements are within the limits of the engine, all that
they send can be bound, and the engine comes to no pattern that is too long.
-/

namespace Catalogue.Relational

def IsBindable (c : Condition) : Prop :=
  ∃ parameters cells, c.parameters? = some parameters ∧ parameters.mapM bind = .ok cells

/-- Bounds of a page that can be sent. -/
def IsSendable (bound : Option Int) : Prop :=
  ∀ n ∈ bound, isStorable n = true

theorem conditionParameters?_cons (c : Condition) (rest : List Condition) :
    conditionParameters? (c :: rest) = do
      return (← c.parameters?) ++ (← conditionParameters? rest) := by
  unfold conditionParameters?
  rw [List.mapM_cons]
  cases c.parameters? with
  | none => rfl
  | some parameters => cases rest.mapM Condition.parameters? <;> rfl

theorem exists_conditionParameters_iff {conditions : List Condition} :
    (∃ parameters, conditionParameters? conditions = some parameters ∧
      ∃ cells, parameters.mapM bind = .ok cells) ↔ ∀ c ∈ conditions, IsBindable c := by
  constructor
  · rintro ⟨parameters, hparameters, hcells⟩
    induction conditions generalizing parameters with
    | nil => exact List.forall_mem_nil _
    | cons c rest ih =>
        rw [conditionParameters?_cons] at hparameters
        obtain ⟨first, hfirst, hparameters⟩ := Option.bind_eq_some_iff.mp hparameters
        obtain ⟨others, hothers, hparameters⟩ := Option.bind_eq_some_iff.mp hparameters
        cases hparameters
        obtain ⟨hfirstCells, hotherCells⟩ :=
          List.forall_mem_append.mp (exists_mapM_ok_iff.mp hcells)
        obtain ⟨cells, hcells⟩ := exists_mapM_ok_iff.mpr hfirstCells
        exact List.forall_mem_cons.mpr ⟨⟨first, cells, hfirst, hcells⟩,
          ih others hothers (exists_mapM_ok_iff.mpr hotherCells)⟩
  · intro h
    induction conditions with
    | nil => exact ⟨[], rfl, [], rfl⟩
    | cons c rest ih =>
        obtain ⟨⟨first, cells, hfirst, hcells⟩, hrest⟩ := List.forall_mem_cons.mp h
        obtain ⟨others, hothers, cells', hcells'⟩ := ih hrest
        refine ⟨first ++ others, ?_, cells ++ cells', ?_⟩
        · rw [conditionParameters?_cons, hfirst, hothers]
          rfl
        · rw [List.mapM_append, hcells, hcells']
          rfl

theorem exists_bind_int_iff {n : Int} : (∃ c, bind (.int n) = .ok c) ↔ isStorable n = true := by
  simp only [bind]
  cases isStorable n <;> simp

theorem exists_mapM_pageParameters_iff {limit offset : Option Int} :
    (∃ cells, (pageParameters limit offset).mapM bind = .ok cells) ↔
      IsSendable limit ∧ IsSendable offset := by
  have hdefault : isStorable (-1) = true ∧ isStorable 0 = true := by decide
  rw [exists_mapM_ok_iff]
  unfold pageParameters
  cases limit <;> cases offset <;> simp [exists_bind_int_iff, IsSendable, hdefault]

namespace Session

theorem bindFault_eq_none_iff {parameters : List Value} :
    bindFault parameters = none ↔ ∃ cells, parameters.mapM bind = .ok cells := by
  unfold bindFault
  cases parameters.mapM bind with
  | ok cells => simp
  | error fault => cases fault <;> simp

theorem faultOf_eq_none_iff {db : Database} {statement : Statement} {parameters : List Value} :
    faultOf db statement parameters = none ↔ db.dropped = false ∧
      statement.isWithinLimits = true ∧ (∃ cells, parameters.mapM bind = .ok cells) ∧
      db.triesTooLong statement.conditions = false := by
  rw [← bindFault_eq_none_iff]
  unfold faultOf
  cases db.dropped with
  | true => simp
  | false =>
      cases statement.isWithinLimits with
      | false => simp
      | true =>
          cases bindFault parameters with
          | some fault => simp
          | none => simp

theorem refusal?_eq_none_iff {s : Session} {statement : Statement} :
    s.refusal? statement = none ↔ s.faults.head?.join = none ∧ ∃ parameters,
      statement.parameters? = some parameters ∧
      faultOf s.database statement parameters = none := by
  unfold refusal?
  cases s.faults.head?.join with
  | some fault => simp
  | none => cases statement.parameters? <;> simp

/-- Nothing stops a selection's count or its page. -/
structure Takes (s : Session) (selection : Selection) : Prop where
  undisturbed : s.faults.head?.join = none ∧ s.next.faults.head?.join = none
  present : s.database.dropped = false
  limited : (Statement.page selection).isWithinLimits = true
  bindable : ∀ c ∈ selection.conditions, IsBindable c
  sendable : IsSendable selection.limit ∧ IsSendable selection.offset
  /-- The engine comes to no pattern that is too long. -/
  tried : s.database.triesTooLong selection.conditions = false

theorem refusal?_count_eq_none_iff {s : Session} {conditions : List Condition} :
    s.refusal? (.count conditions) = none ↔ s.faults.head?.join = none ∧
      s.database.dropped = false ∧ (Statement.count conditions).isWithinLimits = true ∧
      (∀ c ∈ conditions, IsBindable c) ∧ s.database.triesTooLong conditions = false := by
  rw [refusal?_eq_none_iff, ← exists_conditionParameters_iff]
  simp only [faultOf_eq_none_iff, Statement.parameters?, Statement.conditions]
  constructor
  · rintro ⟨hfaults, parameters, hparameters, present, limited, hcells, tried⟩
    exact ⟨hfaults, present, limited, ⟨parameters, hparameters, hcells⟩, tried⟩
  · rintro ⟨hfaults, present, limited, ⟨parameters, hparameters, hcells⟩, tried⟩
    exact ⟨hfaults, parameters, hparameters, present, limited, hcells, tried⟩

theorem refusal?_page_eq_none_iff {s : Session} {selection : Selection} :
    s.refusal? (.page selection) = none ↔ s.faults.head?.join = none ∧
      s.database.dropped = false ∧ (Statement.page selection).isWithinLimits = true ∧
      (∀ c ∈ selection.conditions, IsBindable c) ∧
      (IsSendable selection.limit ∧ IsSendable selection.offset) ∧
      s.database.triesTooLong selection.conditions = false := by
  rw [refusal?_eq_none_iff, ← exists_conditionParameters_iff, ← exists_mapM_pageParameters_iff]
  simp only [faultOf_eq_none_iff, Statement.parameters?, Statement.conditions]
  constructor
  · rintro ⟨hfaults, parameters, hparameters, present, limited, hcells, tried⟩
    obtain ⟨first, hfirst, hparameters⟩ := Option.bind_eq_some_iff.mp hparameters
    cases hparameters
    obtain ⟨hfirstCells, hpageCells⟩ := List.forall_mem_append.mp (exists_mapM_ok_iff.mp hcells)
    exact ⟨hfaults, present, limited, ⟨first, hfirst, exists_mapM_ok_iff.mpr hfirstCells⟩,
      exists_mapM_ok_iff.mpr hpageCells, tried⟩
  · rintro ⟨hfaults, present, limited, ⟨first, hfirst, hfirstCells⟩, hpageCells, tried⟩
    refine ⟨hfaults, _, by rw [hfirst]; rfl, present, limited, ?_, tried⟩
    exact exists_mapM_ok_iff.mpr (List.forall_mem_append.mpr
      ⟨exists_mapM_ok_iff.mp hfirstCells, exists_mapM_ok_iff.mp hpageCells⟩)

theorem takes_iff {s : Session} {selection : Selection} :
    s.Takes selection ↔ s.refusal? (.count selection.conditions) = none ∧
      s.next.refusal? (.page selection) = none := by
  rw [refusal?_page_eq_none_iff, refusal?_count_eq_none_iff]
  constructor
  · rintro ⟨⟨hnow, hnext⟩, present, limited, bindable, sendable, tried⟩
    exact ⟨⟨hnow, present, Statement.isWithinLimits_count limited, bindable, tried⟩,
      ⟨hnext, present, limited, bindable, sendable, tried⟩⟩
  · rintro ⟨⟨hnow, -⟩, ⟨hnext, present, limited, bindable, sendable, tried⟩⟩
    exact ⟨⟨hnow, hnext⟩, present, limited, bindable, sendable, tried⟩

end Session

theorem Draft.outcome_of_refusal {source : Source} {s : Session} {d : Draft} {fault : SessionFault}
    (h : s.refusal? (.count (d.allConditions source)) = some fault) :
    d.outcome source s = .error (listingFailure fault) := by
  unfold outcome
  rw [h]

theorem Draft.outcome_of_takes {source : Source} {s : Session} {d : Draft}
    (takes : s.Takes (d.selection source)) : d.outcome source s = d.page source s := by
  obtain ⟨hcount, hpage⟩ := Session.takes_iff.mp takes
  change s.refusal? (.count (d.allConditions source)) = none at hcount
  unfold outcome
  rw [hcount, hpage]

theorem Draft.outcome_eq_ok_iff {source : Source} {s : Session} {d : Draft} {page : Page} :
    d.outcome source s = .ok page ↔ s.Takes (d.selection source) ∧ d.page source s = .ok page := by
  have hconditions : (d.selection source).conditions = d.allConditions source := rfl
  rw [Session.takes_iff, hconditions]
  unfold outcome
  cases s.refusal? (.count (d.allConditions source)) with
  | some fault => simp
  | none =>
      cases s.next.refusal? (.page (d.selection source)) with
      | some fault => simp
      | none => simp

/-- Of all that can be bound, a session without faults refuses nothing but by rejecting it. -/
theorem Session.eq_rejected_of_refusal? {s : Session} {statement : Statement} {fault : SessionFault}
    (undisturbed : s.faults.head?.join = none)
    (bindable : ∃ parameters, statement.parameters? = some parameters ∧
      ∃ cells, parameters.mapM bind = .ok cells)
    (h : s.refusal? statement = some fault) : fault = .rejected := by
  obtain ⟨parameters, hparameters, hcells⟩ := bindable
  unfold refusal? faultOf at h
  rw [undisturbed, hparameters] at h
  dsimp only at h
  rw [bindFault_eq_none_iff.mpr hcells] at h
  have hrejects : (if s.database.dropped || !statement.isWithinLimits then some .rejected
      else if s.database.triesTooLong statement.conditions then some .rejected else none) =
        some fault := h
  split at hrejects
  · exact (Option.some.inj hrejects).symm
  · split at hrejects
    · exact (Option.some.inj hrejects).symm
    · cases hrejects

theorem Draft.outcome_of_unlimited {source : Source} {s : Session} {d : Draft}
    (undisturbed : s.faults = []) (bindable : ∀ c ∈ d.allConditions source, IsBindable c)
    (sendable : IsSendable d.limit ∧ IsSendable d.offset)
    (unlimited : (Statement.page (d.selection source)).isWithinLimits = false) :
    d.outcome source s = .error .queryRejected := by
  obtain ⟨parameters, hparameters, hcells⟩ := exists_conditionParameters_iff.mpr bindable
  have hcount : ∀ fault, s.refusal? (.count (d.allConditions source)) = some fault →
      fault = .rejected := fun _ =>
    Session.eq_rejected_of_refusal? (by rw [undisturbed]; rfl) ⟨parameters, hparameters, hcells⟩
  have hpage : ∀ fault, s.next.refusal? (.page (d.selection source)) = some fault →
      fault = .rejected := by
    intro fault
    refine Session.eq_rejected_of_refusal? (by simp [Session.next, undisturbed])
      ⟨parameters ++ pageParameters d.limit d.offset, ?_, ?_⟩
    · change (conditionParameters? (d.allConditions source)).bind _ = _
      rw [hparameters]
      rfl
    · exact exists_mapM_ok_iff.mpr (List.forall_mem_append.mpr ⟨exists_mapM_ok_iff.mp hcells,
        exists_mapM_ok_iff.mp (exists_mapM_pageParameters_iff.mpr sendable)⟩)
  unfold outcome
  cases hc : s.refusal? (.count (d.allConditions source)) with
  | some fault => rw [hcount fault hc]; rfl
  | none =>
      cases hp : s.next.refusal? (.page (d.selection source)) with
      | some fault => rw [hpage fault hp]; rfl
      | none =>
          have takes : s.Takes (d.selection source) := Session.takes_iff.mpr ⟨hc, hp⟩
          rw [takes.limited] at unlimited
          cases unlimited

theorem Database.select_of_perm (db : Database) (s : Selection) {conditions : List Condition}
    (h : conditions.Perm s.conditions) : db.select { s with conditions } = db.select s := by
  have hselected : db.isSelected conditions = db.isSelected s.conditions :=
    funext fun row => h.all_eq
  have hscan : db.scan conditions = db.scan s.conditions := by
    unfold scan
    split
    · rfl
    · rw [h.any_eq]
  simp only [select, hselected, hscan]

/-- Two selections on the same conditions that are within the limits are taken alike, in whatever
order the conditions stand, unless a pattern is too long. -/
theorem Session.takes_iff_of_perm (s : Session) {selection : Selection}
    {conditions : List Condition} (h : conditions.Perm selection.conditions)
    (short : ∀ c ∈ selection.conditions, ∀ a ∈ c, a.isTooLong = false)
    (limited : (Statement.page selection).isWithinLimits = true)
    (limited' : (Statement.page { selection with conditions }).isWithinLimits = true) :
    s.Takes { selection with conditions } ↔ s.Takes selection := by
  constructor
  · intro takes
    exact ⟨takes.undisturbed, takes.present, limited,
      fun c hc => takes.bindable c (h.mem_iff.mpr hc), takes.sendable,
      s.database.triesTooLong_eq_false short⟩
  · intro takes
    exact ⟨takes.undisturbed, takes.present, limited',
      fun c hc => takes.bindable c (h.mem_iff.mp hc), takes.sendable,
      s.database.triesTooLong_eq_false fun c hc => short c (h.mem_iff.mp hc)⟩

theorem Draft.isShort_allConditions {source : Source} {d : Draft}
    (short : ∀ c ∈ d.conditions, ∀ a ∈ c, a.isTooLong = false) :
    ∀ c ∈ d.allConditions source, ∀ a ∈ c, a.isTooLong = false := by
  unfold allConditions
  rw [List.forall_mem_append]
  refine ⟨short, ?_⟩
  cases source.markerColumn? <;> simp [Atom.isTooLong]

theorem Draft.isWithinLimits_of_few {source : Source} {d : Draft} (few : d.conditions.length < 990)
    (plain : ∀ c ∈ d.conditions, c.depth ≤ 4)
    (placeholders : conditionPlaceholders d.conditions ≤ 30000)
    (ordered : (d.fullOrder source).length ≤ maxSortKeys) :
    (Statement.page (d.selection source)).isWithinLimits = true := by
  refine Statement.isWithinLimits_of_few ?_ ?_ ?_ ordered
  · change (d.allConditions source).length ≤ 990
    unfold allConditions
    cases source.markerColumn? <;> simp <;> omega
  · refine List.forall_mem_append.mpr ⟨plain, ?_⟩
    cases source.markerColumn? <;> simp [Condition.depth, joinedDepth, Atom.depth]
  · change conditionPlaceholders (d.allConditions source) ≤ 30000
    unfold allConditions
    cases source.markerColumn? <;>
      simpa [conditionPlaceholders, Condition.placeholders, Atom.placeholders] using placeholders

section Permuted

variable {d : Draft} {conditions : List Condition} (h : conditions.Perm d.conditions)
include h

theorem Draft.allConditions_perm (source : Source) :
    (({ d with conditions } : Draft).allConditions source).Perm (d.allConditions source) :=
  h.append_right _

theorem Draft.page_of_perm (source : Source) (s : Session) :
    ({ d with conditions } : Draft).page source s = d.page source s := by
  have hall := allConditions_perm h source
  have hselect := s.database.select_of_perm (d.selection source) hall
  have hselected : s.database.selected (({ d with conditions } : Draft).allConditions source) =
      s.database.selected (d.allConditions source) :=
    List.filter_congr fun row _ => hall.all_eq
  unfold page
  rw [hselected, ← hselect]
  rfl

theorem Draft.takes_iff_of_perm (source : Source) (s : Session)
    (short : ∀ c ∈ d.conditions, ∀ a ∈ c, a.isTooLong = false)
    (limited : (Statement.page (d.selection source)).isWithinLimits = true)
    (limited' : (Statement.page
      (({ d with conditions } : Draft).selection source)).isWithinLimits = true) :
    s.Takes (({ d with conditions } : Draft).selection source) ↔ s.Takes (d.selection source) :=
  s.takes_iff_of_perm (allConditions_perm h source) (isShort_allConditions short) limited limited'

end Permuted

end Catalogue.Relational
