import Catalogue.Proofs.Query.Operands
import Catalogue.Proofs.Relational.Acceptance
import Catalogue.Proofs.Store.Paging

/-!
How an execution over a table fails. Apart from the failures of the store there are two more: an
integer that a parameter has no room for, and a stored point in time that cannot be read.
-/

namespace Catalogue.Relational

/-- Is there room for the value in a parameter? -/
def fits : Value → Bool
  | .int n => isStorable n
  | _ => true

theorem bind_eq_overflow_iff {v : Value} : bind v = .error .overflow ↔ fits v = false := by
  cases v with
  | int n =>
      simp only [bind, fits]
      cases isStorable n <;> simp
  | float x => cases x <;> simp [bind, fits]
  | _ => simp [bind, fits]

theorem ne_int_of_asNumber? {v : Value} {n : Int} : asNumber? v ≠ some (.int n) := by
  intro h
  cases v with
  | int m =>
      obtain ⟨-, h⟩ := Option.ite_none_right_eq_some.mp h
      cases h
  | text s =>
      obtain ⟨x, -, h⟩ := Option.map_eq_some_iff.mp h
      cases h
  | _ => cases h

theorem send?_of_ne_null {v : Value} (h : v ≠ .null) :
    send? .plain v = some v ∧ send? .boolean v = asBoolean? v ∧ send? .number v = asNumber? v := by
  cases v with
  | null => exact absurd rfl h
  | _ => exact ⟨rfl, rfl, rfl⟩

theorem int_of_send? {type : SendType} {v : Value} {n : Int} (h : send? type v = some (.int n)) :
    v = .int n ∨ isStorable n = true := by
  -- every type sends null as it is
  have hnull : v ≠ .null := by
    rintro rfl
    cases type <;> cases h
  obtain ⟨hplain, hboolean, hnumber⟩ := send?_of_ne_null hnull
  cases type with
  | plain => exact .inl (Option.some.inj (hplain.symm.trans h))
  | boolean =>
      rw [hboolean] at h
      unfold asBoolean? at h
      split at h
      · cases h
        exact .inr rfl
      · obtain ⟨-, h⟩ := Option.ite_none_right_eq_some.mp h
        cases h
        exact .inr rfl
  | number => exact absurd (hnumber.symm.trans h) ne_int_of_asNumber?
  | moment => cases v <;> cases h
  | date => cases v <;> cases h

theorem fits_of_send? {type : SendType} {v sent : Value} (hv : fits v = true)
    (h : send? type v = some sent) : fits sent = true := by
  cases sent with
  | int n =>
      rcases int_of_send? h with rfl | hn
      · exact hv
      · exact hn
  | _ => rfl

/-- The values that a part of a condition compares its column with. -/
def Atom.values : Atom → List Value
  | .compares _ _ v => [v]
  | .isAmong _ vs => vs
  | _ => []

theorem exists_of_mem_mapM {α β : Type} {f : α → Option β} {l : List α} {ys : List β}
    (h : l.mapM f = some ys) : ∀ y ∈ ys, ∃ a ∈ l, f a = some y := by
  induction l generalizing ys with
  | nil =>
      cases h
      exact List.forall_mem_nil _
  | cons a l ih =>
      rw [List.mapM_cons] at h
      obtain ⟨y, hy, h⟩ := Option.bind_eq_some_iff.mp h
      obtain ⟨rest, hrest, h⟩ := Option.bind_eq_some_iff.mp h
      cases h
      refine List.forall_mem_cons.mpr ⟨⟨a, .head _, hy⟩, fun z hz => ?_⟩
      obtain ⟨b, hb, hbz⟩ := ih hrest z hz
      exact ⟨b, .tail _ hb, hbz⟩

theorem Atom.fits_of_parameters? {a : Atom} {sent : List Value} (ha : ∀ v ∈ a.values, fits v = true)
    (h : a.parameters? = some sent) : ∀ w ∈ sent, fits w = true := by
  cases a with
  | compares c comparison v =>
      obtain ⟨w, hw, rfl⟩ := Option.map_eq_some_iff.mp h
      exact List.forall_mem_singleton.mpr (fits_of_send? (ha v (.head _)) hw)
  | isAmong c vs =>
      intro w hw
      obtain ⟨v, hv, hsent⟩ := exists_of_mem_mapM h w hw
      exact fits_of_send? (ha v hv) hsent
  | isNull c | isNotNull c | comparesTruth c comparison truth =>
      cases h
      exact List.forall_mem_nil _
  | matchesLike c pattern | matchesFolded c pattern =>
      cases h
      exact List.forall_mem_singleton.mpr rfl

theorem fits_of_conditionParameters? {conditions : List Condition} {parameters : List Value}
    (hconditions : ∀ c ∈ conditions, ∀ a ∈ c, ∀ v ∈ a.values, fits v = true)
    (h : conditionParameters? conditions = some parameters) : ∀ w ∈ parameters, fits w = true := by
  obtain ⟨lists, hlists, rfl⟩ := Option.map_eq_some_iff.mp h
  intro w hw
  obtain ⟨list, hlist, hw⟩ := List.mem_flatten.mp hw
  obtain ⟨c, hc, hparameters⟩ := exists_of_mem_mapM hlists list hlist
  obtain ⟨sents, hsents, rfl⟩ := Option.map_eq_some_iff.mp hparameters
  obtain ⟨sent, hsent, hw⟩ := List.mem_flatten.mp hw
  obtain ⟨a, ha, hparameters⟩ := exists_of_mem_mapM hsents sent hsent
  exact Atom.fits_of_parameters? (hconditions c hc a ha) hparameters w hw

/-- Is the first of the parameters that cannot be bound an integer that there is no room for? -/
def RunsOver (parameters : List Value) : Prop :=
  ∃ before v rest, parameters = before ++ v :: rest ∧ (∀ w ∈ before, ∃ c, bind w = .ok c) ∧
    fits v = false

theorem runsOver_iff {parameters : List Value} :
    RunsOver parameters ↔ parameters.mapM bind = .error .overflow := by
  rw [mapM_eq_error_iff]
  simp only [bind_eq_overflow_iff, RunsOver]

theorem runsOver_append {first second : List Value} {cells : List Cell}
    (h : first.mapM bind = .ok cells) : RunsOver (first ++ second) ↔ RunsOver second := by
  rw [runsOver_iff, runsOver_iff, List.mapM_append, h]
  cases second.mapM bind with
  | ok others => constructor <;> intro h <;> cases h
  | error e => exact Iff.rfl

theorem exists_int_of_mem_pageParameters {limit offset : Option Int} {v : Value}
    (h : v ∈ pageParameters limit offset) : ∃ n, v = .int n := by
  unfold pageParameters at h
  split at h
  · cases h
  · rcases List.mem_pair.mp h with rfl | rfl <;> exact ⟨_, rfl⟩

theorem runsOver_pageParameters_iff {limit offset : Option Int} :
    RunsOver (pageParameters limit offset) ↔ ¬(IsSendable limit ∧ IsSendable offset) := by
  rw [← exists_mapM_pageParameters_iff]
  constructor
  · rintro h ⟨cells, hcells⟩
    rw [runsOver_iff.mp h] at hcells
    cases hcells
  · intro h
    cases hpage : (pageParameters limit offset).mapM bind with
    | ok cells => exact absurd ⟨cells, hpage⟩ h
    | error e =>
        obtain ⟨before, v, rest, hsplit, hbefore, hv⟩ := mapM_eq_error_iff.mp hpage
        have hv' : v ∈ pageParameters limit offset :=
          hsplit ▸ List.mem_append_right _ (.head _)
        obtain ⟨n, rfl⟩ := exists_int_of_mem_pageParameters hv'
        refine ⟨before, .int n, rest, hsplit, hbefore, eq_false_of_ne_true fun hn => ?_⟩
        obtain ⟨c, hc⟩ := exists_bind_int_iff.mpr hn
        cases hv.symm.trans hc

namespace Session

/-- Is the statement refused because it comes upon an integer that there is no room for? The engine
has prepared it by then. -/
structure Overflows (s : Session) (statement : Statement) : Prop where
  undisturbed : s.faults.head?.join = none
  present : s.database.dropped = false
  limited : statement.isWithinLimits = true
  large : ∃ parameters, statement.parameters? = some parameters ∧ RunsOver parameters

theorem bindFault_eq_foreign_iff (parameters : List Value) (fault : Fault) :
    bindFault parameters = some (.foreign fault) ↔
      fault = .overflow ∧ parameters.mapM bind = .error .overflow := by
  unfold bindFault
  cases parameters.mapM bind with
  | ok cells => simp
  | error e => cases e <;> simp [eq_comm]

theorem faultOf_eq_foreign_iff {db : Database} {statement : Statement} {parameters : List Value}
    {fault : Fault} :
    faultOf db statement parameters = some (.foreign fault) ↔ fault = .overflow ∧
      db.dropped = false ∧ statement.isWithinLimits = true ∧
      parameters.mapM bind = .error .overflow := by
  have hforeign := bindFault_eq_foreign_iff parameters fault
  unfold faultOf
  cases db.dropped with
  | true => simp
  | false =>
      cases statement.isWithinLimits with
      | false => simp
      | true =>
          cases hbind : bindFault parameters with
          | some fault' => simpa [hbind] using hforeign
          | none =>
              rw [hbind] at hforeign
              simpa using hforeign

/-- A session whose connection fails in its own ways refuses in another way only for an integer that
there is no room for. -/
theorem refusal?_eq_foreign_iff {s : Session} (faults : ∀ fault, some (.foreign fault) ∉ s.faults)
    (statement : Statement) (fault : Fault) :
    s.refusal? statement = some (.foreign fault) ↔ fault = .overflow ∧ s.Overflows statement := by
  unfold refusal?
  cases hhead : s.faults.head?.join with
  | some fault' =>
      constructor
      · rintro ⟨rfl⟩
        exact absurd (List.mem_of_mem_head? (Option.join_eq_some_iff.mp hhead)) (faults fault)
      · rintro ⟨-, overflows⟩
        have hnone := overflows.undisturbed
        rw [hhead] at hnone
        cases hnone
  | none =>
      cases hparameters : statement.parameters? with
      | none =>
          constructor
          · intro h
            cases h
          · rintro ⟨-, overflows⟩
            obtain ⟨parameters, h, -⟩ := overflows.large
            rw [hparameters] at h
            cases h
      | some parameters =>
          dsimp only
          rw [faultOf_eq_foreign_iff, ← runsOver_iff]
          constructor
          · rintro ⟨rfl, present, limited, hlarge⟩
            exact ⟨rfl, hhead, present, limited, parameters, hparameters, hlarge⟩
          · rintro ⟨rfl, -, present, limited, _, h, hlarge⟩
            cases hparameters.symm.trans h
            exact ⟨rfl, present, limited, hlarge⟩

/-- Where a count is taken, the page of its conditions overflows exactly if it is prepared and one of
its bounds does not fit. -/
theorem overflows_page_iff {s : Session} {selection : Selection}
    (count : s.refusal? (.count selection.conditions) = none) :
    s.next.Overflows (.page selection) ↔ s.next.faults.head?.join = none ∧
      (Statement.page selection).isWithinLimits = true ∧
      ¬(IsSendable selection.limit ∧ IsSendable selection.offset) := by
  obtain ⟨-, parameters, hparameters, hfault⟩ := refusal?_eq_none_iff.mp count
  obtain ⟨present, -, ⟨cells, hcells⟩, -⟩ := faultOf_eq_none_iff.mp hfault
  have hpage : (Statement.page selection).parameters? =
      some (parameters ++ pageParameters selection.limit selection.offset) := by
    change conditionParameters? selection.conditions = some parameters at hparameters
    simp only [Statement.parameters?, hparameters]
    rfl
  rw [← runsOver_pageParameters_iff, ← runsOver_append hcells]
  constructor
  · rintro ⟨undisturbed, -, limited, _, h, hlarge⟩
    cases hpage.symm.trans h
    exact ⟨undisturbed, limited, hlarge⟩
  · rintro ⟨undisturbed, limited, hlarge⟩
    exact ⟨undisturbed, present, limited, _, hpage, hlarge⟩

end Session

/-- Does all fit that a call compares a field with? -/
def Fits : Call → Prop
  | .equality _ v | .negatedEquality _ v => fits v = true
  | .range _ lower upper => fits lower = true ∧ fits upper = true
  | .membership _ vs => ∀ v ∈ vs, fits v = true
  | _ => True

theorem fits_equalTo {c : Column} {v : Value} (h : fits v = true) :
    ∀ w ∈ (Condition.equalTo c v).values, fits w = true := by
  cases v with
  | null | bool b => exact List.forall_mem_nil _
  | _ => exact List.forall_mem_singleton.mpr h

theorem fits_differentFrom {c : Column} {v : Value} (h : fits v = true) :
    ∀ w ∈ (Condition.differentFrom c v).values, fits w = true := by
  cases v with
  | null | bool b => exact List.forall_mem_nil _
  | _ => exact List.forall_mem_singleton.mpr h

theorem fits_of_gives {call : Call} {a : Atom} (h : Change.Gives call a) (hcall : Fits call) :
    ∀ v ∈ a.values, fits v = true := by
  cases h with
  | equal f v c => exact fits_equalTo hcall
  | different f v c => exact fits_differentFrom hcall
  | lower f l u c => exact List.forall_mem_singleton.mpr hcall.1
  | upper f l u c => exact List.forall_mem_singleton.mpr hcall.2
  | among f vs c => exact hcall
  | _ => exact List.forall_mem_nil _

theorem fits_predicates {ps : List Predicate} (h : ∀ p ∈ ps, ∀ v ∈ p.operands, fits v = true) :
    ∀ call ∈ ps.map Predicate.call, Fits call := by
  rw [List.forall_mem_map]
  intro p hp
  have hoperands := h p hp
  cases p with
  | equals f v => exact hoperands v (.head _)
  | notEquals f v => exact hoperands v (.head _)
  | atLeast f v => exact ⟨hoperands v (.head _), rfl⟩
  | atMost f v => exact ⟨rfl, hoperands v (.head _)⟩
  | isAmong f vs => exact hoperands
  | _ => trivial

theorem fits_calls {plan : Plan} {request : Request}
    (operands : ∀ p ∈ plan.predicates, ∀ v ∈ p.operands, fits v = true) :
    ∀ call ∈ plan.calls request, Fits call := by
  have hsort : ∀ call ∈ plan.sort.map SortDirective.call, Fits call := by
    rw [List.forall_mem_map]
    intro d _
    unfold SortDirective.call
    cases d.seed <;> trivial
  refine List.forall_mem_append.mpr
    ⟨List.forall_mem_append.mpr ⟨fits_predicates operands, hsort⟩,
      List.forall_mem_cons.mpr ⟨trivial, ?_⟩⟩
  cases request.text with
  | none => exact List.forall_mem_nil _
  | some text =>
      dsimp only
      split
      · exact List.forall_mem_nil _
      · exact List.forall_mem_singleton.mpr trivial

theorem fits_of_draft {source : Source} {calls : List Call} {d : Draft}
    (h : source.draft calls = .ok d) (fit : ∀ call ∈ calls, Fits call) :
    ∀ c ∈ d.allConditions source, ∀ a ∈ c, ∀ v ∈ a.values, fits v = true := by
  unfold Draft.allConditions
  rw [List.forall_mem_append]
  constructor
  · intro c hc a ha
    obtain ⟨call, hcall, hgives⟩ := source.gives_of_draft h c hc a ha
    exact fits_of_gives hgives (fit call hcall)
  · cases source.markerColumn? <;> simp [Atom.values]

/-- How a listing may fail: as queries and connections do, by an overflow, or by a stored value that
cannot be read. -/
def IsListingFailure (e : Failure) : Prop :=
  e.kind? = some .rejected ∨ e.kind? = some .unavailable ∨ e = .fault .overflow ∨
    e = .fault .badValue ∨ e = .fault .badType

theorem isListingFailure_of_refusal? {s : Session}
    (faults : ∀ fault, some (.foreign fault) ∉ s.faults) {statement : Statement}
    {fault : SessionFault} (h : s.refusal? statement = some fault) :
    IsListingFailure (listingFailure fault) := by
  cases fault with
  | rejected => exact .inl rfl
  | unreachable | system name => exact .inr (.inl rfl)
  | foreign f =>
      obtain ⟨rfl, -⟩ := (Session.refusal?_eq_foreign_iff faults statement f).mp h
      exact .inr (.inr (.inl rfl))

theorem readFault_cases {type : ColumnType} {cell : Cell} {fault : Fault}
    (h : readFault? type cell = some fault) : fault = .badValue ∨ fault = .badType := by
  unfold readFault? at h
  split at h
  · split at h
    · cases h
    · exact .inl (Option.some.inj h).symm
  · exact .inr (Option.some.inj h).symm
  · exact .inr (Option.some.inj h).symm
  · exact .inr (Option.some.inj h).symm
  · cases h

theorem Table.readRow_fault_cases {t : Table} {row : Row} {fault : Fault}
    (h : t.readRow row = .error fault) : fault = .badValue ∨ fault = .badType := by
  unfold readRow at h
  split at h
  · rename_i hfound
    cases h
    obtain ⟨entry, -, hentry⟩ := List.exists_of_findSome?_eq_some hfound
    exact readFault_cases hentry
  · cases h

/-- Is there a row to show that cannot be read, and does the first such row have the fault? -/
def Draft.IsUnreadable (source : Source) (s : Session) (d : Draft) (fault : Fault) : Prop :=
  ∃ before row rest, s.database.select (d.selection source) = before ++ row :: rest ∧
    (∀ r ∈ before, source.table.IsReadable r) ∧ source.table.readRow row = .error fault

theorem Draft.page_eq_error_iff {source : Source} {s : Session} {d : Draft} {e : Failure} :
    d.page source s = .error e ↔ ∃ fault, e = .fault fault ∧ d.IsUnreadable source s fault := by
  have hread : ∀ row, (∃ values, source.table.readRow row = .ok values) ↔
      source.table.IsReadable row := by
    simp [Table.readRow_eq_ok_iff]
  have hunreadable : ∀ fault, d.IsUnreadable source s fault ↔
      (s.database.select (d.selection source)).mapM source.table.readRow = .error fault := by
    simp only [IsUnreadable, mapM_eq_error_iff, hread, implies_true]
  simp only [hunreadable]
  unfold page Page.of
  cases (s.database.select (d.selection source)).mapM source.table.readRow with
  | ok rows => simp
  | error fault => simp [eq_comm]

theorem Draft.outcome_eq_error_iff {source : Source} {s : Session} {d : Draft} {e : Failure} :
    d.outcome source s = .error e ↔
      (∃ fault, s.refusal? (.count (d.allConditions source)) = some fault ∧
        e = listingFailure fault) ∨
      s.refusal? (.count (d.allConditions source)) = none ∧
        (∃ fault, s.next.refusal? (.page (d.selection source)) = some fault ∧
          e = listingFailure fault) ∨
      s.Takes (d.selection source) ∧ ∃ fault, e = .fault fault ∧ d.IsUnreadable source s fault := by
  have htakes : s.Takes (d.selection source) ↔
      s.refusal? (.count (d.allConditions source)) = none ∧
        s.next.refusal? (.page (d.selection source)) = none := Session.takes_iff
  rw [htakes, ← page_eq_error_iff]
  unfold outcome
  cases s.refusal? (.count (d.allConditions source)) with
  | some fault => simp [eq_comm]
  | none =>
      cases s.next.refusal? (.page (d.selection source)) with
      | some fault => simp [eq_comm]
      | none => simp

/-- What an execution may rely on: the connection fails in ways of its own, and each text that is
sent is one that can be encoded. -/
structure State.IsOrdinary (source : Source) (s : State) : Prop where
  faults : ∀ fault, some (.foreign fault) ∉ s.session.faults
  /-- A text with a replacement may stand for one that cannot be encoded. -/
  encodable : ∀ parameters, conditionParameters? (s.draft.allConditions source) = some parameters →
    ∀ t, .text t ∈ parameters → Json.replacement ∉ t.toList

section Executed

variable {source : Source} {s : Session} {d : Draft}
  (faults : ∀ fault, some (.foreign fault) ∉ s.faults)
include faults

theorem faults_next : ∀ fault, some (.foreign fault) ∉ s.next.faults :=
  fun fault h => faults fault (List.mem_of_mem_drop h)

theorem isListingFailure_of_outcome {e : Failure} (h : d.outcome source s = .error e) :
    IsListingFailure e := by
  rcases Draft.outcome_eq_error_iff.mp h with
    ⟨fault, hcount, rfl⟩ | ⟨-, fault, hpage, rfl⟩ | ⟨-, fault, rfl, -, row, -, -, -, hrow⟩
  · exact isListingFailure_of_refusal? faults hcount
  · exact isListingFailure_of_refusal? (faults_next faults) hpage
  · rcases Table.readRow_fault_cases hrow with rfl | rfl
    · exact .inr (.inr (.inr (.inl rfl)))
    · exact .inr (.inr (.inr (.inr rfl)))

/-- A listing has a foreign fault where it overflows in its count or else in the bounds of its page,
or where a row that it shows cannot be read. -/
theorem Draft.outcome_eq_fault_iff (source : Source) (d : Draft) (fault : Fault) :
    d.outcome source s = .error (.fault fault) ↔
      fault = .overflow ∧ (s.Overflows (.count (d.allConditions source)) ∨
        s.refusal? (.count (d.allConditions source)) = none ∧
          s.next.faults.head?.join = none ∧
          (Statement.page (d.selection source)).isWithinLimits = true ∧
          ¬(IsSendable d.limit ∧ IsSendable d.offset)) ∨
      s.Takes (d.selection source) ∧ d.IsUnreadable source s fault := by
  have hforeign : ∀ f, Failure.fault fault = listingFailure f ↔ f = .foreign fault := by
    intro f
    cases f <;> simp [listingFailure, eq_comm]
  have hrow : (∃ f, Failure.fault fault = .fault f ∧ d.IsUnreadable source s f) ↔
      d.IsUnreadable source s fault := by simp
  rw [outcome_eq_error_iff, hrow, ← or_assoc]
  refine or_congr_left ?_
  simp only [hforeign, exists_eq_right, Session.refusal?_eq_foreign_iff faults,
    Session.refusal?_eq_foreign_iff (faults_next faults), and_or_left]
  refine or_congr_right ?_
  rw [and_left_comm]
  refine and_congr_right fun _ => and_congr_right fun hcount => ?_
  exact Session.overflows_page_iff hcount

end Executed

/-- Executing an open adapter comes to a page, to a failure of the query or the connection, to a row
that cannot be read, or to an overflow: that of an integer outside the range of 64 bits. -/
theorem executions_overflow_at_worst (source : Source) {s : State} (h : s.draft.executed = false)
    (ordinary : s.IsOrdinary source) :
    let outcome := (s.execute source).2
    ((∃ page, outcome = .ok page) ∨ ∃ e, outcome = .error e ∧ IsListingFailure e) ∧
      (outcome = .error (.fault .overflow) ↔
        s.session.Overflows (.count (s.draft.allConditions source)) ∨
          s.session.refusal? (.count (s.draft.allConditions source)) = none ∧
            s.session.next.faults.head?.join = none ∧
            (Statement.page (s.draft.selection source)).isWithinLimits = true ∧
            ¬(IsSendable s.draft.limit ∧ IsSendable s.draft.offset)) ∧
      (∀ fault, fault ≠ .overflow → (outcome = .error (.fault fault) ↔
        s.session.Takes (s.draft.selection source) ∧
          s.draft.IsUnreadable source s.session fault)) ∧
      ∀ (plan : Plan) (request : Request), source.draft (plan.calls request) = .ok s.draft →
        (∀ p ∈ plan.predicates, ∀ v ∈ p.operands, fits v = true) →
        isStorable request.limit = true → IsSendable request.offset →
        outcome ≠ .error (.fault .overflow) := by
  intro outcome
  have houtcome : outcome = s.draft.outcome source s.session := execute_eq_outcome h
  have hfault := Draft.outcome_eq_fault_iff ordinary.faults source s.draft
  -- No row is refused by an overflow.
  have hoverflow := hfault .overflow
  rw [and_iff_right rfl, or_iff_left] at hoverflow
  swap
  · rintro ⟨-, -, row, -, -, -, hrow⟩
    rcases Table.readRow_fault_cases hrow with hcase | hcase <;> cases hcase
  rw [houtcome]
  refine ⟨?_, hoverflow, ?_, ?_⟩
  · cases hdraft : s.draft.outcome source s.session with
    | ok page => exact .inl ⟨page, rfl⟩
    | error e => exact .inr ⟨e, rfl, isListingFailure_of_outcome ordinary.faults hdraft⟩
  · intro fault hne
    rw [hfault fault, or_iff_right fun hlarge => hne hlarge.1]
  · intro plan request hd operands limit offset
    rw [Ne, hoverflow]
    rintro (⟨-, -, -, parameters, hparameters, before, v, rest, rfl, -, hv⟩ |
      ⟨-, -, -, unsendable⟩)
    · have hfits := fits_of_conditionParameters? (fits_of_draft hd (fits_calls operands)) hparameters
      rw [hfits v (List.mem_append_right _ (.head _))] at hv
      cases hv
    · obtain ⟨hoffset, hlimit⟩ := Source.page_of_draft hd
      rw [hoffset, hlimit] at unsendable
      refine unsendable ⟨?_, offset⟩
      rintro n ⟨rfl⟩
      exact limit

section Largest

def largestRequest : Request where
  limit := 10
  offset := some 9223372036854775807
  filter := .object [(.text "id", .object [(.text "from", .int (-9223372036854775808))]),
    (.text "title", .list [.int 9223372036854775807, .text "a"])]

def largestPlan : Plan where
  predicates := [.atLeast "id" (.int (-9223372036854775808)),
    .isAmong "title" [.int 9223372036854775807, .text "a"]]
  sort := []

theorem largest_integers_do_not_overflow :
    Plan.ofRequest default articleRegistry default false largestRequest = .ok largestPlan ∧
      ∃ d, articleSource.draft (largestPlan.calls largestRequest) = .ok d ∧
        (State.execute articleSource { session := { database := articles }, draft := d }).2 ≠
          .error (.fault .overflow) := by
  refine ⟨rfl, _, rfl, ?_⟩
  refine (executions_overflow_at_worst articleSource (by rfl)
    ⟨fun _ => List.not_mem_nil, ?_⟩).2.2.2 largestPlan largestRequest rfl (by decide) (by decide)
    (by rintro n ⟨rfl⟩; decide)
  rintro parameters ⟨rfl⟩ t ht
  have htext : t = "a" := by simpa using ht
  rw [htext]
  decide

/-- With the next integer, as an offset or in a filter, a request compiles and is taken by an open
adapter, and its execution fails as no store does. -/
theorem next_integer_overflows :
    Request.readOffset (.text "9223372036854775808") = .ok (some 9223372036854775808) ∧
      (∀ request ∈ [
          ({ limit := 10, offset := some 9223372036854775808 } : Request),
          { limit := 10, filter := .object [(.text "title", .int 9223372036854775808)] }],
        ∃ plan s, Plan.ofRequest default articleRegistry default false request = .ok plan ∧
          (adapter articleSource).applyAll { session := { database := articles } }
            (plan.calls request) = (s, .ok ()) ∧
          (s.execute articleSource).2 = .error (.fault .overflow)) ∧
      (Failure.fault .overflow).kind? = none := by
  refine ⟨by decide +kernel, ?_, rfl⟩
  rw [List.forall_mem_cons, List.forall_mem_singleton]
  exact ⟨⟨_, _, rfl, rfl, rfl⟩, ⟨_, _, rfl, rfl, rfl⟩⟩

end Largest

end Catalogue.Relational
