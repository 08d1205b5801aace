import Catalogue.Proofs.Parity.Selection

/-!
The meaning of predicates on the values of a row. Predicates with values of the column's own type
mean the same to both stores: an absent value differs from every other and lies within no bounds.
-/

namespace Catalogue

open Calendar (Moment)

/-- Two values of one ordered sort, of which the first does not stand after the second. -/
inductive Value.NotAfter : Value → Value → Prop
  | int {m n : Int} (h : m ≤ n) : NotAfter (.int m) (.int n)
  | text {s t : String} (h : s ≤ t) : NotAfter (.text s) (.text t)
  | moment {m n : Moment}
      (h : m.seconds < n.seconds ∨ m.seconds = n.seconds ∧ m.microsecond ≤ n.microsecond) :
      NotAfter (.stamp { moment := m }) (.stamp { moment := n })

/-- What a predicate says of the values of fields; absent ones are null. -/
def Predicate.Says (value : String → Value) : Predicate → Prop
  | .equals f v => value f ≠ .null ∧ value f = v
  | .notEquals f v => value f = .null ∨ value f ≠ v
  | .isSet f => value f ≠ .null
  | .isAbsent f => value f = .null
  | .atLeast f v => value f ≠ .null ∧ v.NotAfter (value f)
  | .atMost f v => value f ≠ .null ∧ (value f).NotAfter v
  | .isAmong f vs => value f ≠ .null ∧ ∃ v ∈ vs, value f = v
  | .matching _ _ => False

namespace Parity

open Document (pathOf compareValues conditionsOf conditionsOf_atLeast conditionsOf_atMost stored)
open Document.Condition (valueAt)
open Relational

/-- A predicate on a column with values of its type. Truth values are no bounds, and patterns are
left to their own theory. -/
def IsTyped (source : Source) : Predicate → Prop
  | .equals f v | .notEquals f v => ∃ c ∈ source.table.columns, c.name = f ∧ IsOf c.type v
  | .isSet f | .isAbsent f => ∃ c ∈ source.table.columns, c.name = f
  | .atLeast f v | .atMost f v =>
    ∃ c ∈ source.table.columns, c.name = f ∧ IsOf c.type v ∧ c.type ≠ .boolean
  | .isAmong f vs => ∃ c ∈ source.table.columns, c.name = f ∧ ∀ v ∈ vs, IsOf c.type v
  | .matching _ _ => False

section Order

variable {type : ColumnType} {v w : Value}

theorem IsOf.isNull_eq_false (h : IsOf type v) : v.isNull = false := by
  cases h <;> rfl

theorem IsOf.compareValues_swap (hv : IsOf type v) (hw : IsOf type w) :
    compareValues w v = (compareValues v w).swap := by
  rw [Document.compareValues_eq_totalOrder hv.isFlat hw.isFlat hv.isUniversal hw.isUniversal,
    Document.compareValues_eq_totalOrder hw.isFlat hv.isFlat hw.isUniversal hv.isUniversal]
  exact Std.OrientedCmp.eq_swap

theorem notAfter_moment_iff (m n : Moment) :
    (Value.stamp { moment := m }).NotAfter (.stamp { moment := n }) ↔ m.order n ≠ .gt := by
  have hparts : m.order n ≠ .gt ↔
      m.seconds < n.seconds ∨ m.seconds = n.seconds ∧ m.microsecond ≤ n.microsecond := by
    rw [Moment.order, ne_eq, Ordering.then_eq_gt, Int.compare_eq_gt, Int.compare_eq_eq,
      Nat.compare_eq_gt]
    omega
  rw [hparts]
  exact ⟨fun h => by cases h; assumption, .moment⟩

theorem IsOf.notAfter_iff (hv : IsOf type v) (hw : IsOf type w) (ordered : type ≠ .boolean) :
    v.NotAfter w ↔ compareValues v w ≠ .gt := by
  cases hv with
  | text s =>
      cases hw with
      | text t =>
          have hgt : compare s t = .gt ↔ t < s :=
            compareOfLessAndEq_eq_gt String.le_antisymm String.le_total String.not_le s t
          rw [Document.compareValues_text, ne_eq, hgt, String.not_lt]
          exact ⟨fun h => by cases h; assumption, .text⟩
  | integer _ =>
      cases hw with
      | integer _ =>
          rw [Document.compareValues_int, ne_eq, Int.compare_eq_gt, Int.not_lt]
          exact ⟨fun h => by cases h; assumption, .int⟩
  | boolean b => exact absurd rfl ordered
  | moment _ =>
      cases hw with
      | moment _ => rw [notAfter_moment_iff, compareValues_moment]

theorem storeNotAfter_stamp (s t : Calendar.Stamp) :
    Document.Condition.notAfter (.stamp s) (.stamp t) =
      (((Value.stamp t).before? (.stamp s)).map not).getD false := rfl

theorem storeNotAfter_moment (m n : Moment) :
    Document.Condition.notAfter (.stamp { moment := m }) (.stamp { moment := n }) =
      (n.order m != .lt) := by
  rw [storeNotAfter_stamp, Value.before?_moment]
  generalize n.order m = o
  cases o <;> rfl

theorem IsOf.storeNotAfter_iff (hv : IsOf type v) (hw : IsOf type w) (ordered : type ≠ .boolean) :
    Document.Condition.notAfter v w = true ↔ v.NotAfter w := by
  have hswap : compareValues v w ≠ .gt ↔ compareValues w v ≠ .lt := by
    rw [hv.compareValues_swap hw]
    cases compareValues v w <;> simp
  rw [hv.notAfter_iff hw ordered, hswap]
  cases hv with
  | text s =>
      cases hw with
      | text t =>
          rw [Document.compareValues_text]
          simp [Document.Condition.notAfter, Document.Condition.rank, Value.isNull, Value.before?,
            Value.textBefore]
  | integer _ =>
      cases hw with
      | integer _ =>
          rw [Document.compareValues_int]
          simp [Document.Condition.notAfter, Document.Condition.rank, Value.isNull, Value.before?,
            Value.before?.numberBefore?, Value.numeric?, Numeric.order]
  | boolean b => exact absurd rfl ordered
  | moment _ =>
      cases hw with
      | moment _ =>
          rw [compareValues_moment, storeNotAfter_moment]
          simp

theorem IsHeld.same_iff (hv : IsHeld type v) (hw : IsOf type w) : v.same w = true ↔ v = w := by
  rcases hv with rfl | hv
  · refine iff_of_false ?_ hw.ne_null.symm
    cases hw <;> simp [Value.same]
  · cases hv with
    | text s =>
        cases hw with
        | text t => simp [Value.same]
    | integer _ =>
        cases hw with
        | integer _ =>
            simp [Value.same, Value.same.sameNumber, Value.numeric?, Numeric.order]
    | boolean b =>
        cases hw with
        | boolean c => cases b <;> cases c <;> simp [Value.same, Value.same.sameNumber,
            Value.numeric?, Numeric.order]
    | moment _ =>
        cases hw with
        | moment _ =>
            rw [Value.stamp.injEq, Calendar.Stamp.mk.injEq, ← Moment.order_eq_eq_iff]
            rw [Value.same_moment]
            simp

theorem sendTypeForAll_eq {vs : List Value} (typed : ∀ v ∈ vs, IsOf type v)
    (hv : v ∈ vs) : sendTypeForAll type vs = sendTypeFor type v := by
  cases vs with
  | nil => cases hv
  | cons first rest => exact (typed first (.head _)).sendTypeFor_congr (typed v hv)

theorem IsOf.exists_send (h : IsOf type v) :
    ∃ sent, send? (sendTypeFor type v) v = some sent ∧
      Relational.bind sent = .ok (cellOf v) := by
  cases h with
  | text s => exact ⟨_, rfl, rfl⟩
  | integer h => exact ⟨_, rfl, by simp [Relational.bind, h, cellOf]⟩
  | boolean b => cases b <;> exact ⟨_, rfl, rfl⟩
  | moment _ => exact ⟨_, rfl, rfl⟩

theorem exists_sends {vs : List Value} (typed : ∀ v ∈ vs, IsOf type v) {t : SendType}
    (ht : ∀ v ∈ vs, sendTypeFor type v = t) :
    ∃ sents, vs.mapM (send? t) = some sents ∧
      sents.mapM Relational.bind = .ok (vs.map cellOf) := by
  induction vs with
  | nil => exact ⟨[], rfl, rfl⟩
  | cons v rest ih =>
      obtain ⟨sent, hsent, hbind⟩ := (typed v (.head _)).exists_send
      obtain ⟨sents, hsents, hbinds⟩ :=
        ih (fun w hw => typed w (.tail _ hw)) fun w hw => ht w (.tail _ hw)
      rw [ht v (.head _)] at hsent
      refine ⟨sent :: sents, ?_, ?_⟩
      · rw [List.mapM_cons, hsent, hsents]
        rfl
      · rw [List.mapM_cons, hbind, hbinds]
        rfl

end Order

section Row

variable {source : Source} {row : Row} {doc : Entries} {c : Column} {v : Value}
variable (h : Mirrors source row doc) (hc : c ∈ source.table.columns)
include h hc

theorem holds_isNull : Atom.holds source.table row (.isNull c) = true ↔
    view source row c.name = .null := by
  change (source.table.cell row c).isNull = true ↔ _
  rw [h.cell_eq_view hc]
  exact (h.isHeld_view hc).isNull_cellOf

theorem isTrueOf_iff (hv : IsOf c.type v) (comparison : Comparison) :
    Atom.isTrueOf c.type.affinity comparison (source.table.cell row c) (cellOf v) = true ↔
      view source row c.name ≠ .null ∧
        comparison.allows (compareValues (view source row c.name) v) = true := by
  have hheld := h.isHeld_view hc
  unfold Atom.isTrueOf
  dsimp only
  rw [hv.compared_cellOf, h.cell_eq_view hc, hv.isNull_cellOf, hheld.order_cellOf (.inr hv),
    ne_eq, ← hheld.isNull_cellOf]
  simp

theorem holds_compares (hv : IsOf c.type v) (comparison : Comparison) :
    Atom.holds source.table row (.compares c comparison v) = true ↔
      view source row c.name ≠ .null ∧
        comparison.allows (compareValues (view source row c.name) v) = true := by
  rw [← isTrueOf_iff h hc hv comparison, ← hv.boundCell_send]
  rfl

theorem holds_equalTo (hv : IsOf c.type v) :
    Atom.holds source.table row (Relational.Condition.equalTo c v) = true ↔
      view source row c.name ≠ .null ∧ view source row c.name = v := by
  rw [← (h.isHeld_view hc).compareValues_eq_eq_iff (.inr hv)]
  have htrue := isTrueOf_iff h hc hv .equal
  simp only [Comparison.allows, beq_iff_eq] at htrue
  rw [← htrue, ← hv.boundCell_send]
  obtain ⟨name, type⟩ := c
  cases hv with
  | boolean b => cases b <;> rfl
  | _ => rfl

theorem holds_differentFrom (hv : IsOf c.type v) :
    Atom.holds source.table row (Relational.Condition.differentFrom c v) = true ↔
      view source row c.name ≠ .null ∧ view source row c.name ≠ v := by
  rw [ne_eq (view source row c.name) v, ← (h.isHeld_view hc).compareValues_eq_eq_iff (.inr hv)]
  have htrue := isTrueOf_iff h hc hv .notEqual
  simp only [Comparison.allows, bne_iff_ne] at htrue
  rw [← ne_eq, ← htrue, ← hv.boundCell_send]
  obtain ⟨name, type⟩ := c
  cases hv with
  | boolean b => cases b <;> rfl
  | _ => rfl

theorem holds_isAmong {vs : List Value} (typed : ∀ v ∈ vs, IsOf c.type v) :
    Atom.holds source.table row (.isAmong c vs) = true ↔
      view source row c.name ≠ .null ∧ ∃ v ∈ vs, view source row c.name = v := by
  have hmember : ∀ v ∈ vs, Atom.isTrueOf c.type.affinity .equal (source.table.cell row c)
      (boundCell (send? (sendTypeForAll c.type vs) v)) = true ↔
        view source row c.name ≠ .null ∧ view source row c.name = v := by
    intro v hv
    rw [sendTypeForAll_eq typed hv, (typed v hv).boundCell_send, isTrueOf_iff h hc (typed v hv),
      ← (h.isHeld_view hc).compareValues_eq_eq_iff (.inr (typed v hv))]
    simp [Comparison.allows]
  change (vs.any fun v => Atom.isTrueOf c.type.affinity .equal (source.table.cell row c)
    (boundCell (send? (sendTypeForAll c.type vs) v))) = true ↔ _
  rw [List.any_eq_true]
  constructor
  · rintro ⟨v, hv, htrue⟩
    obtain ⟨hne, heq⟩ := (hmember v hv).mp htrue
    exact ⟨hne, v, hv, heq⟩
  · rintro ⟨hne, v, hv, heq⟩
    exact ⟨v, hv, (hmember v hv).mpr ⟨hne, heq⟩⟩

end Row

theorem Expresses.of_condition {source : Source} {call : Call} {c : Relational.Condition}
    {meaning : (String → Value) → Prop}
    (hcall : Change.ofCall source call = ({ conditions := [c] }, .ok ())) (bindable : IsBindable c)
    (short : ∀ a ∈ c, a.isTooLong = false)
    (holds_iff : ∀ {row doc}, Mirrors source row doc →
      (c.holds source.table row = true ↔ meaning (view source row))) :
    Expresses source [call] [c] meaning where
  ofCalls_eq := by
    simp only [Change.ofCalls, hcall, Change.andThen, Change.append_empty]
  isBindable := by simpa using bindable
  isShort := by simpa using short
  holds_iff h := by simpa using holds_iff h

theorem Expresses.of_atom {source : Source} {call : Call} {a : Atom}
    {meaning : (String → Value) → Prop}
    (hcall : Change.ofCall source call = ({ conditions := [[a]] }, .ok ()))
    (bindable : IsBindable [a]) (short : a.isTooLong = false)
    (holds_iff : ∀ {row doc}, Mirrors source row doc →
      (Atom.holds source.table row a = true ↔ meaning (view source row))) :
    Expresses source [call] [[a]] meaning := by
  refine .of_condition hcall bindable ?_ ?_
  · simpa using short
  · intro row doc h
    rw [← holds_iff h]
    simp [Relational.Condition.holds]

theorem isBindable_atom {a : Atom} {parameters : List Value} {cells : List Cell}
    (hp : a.parameters? = some parameters) (hb : parameters.mapM Relational.bind = .ok cells) :
    IsBindable [a] := by
  refine ⟨parameters, cells, ?_, hb⟩
  unfold Relational.Condition.parameters?
  rw [List.mapM_cons, hp]
  simp

theorem isBindable_compares {c : Column} {v : Value} (hv : IsOf c.type v)
    (comparison : Comparison) : IsBindable [.compares c comparison v] := by
  obtain ⟨sent, hsent, hbind⟩ := hv.exists_send
  have hparameters : (Atom.compares c comparison v).parameters? = some [sent] := by
    simp [Atom.parameters?, hsent]
  have hcells : [sent].mapM Relational.bind = .ok [cellOf v] := by
    rw [List.mapM_cons, hbind]
    rfl
  exact isBindable_atom hparameters hcells

theorem isBindable_equalTo {c : Column} {v : Value} (hv : IsOf c.type v) :
    IsBindable [Relational.Condition.equalTo c v] := by
  have hcompares := isBindable_compares hv .equal
  obtain ⟨name, type⟩ := c
  cases hv with
  | boolean b => exact isBindable_atom rfl rfl
  | _ => exact hcompares

theorem isBindable_differentFrom {c : Column} {v : Value} (hv : IsOf c.type v) :
    IsBindable [.isNull c, Relational.Condition.differentFrom c v] := by
  have hnull : ∀ {a : Atom}, IsBindable [a] → IsBindable [.isNull c, a] := by
    rintro a ⟨parameters, cells, hp, hb⟩
    refine ⟨parameters, cells, ?_, hb⟩
    unfold Relational.Condition.parameters? at hp ⊢
    obtain ⟨ps, hps, rfl⟩ := Option.map_eq_some_iff.mp hp
    rw [List.mapM_cons, hps]
    simp [Atom.parameters?]
  apply hnull
  have hcompares := isBindable_compares hv .notEqual
  obtain ⟨name, type⟩ := c
  cases hv with
  | boolean b => exact isBindable_atom rfl rfl
  | _ => exact hcompares

theorem ofBound_eq {c : Column} {v : Value} (hv : IsOf c.type v) (ordered : c.type ≠ .boolean)
    (comparison : Comparison) : Change.ofBound c comparison v =
      ({ conditions := [[.compares c comparison v]] }, .ok ()) := by
  obtain ⟨name, type⟩ := c
  cases hv with
  | boolean b => exact absurd rfl ordered
  | _ => rfl

theorem bound_iff {type : ColumnType} {v w : Value} (hv : IsHeld type v) (hw : IsOf type w)
    (ordered : type ≠ .boolean) :
    ((v ≠ .null ∧ Comparison.atLeast.allows (compareValues v w) = true) ↔
      v ≠ .null ∧ w.NotAfter v) ∧
    ((v ≠ .null ∧ Comparison.atMost.allows (compareValues v w) = true) ↔
      v ≠ .null ∧ v.NotAfter w) := by
  rcases hv with rfl | hv
  · simp
  · have hswap := hv.compareValues_swap hw
    rw [hw.notAfter_iff hv ordered, hv.notAfter_iff hw ordered, hswap]
    cases compareValues v w <;> simp [Comparison.allows]

/-- Every predicate of this kind expresses itself to a table. -/
theorem exists_expresses {source : Source} {p : Predicate} (hp : IsTyped source p) :
    ∃ conditions, Expresses source [p.call] conditions fun value => p.Says value := by
  cases p with
  | equals f v =>
      obtain ⟨c, hc, rfl, hv⟩ := hp
      exact ⟨_, .of_atom (onColumn_eq hc _) (isBindable_equalTo hv) (isTooLong_equalTo c v)
        fun h => holds_equalTo h hc hv⟩
  | notEquals f v =>
      obtain ⟨c, hc, rfl, hv⟩ := hp
      refine ⟨_, .of_condition (onColumn_eq hc _) (isBindable_differentFrom hv) ?_ ?_⟩
      · simpa using ⟨rfl, isTooLong_differentFrom c v⟩
      · intro row doc h
        have hnull := holds_isNull h hc
        have hdifferent := holds_differentFrom h hc hv
        simp only [Relational.Condition.holds, List.any_cons, List.any_nil, Bool.or_false,
          Bool.or_eq_true, hnull, hdifferent, Predicate.Says]
        tauto
  | isSet f =>
      obtain ⟨c, hc, rfl⟩ := hp
      refine ⟨_, .of_atom (onColumn_eq hc _) (isBindable_atom rfl rfl) rfl ?_⟩
      intro row doc h
      have hnot : Atom.holds source.table row (.isNotNull c) =
          !Atom.holds source.table row (.isNull c) := rfl
      rw [hnot, Bool.not_eq_true', ← Bool.not_eq_true, holds_isNull h hc]
      exact Iff.rfl
  | isAbsent f =>
      obtain ⟨c, hc, rfl⟩ := hp
      exact ⟨_, .of_atom (onColumn_eq hc _) (isBindable_atom rfl rfl) rfl
        fun h => holds_isNull h hc⟩
  | atLeast f v =>
      obtain ⟨c, hc, rfl, hv, hordered⟩ := hp
      have hcall : Change.ofCall source (Predicate.atLeast c.name v).call =
          ({ conditions := [[.compares c .atLeast v]] }, .ok ()) := by
        rw [Predicate.call, Change.ofCall, column_eq hc]
        dsimp only
        rw [ofBound_eq hv hordered]
        rfl
      exact ⟨_, .of_atom hcall (isBindable_compares hv _) rfl fun h =>
        (holds_compares h hc hv .atLeast).trans (bound_iff (h.isHeld_view hc) hv hordered).1⟩
  | atMost f v =>
      obtain ⟨c, hc, rfl, hv, hordered⟩ := hp
      have hcall : Change.ofCall source (Predicate.atMost c.name v).call =
          ({ conditions := [[.compares c .atMost v]] }, .ok ()) := by
        rw [Predicate.call, Change.ofCall, column_eq hc]
        dsimp only
        rw [ofBound_eq hv hordered]
        rfl
      exact ⟨_, .of_atom hcall (isBindable_compares hv _) rfl fun h =>
        (holds_compares h hc hv .atMost).trans (bound_iff (h.isHeld_view hc) hv hordered).2⟩
  | isAmong f vs =>
      obtain ⟨c, hc, rfl, hvs⟩ := hp
      obtain ⟨sents, hsents, hbinds⟩ := exists_sends hvs fun v hv => (sendTypeForAll_eq hvs hv).symm
      exact ⟨_, .of_atom (onColumn_eq hc _) (isBindable_atom hsents hbinds) rfl
        fun h => holds_isAmong h hc hvs⟩
  | matching f w => exact hp.elim

theorem storeBound_iff {type : ColumnType} {v w : Value} (hv : IsHeld type v) (hw : IsOf type w)
    (ordered : type ≠ .boolean) :
    (Document.Condition.notAfter w v = true ↔ v ≠ .null ∧ w.NotAfter v) ∧
      (Document.Condition.notAfter v w = true ↔ v ≠ .null ∧ v.NotAfter w) := by
  rcases hv with rfl | hv
  · have hnull : Document.Condition.notAfter w .null = false := by
      cases hw <;> rfl
    have hnull' : Document.Condition.notAfter .null w = false := by
      cases hw <;> rfl
    simp [hnull, hnull']
  · rw [hw.storeNotAfter_iff hv ordered, hv.storeNotAfter_iff hw ordered]
    simp [hv.ne_null]

/-- What the conditions of a predicate find in a stored document is what the predicate says. -/
theorem storeHolds_iff {source : Source} {row : Row} {doc : Entries} (h : Mirrors source row doc)
    {p : Predicate} (hp : IsTyped source p) :
    (∀ c ∈ conditionsOf source.registry p.call, Document.Condition.holds (stored doc) c = true) ↔
      p.Says (view source row) := by
  cases p with
  | equals f v =>
      obtain ⟨c, hc, rfl, hv⟩ := hp
      have hsame := (h.isHeld_view hc).same_iff hv
      simp only [Predicate.call, conditionsOf, List.forall_mem_singleton, Document.Condition.holds,
        h.valueAt_stored hc, hsame, Predicate.Says]
      exact ⟨fun heq => ⟨heq ▸ hv.ne_null, heq⟩, And.right⟩
  | notEquals f v =>
      obtain ⟨c, hc, rfl, hv⟩ := hp
      have hsame := (h.isHeld_view hc).same_iff hv
      simp only [Predicate.call, conditionsOf, List.forall_mem_singleton, Document.Condition.holds,
        h.valueAt_stored hc, Bool.not_eq_true', ← Bool.not_eq_true, hsame, Predicate.Says]
      constructor
      · exact .inr
      · rintro (hnull | hne)
        · rw [hnull]
          exact hv.ne_null.symm
        · exact hne
  | isSet f =>
      obtain ⟨c, hc, rfl⟩ := hp
      simp only [Predicate.call, conditionsOf, List.forall_mem_singleton, Document.Condition.holds,
        h.valueAt_stored hc, Predicate.Says]
      cases view source row c.name <;> simp [Value.isNull]
  | isAbsent f =>
      obtain ⟨c, hc, rfl⟩ := hp
      simp only [Predicate.call, conditionsOf, List.forall_mem_singleton, Document.Condition.holds,
        h.valueAt_stored hc, Predicate.Says]
      cases view source row c.name <;> simp [Value.isNull]
  | atLeast f v =>
      obtain ⟨c, hc, rfl, hv, hordered⟩ := hp
      rw [conditionsOf_atLeast source.registry c.name hv.isNull_eq_false, List.forall_mem_singleton,
        Document.Condition.holds, h.valueAt_stored hc]
      exact (storeBound_iff (h.isHeld_view hc) hv hordered).1
  | atMost f v =>
      obtain ⟨c, hc, rfl, hv, hordered⟩ := hp
      rw [conditionsOf_atMost source.registry c.name hv.isNull_eq_false, List.forall_mem_singleton,
        Document.Condition.holds, h.valueAt_stored hc]
      exact (storeBound_iff (h.isHeld_view hc) hv hordered).2
  | isAmong f vs =>
      obtain ⟨c, hc, rfl, hvs⟩ := hp
      simp only [Predicate.call, conditionsOf, List.forall_mem_singleton, Document.Condition.holds,
        h.valueAt_stored hc, List.any_eq_true, Predicate.Says]
      constructor
      · rintro ⟨v, hv, hsame⟩
        have heq := ((h.isHeld_view hc).same_iff (hvs v hv)).mp hsame
        exact ⟨heq ▸ (hvs v hv).ne_null, v, hv, heq⟩
      · rintro ⟨-, v, hv, heq⟩
        exact ⟨v, hv, ((h.isHeld_view hc).same_iff (hvs v hv)).mpr heq⟩
  | matching f w => exact hp.elim

def SaysAll (ps : List Predicate) (value : String → Value) : Prop :=
  ∀ p ∈ ps, p.Says value

theorem saysAll_nil : SaysAll [] = fun _ => True := by
  funext value
  simp [SaysAll]

theorem saysAll_cons (p : Predicate) (ps : List Predicate) :
    SaysAll (p :: ps) = fun value => p.Says value ∧ SaysAll ps value := by
  funext value
  simp [SaysAll]

theorem exists_expresses_all {source : Source} {ps : List Predicate}
    (typed : ∀ p ∈ ps, IsTyped source p) :
    ∃ conditions, Expresses source (ps.map Predicate.call) conditions (SaysAll ps) := by
  induction ps with
  | nil =>
      rw [saysAll_nil]
      exact ⟨[], .nil source⟩
  | cons p rest ih =>
      obtain ⟨conditions, h⟩ := exists_expresses (typed p (.head _))
      obtain ⟨conditions', h'⟩ := ih fun q hq => typed q (.tail _ hq)
      rw [saysAll_cons]
      exact ⟨conditions ++ conditions', h.append h'⟩

open Classical in
theorem showsDocuments_saysAll {source : Source} {db : Database} {docs : List Entries}
    {pairs : List (Row × Entries)} {ps : List Predicate} (mirrored : Mirrored source db docs pairs)
    (typed : ∀ p ∈ ps, IsTyped source p) :
    ShowsDocuments source.registry (pairs.filter fun pair => SaysAll ps (view source pair.1))
      ((Document.adapter source.registry).run { collection := .documents docs }
        (ps.map Predicate.call)).2 := by
  apply showsDocuments mirrored (Document.addAll_predicates source.registry {} ps)
  intro row doc h
  have heach : ∀ p ∈ ps, ((∀ c ∈ conditionsOf source.registry p.call,
      Document.Condition.holds (stored doc) c = true) ↔ p.Says (view source row)) := by
    intro p hp
    exact storeHolds_iff h (typed p hp)
  rw [List.nil_append, List.forall_mem_flatMap]
  exact forall₂_congr heach

open Classical in
/-- On content that a table and a collection share, both stores select and count exactly the rows of
which all predicates say the truth. The table does so within the limits of its engine, and rejects
the statements beyond them. -/
theorem stores_select_what_predicates_say {source : Source} {session : Relational.Session}
    {docs : List Entries} {pairs : List (Row × Entries)} {ps : List Predicate}
    (mirrored : Mirrored source session.database docs pairs) (faults : session.faults = [])
    (typed : ∀ p ∈ ps, IsTyped source p) :
    (source.IsLimited (ps.map Predicate.call) →
      ShowsRows source (pairs.filter fun pair => SaysAll ps (view source pair.1))
        ((Relational.adapter source).run { session } (ps.map Predicate.call)).2) ∧
    (¬source.IsLimited (ps.map Predicate.call) →
      ((Relational.adapter source).run { session } (ps.map Predicate.call)).2 =
        .error .queryRejected) ∧
    ShowsDocuments source.registry (pairs.filter fun pair => SaysAll ps (view source pair.1))
      ((Document.adapter source.registry).run { collection := .documents docs }
        (ps.map Predicate.call)).2 := by
  obtain ⟨conditions, h⟩ := exists_expresses_all typed
  exact ⟨h.showsRows faults mirrored, h.rejected faults, showsDocuments_saysAll mirrored typed⟩

theorem mirrored_articles :
    Mirrored articleSource articles articleDocuments [untitled "b", untitled "a"] where
  table_eq := rfl
  present := rfl
  rows_perm := .refl _
  docs_perm := .refl _
  mirrors := by
    simp only [List.forall_mem_cons]
    exact ⟨mirrors_untitled "b", mirrors_untitled "a", by simp⟩
  names := by decide
  hasId := ⟨⟨"id", .text⟩, .head _, rfl⟩
  ordered := by decide

theorem view_untitled (id : String) :
    view articleSource (untitled id).1 "id" = .text id ∧
      view articleSource (untitled id).1 "title" = .null :=
  ⟨rfl, rfl⟩

theorem stores_select_article :
    ShowsRows articleSource [untitled "a"]
      ((Relational.adapter articleSource).run { session := { database := articles } }
        [.absence "title", .equality "id" (.text "a")]).2 ∧
    ShowsDocuments articleSource.registry [untitled "a"]
      ((Document.adapter articleSource.registry).run { collection := .documents articleDocuments }
        [.absence "title", .equality "id" (.text "a")]).2 := by
  have typed : ∀ p ∈ [Predicate.isAbsent "title", .equals "id" (.text "a")],
      IsTyped articleSource p := by
    simp only [List.forall_mem_cons]
    exact ⟨⟨⟨"title", .text⟩, .tail _ (.head _), rfl⟩, ⟨⟨"id", .text⟩, .head _, rfl, .text _⟩,
      by simp⟩
  have faults : ({ database := articles } : Relational.Session).faults = [] := rfl
  obtain ⟨hrows, -, hdocuments⟩ := stores_select_what_predicates_say mirrored_articles faults typed
  have limited : articleSource.IsLimited [.absence "title", .equality "id" (.text "a")] := by
    intro d hd
    cases hd
    decide
  have hselected := And.intro (hrows limited) hdocuments
  simpa [saysAll_cons, saysAll_nil, Predicate.Says, view_untitled, Predicate.call] using hselected

theorem ofCalls_existences (n : Nat) :
    Change.ofCalls articleSource (List.replicate n (.existence "title")) =
      ({ conditions := List.replicate n [.isNotNull ⟨"title", .text⟩] }, .ok ()) := by
  induction n with
  | zero => rfl
  | succ n ih =>
      rw [List.replicate_succ, Change.ofCalls, ih]
      rfl

theorem typed_existences (n : Nat) :
    ∀ p ∈ List.replicate n (Predicate.isSet "title"), IsTyped articleSource p := by
  intro p hp
  rw [List.eq_of_mem_replicate hp]
  exact ⟨⟨"title", .text⟩, .tail _ (.head _), rfl⟩

/-- Each further condition takes the statement one deeper. -/
theorem rejected_existences {n : Nat} (deep : maxDepth < 3 + n) :
    ((Relational.adapter articleSource).run { session := { database := articles } }
      (List.replicate (n + 1) (.existence "title"))).2 = .error .queryRejected := by
  obtain ⟨conditions, h⟩ := exists_expresses_all (typed_existences (n + 1))
  rw [List.map_replicate] at h
  refine h.rejected rfl ?_
  intro limited
  have hdraft : articleSource.draft (List.replicate (n + 1) (.existence "title")) =
      .ok (({} : Draft).extend
        { conditions := List.replicate (n + 1) [.isNotNull ⟨"title", .text⟩] }) := by
    rw [Source.draft, ofCalls_existences]
  have hconditions : ((({} : Draft).extend
      { conditions := List.replicate (n + 1) [.isNotNull ⟨"title", .text⟩] }).selection
        articleSource).conditions = List.replicate (n + 1) [.isNotNull ⟨"title", .text⟩] :=
    List.append_nil _
  have hdepth := (Statement.isWithinLimits_iff.mp (limited _ hdraft)).1
  rw [Statement.depth, Statement.conditions, hconditions, List.map_replicate,
    joinedDepth_replicate] at hdepth
  exact absurd ((Nat.le_add_right _ _).trans hdepth) (Nat.not_le_of_lt deep)

open Classical in
theorem showsDocuments_existences (n : Nat) :
    ShowsDocuments articleSource.registry []
      ((Document.adapter articleSource.registry).run { collection := .documents articleDocuments }
        (List.replicate (n + 1) (.existence "title"))).2 := by
  have hdocuments := showsDocuments_saysAll mirrored_articles (typed_existences (n + 1))
  rw [List.map_replicate] at hdocuments
  rwa [List.filter_eq_nil_iff.mpr] at hdocuments
  intro pair hpair hsays
  have htitle : view articleSource pair.1 "title" = .null := by
    simp only [List.mem_cons, List.not_mem_nil, or_false] at hpair
    rcases hpair with rfl | rfl <;> rfl
  rw [decide_eq_true_eq] at hsays
  exact hsays _ (List.mem_replicate.mpr ⟨n.succ_ne_zero, rfl⟩) htitle

/-- A thousand conditions are too many for a table, and not for a collection. -/
theorem thousand_conditions_are_rejected :
    (∀ p ∈ List.replicate 1000 (Predicate.isSet "title"), IsTyped articleSource p) ∧
      ((Relational.adapter articleSource).run { session := { database := articles } }
        (List.replicate 1000 (.existence "title"))).2 = .error .queryRejected ∧
      ShowsDocuments articleSource.registry []
        ((Document.adapter articleSource.registry).run
          { collection := .documents articleDocuments }
          (List.replicate 1000 (.existence "title"))).2 :=
  ⟨typed_existences 1000, rejected_existences (by decide), showsDocuments_existences 999⟩

end Parity

end Catalogue
