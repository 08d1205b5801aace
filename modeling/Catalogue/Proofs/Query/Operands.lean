import Catalogue.Proofs.Json.Reader
import Catalogue.Query.Plan

/-!
The operands of compiled conditions. A filter that was decoded from JSON may nest lists and objects
as it likes: what is compared in the end is a text, a number, a truth value or a moment.
-/

namespace Catalogue

open Calendar (Date)

namespace Value

/-- Is the value a text, a number, a truth value or a moment? -/
def isPlain : Value → Bool
  | .text _ | .int _ | .float _ | .bool _ | .stamp _ => true
  | _ => false

theorem isPlain_of_isScalar {v : Value} (h : v.isScalar = true) : v.isPlain = true := by
  cases v with
  | text s => rfl
  | int n => rfl
  | float x => rfl
  | bool b => rfl
  | _ => cases h

theorem isNull_of_isPlain {v : Value} (h : v.isPlain = true) : v.isNull = false := by
  cases v with
  | null => cases h
  | _ => rfl

theorem isPlain_of_normalize {today : Date} {field : String} {kind : FieldKind} {v w : Value}
    (hv : v.isScalar = true) (h : v.normalize today field kind = .ok w) : w.isPlain = true := by
  cases kind with
  | text =>
      cases h
      exact isPlain_of_isScalar hv
  | boolean =>
      cases h
      rfl
  | moment =>
      unfold normalize at h
      cases hm : v.toMoment today field with
      | error e =>
          rw [hm] at h
          cases h
      | ok m =>
          rw [hm] at h
          cases h
          rfl

end Value

/-- What the condition compares its field with. -/
def Predicate.operands : Predicate → List Value
  | .equals _ v | .notEquals _ v | .atLeast _ v | .atMost _ v => [v]
  | .isAmong _ vs => vs
  | .isSet _ | .isAbsent _ | .matching .. => []

def Predicate.IsPlain (p : Predicate) : Prop :=
  ∀ v ∈ p.operands, v.isPlain = true

namespace Field

variable {today : Date} {f : Field}

theorem isPlain_of_checked {v w : Value} (hv : v.isScalar = true)
    (h : f.checked today v = .ok w) : w.isPlain = true := by
  obtain ⟨made, hmade, h⟩ := Outcome.bind_eq_ok_iff.mp h
  obtain ⟨-, -, h⟩ := Outcome.bind_eq_ok_iff.mp h
  cases h
  exact Value.isPlain_of_normalize hv hmade

theorem isPlain_of_excluding {values : List Value} {ps : List Predicate}
    (h : f.excluding today values = .ok ps) : ∀ p ∈ ps, p.IsPlain := by
  induction values generalizing ps with
  | nil =>
      cases h
      simp
  | cons v rest ih =>
      simp only [excluding] at h
      split at h
      · obtain ⟨others, hothers, h⟩ := Outcome.bind_eq_ok_iff.mp h
        cases h
        exact List.forall_mem_cons.mpr ⟨List.forall_mem_nil _, ih hothers⟩
      · split at h
        · rename_i hv
          obtain ⟨w, hw, h⟩ := Outcome.bind_eq_ok_iff.mp h
          obtain ⟨others, hothers, h⟩ := Outcome.bind_eq_ok_iff.mp h
          cases h
          have hplain := Value.isPlain_of_normalize hv hw
          exact List.forall_mem_cons.mpr ⟨List.forall_mem_singleton.mpr hplain, ih hothers⟩
        · exact ih h

theorem isPlain_of_members {values members : List Value}
    (h : f.members today values = .ok members) : ∀ v ∈ members, v.isPlain = true := by
  induction values generalizing members with
  | nil =>
      cases h
      simp
  | cons v rest ih =>
      simp only [Field.members] at h
      split at h
      · rename_i hv
        obtain ⟨w, hw, h⟩ := Outcome.bind_eq_ok_iff.mp h
        obtain ⟨others, hothers, h⟩ := Outcome.bind_eq_ok_iff.mp h
        cases h
        exact List.forall_mem_cons.mpr ⟨isPlain_of_checked hv hw, ih hothers⟩
      · exact ih h

theorem isPlain_of_among {values : List Value} {p : Predicate} (h : f.among today values = .ok p) :
    p.IsPlain := by
  obtain ⟨members, hmembers, h⟩ := Outcome.bind_eq_ok_iff.mp h
  cases h
  exact isPlain_of_members hmembers

theorem isPlain_of_bound {v w : Value} (h : f.bound today v = .ok (some w)) :
    w.isPlain = true := by
  unfold bound at h
  split at h
  · rename_i hv
    dsimp only at h
    split at h
    · obtain ⟨made, hmade, h⟩ := Outcome.bind_eq_ok_iff.mp h
      obtain ⟨-, -, h⟩ := Outcome.bind_eq_ok_iff.mp h
      cases h
      exact Value.isPlain_of_normalize hv hmade
    · obtain ⟨made, hmade, h⟩ := Outcome.bind_eq_ok_iff.mp h
      obtain ⟨-, -, h⟩ := Outcome.bind_eq_ok_iff.mp h
      cases hmade
      cases h
      exact Value.isPlain_of_isScalar hv
  · cases h

theorem isPlain_of_within {lower upper : Value} {values : List Value} {ps : List Predicate}
    (h : f.within today lower upper values = .ok ps) : ∀ p ∈ ps, p.IsPlain := by
  obtain ⟨least, hleast, h⟩ := Outcome.bind_eq_ok_iff.mp h
  obtain ⟨most, hmost, h⟩ := Outcome.bind_eq_ok_iff.mp h
  have hbounds : (∀ l, least = some l → l.isPlain = true) ∧ ∀ u, most = some u → u.isPlain = true := by
    constructor
    · rintro l rfl
      exact isPlain_of_bound hleast
    · rintro u rfl
      exact isPlain_of_bound hmost
  cases least with
  | none =>
      cases most with
      | none =>
          obtain ⟨p, hp, h⟩ := Outcome.bind_eq_ok_iff.mp h
          cases h
          exact List.forall_mem_singleton.mpr (isPlain_of_among hp)
      | some u =>
          cases h
          simpa [Predicate.IsPlain, Predicate.operands] using hbounds
  | some l =>
      cases most with
      | none =>
          cases h
          simpa [Predicate.IsPlain, Predicate.operands] using hbounds
      | some u =>
          cases h
          simpa [Predicate.IsPlain, Predicate.operands] using hbounds

theorem isPlain_of_equalTo {v : Value} {p : Predicate} (hv : v.isScalar = true)
    (h : f.equalTo today v = .ok p) : p.IsPlain := by
  unfold equalTo at h
  split at h
  · cases h
    exact List.forall_mem_nil _
  · obtain ⟨w, hw, h⟩ := Outcome.bind_eq_ok_iff.mp h
    cases h
    exact List.forall_mem_singleton.mpr (isPlain_of_checked hv hw)

end Field

theorem Term.isScalar_of_single {raw v : Value} (hraw : raw.IsJson)
    (h : Term.ofValue raw = .single v) : v.isScalar = true := by
  cases hraw with
  | null => cases h
  | list => cases h
  | object =>
      simp only [Term.ofValue] at h
      split at h
      · cases h
      · cases h
      · split at h <;> cases h
  | _ =>
      cases h
      rfl

theorem Field.isPlain_of_predicates {today : Date} {f : Field} {raw : Value} {ps : List Predicate}
    (hraw : raw.IsJson) (h : f.predicates today raw = .ok ps) : ∀ p ∈ ps, p.IsPlain := by
  unfold predicates at h
  cases hterm : Term.ofValue raw with
  | negated values =>
      rw [hterm] at h
      exact isPlain_of_excluding h
  | range lower upper values =>
      rw [hterm] at h
      exact isPlain_of_within h
  | members values =>
      rw [hterm] at h
      obtain ⟨p, hp, h⟩ := Outcome.bind_eq_ok_iff.mp h
      cases h
      exact List.forall_mem_singleton.mpr (isPlain_of_among hp)
  | absent =>
      rw [hterm] at h
      cases h
      exact List.forall_mem_singleton.mpr (List.forall_mem_nil _)
  | single v =>
      rw [hterm] at h
      obtain ⟨p, hp, h⟩ := Outcome.bind_eq_ok_iff.mp h
      cases h
      have hv := Term.isScalar_of_single hraw hterm
      exact List.forall_mem_singleton.mpr (isPlain_of_equalTo hv hp)

namespace Filter

variable {today : Date} {registry : Registry}

theorem isPlain_of_compileFields {es : Entries} {fields : List Field} {ps : List Predicate}
    (hes : ∀ e ∈ es, e.2.IsJson) (h : compileFields today es fields = .ok ps) :
    ∀ p ∈ ps, p.IsPlain := by
  induction fields generalizing ps with
  | nil =>
      cases h
      simp
  | cons f rest ih =>
      unfold compileFields at h
      split at h
      · exact ih h
      · rename_i raw hraw
        obtain ⟨e, he, rfl⟩ := Option.map_eq_some_iff.mp hraw
        obtain ⟨first, hfirst, h⟩ := Outcome.bind_eq_ok_iff.mp h
        obtain ⟨others, hothers, h⟩ := Outcome.bind_eq_ok_iff.mp h
        cases h
        have hjson := hes e (List.mem_of_find?_eq_some he)
        exact List.forall_mem_append.mpr ⟨Field.isPlain_of_predicates hjson hfirst, ih hothers⟩

theorem isPlain_of_compile {filter : Value} {ps : List Predicate} (hfilter : filter.IsJson)
    (h : compile today registry filter = .ok ps) : ∀ p ∈ ps, p.IsPlain := by
  cases hfilter with
  | object hes => exact isPlain_of_compileFields hes h
  | _ => cases h

theorem isPlain_of_compileEach {clauses : List Value} {ps : List Predicate}
    (hclauses : ∀ v ∈ clauses, v.IsJson) (h : compileEach today registry clauses = .ok ps) :
    ∀ p ∈ ps, p.IsPlain := by
  induction clauses generalizing ps with
  | nil =>
      cases h
      simp
  | cons v rest ih =>
      obtain ⟨hv, hrest⟩ := List.forall_mem_cons.mp hclauses
      cases hv with
      | object hes =>
          obtain ⟨first, hfirst, h⟩ := Outcome.bind_eq_ok_iff.mp h
          obtain ⟨others, hothers, h⟩ := Outcome.bind_eq_ok_iff.mp h
          cases h
          exact List.forall_mem_append.mpr
            ⟨isPlain_of_compile (.object hes) hfirst, ih hrest hothers⟩
      | _ => cases h

end Filter

namespace Plan

theorem isJson_withoutMarkerIn {v : Value} (marker : String) (h : v.IsJson) :
    (withoutMarkerIn marker v).IsJson := by
  cases h with
  | object hes => exact .object fun e he => hes e (List.mem_filter.mp he).1
  | null => exact .null
  | bool b => exact .bool b
  | int n => exact .int n
  | float x => exact .float x
  | text s => exact .text s
  | list hitems => exact .list hitems

theorem isJson_withoutMarker (settings : Settings) {filter : Value} (h : filter.IsJson) :
    (withoutMarker settings filter).IsJson := by
  unfold withoutMarker
  split
  · exact h
  · rename_i marker _
    split
    · exact h
    · split
      · rename_i clauses
        cases h with
        | list hclauses =>
            refine .list ?_
            intro v hv
            obtain ⟨clause, hclause, rfl⟩ := List.mem_map.mp hv
            exact isJson_withoutMarkerIn marker (hclauses clause hclause)
      · exact isJson_withoutMarkerIn marker h

/-- A request with a decoded filter compiles to conditions with plain operands only. -/
theorem isPlain_of_ofRequest {today : Date} {registry : Registry} {settings : Settings}
    {acceptsClauses : Bool} {request : Request} {plan : Plan} (hfilter : request.filter.IsJson)
    (h : ofRequest today registry settings acceptsClauses request = .ok plan) :
    ∀ p ∈ plan.predicates, p.IsPlain := by
  obtain ⟨ps, hps, h⟩ := Outcome.bind_eq_ok_iff.mp h
  obtain ⟨sort, -, h⟩ := Outcome.bind_eq_ok_iff.mp h
  cases h
  have hjson := isJson_withoutMarker settings hfilter
  generalize withoutMarker settings request.filter = filter at *
  unfold compileFilter Filter.compileClauses at hps
  split at hps
  · split at hps
    · cases hjson with
      | list hclauses => exact Filter.isPlain_of_compileEach hclauses hps
    · exact Filter.isPlain_of_compile hjson hps
  · exact Filter.isPlain_of_compile hjson hps

end Plan

end Catalogue
