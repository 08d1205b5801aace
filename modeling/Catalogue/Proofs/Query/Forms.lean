import Catalogue.Proofs.Query.ClosedNames
import Catalogue.Proofs.Query.Operands

/-!
The form of compiled conditions. What a condition compares its field with is a single value in the
canonical form of the field's kind, which the field's rule accepts, and the conditions that one field
comes to stand together in one of few ways.
-/

namespace Catalogue

open Calendar (Date Moment)

/-- Is the value neither a null nor made of other values? -/
def Value.isSingle : Value → Bool
  | .null | .list _ | .object _ => false
  | _ => true

theorem Value.isSingle_of_isScalar {v : Value} (h : v.isScalar = true) : v.isSingle = true := by
  cases v with
  | text s => rfl
  | int n => rfl
  | float x => rfl
  | bool b => rfl
  | _ => cases h

theorem Term.isSingle_of_single {raw v : Value} (h : Term.ofValue raw = .single v) :
    v.isSingle = true := by
  cases raw with
  | null => cases h
  | list items => cases h
  | object entries =>
      simp only [Term.ofValue] at h
      split at h
      · cases h
      · cases h
      · split at h <;> cases h
  | _ =>
      cases h
      rfl

/-- The canonical form of a kind. Moments are in universal time, without an offset. -/
inductive FieldKind.HasForm : FieldKind → Value → Prop
  | text {v : Value} (h : v.isSingle = true) : HasForm .text v
  | boolean (b : Bool) : HasForm .boolean (.bool b)
  | moment (m : Moment) : HasForm .moment (.ofMoment m)

theorem Value.exists_of_normalize_moment {today : Date} {field : String} {v w : Value}
    (h : v.normalize today field .moment = .ok w) :
    ∃ m, v.toMoment today field = .ok m ∧ w = .ofMoment m := by
  simp only [normalize] at h
  cases hm : v.toMoment today field with
  | error e =>
      rw [hm] at h
      cases h
  | ok m =>
      rw [hm] at h
      cases h
      exact ⟨m, rfl, rfl⟩

theorem Value.hasForm_of_normalize {today : Date} {field : String} {kind : FieldKind}
    {v w : Value} (hv : v.isSingle = true) (h : v.normalize today field kind = .ok w) :
    kind.HasForm w := by
  cases kind with
  | text =>
      cases h
      exact .text hv
  | boolean =>
      cases h
      exact .boolean _
  | moment =>
      obtain ⟨m, -, rfl⟩ := exists_of_normalize_moment h
      exact .moment m

theorem FieldKind.HasForm.isSingle {kind : FieldKind} {v : Value} (h : kind.HasForm v) :
    v.isSingle = true := by
  cases h with
  | text h => exact h
  | boolean b => rfl
  | moment m => rfl

namespace Field

/-- Does the field's rule, if it has one, accept the value? -/
def Accepts (f : Field) (v : Value) : Prop :=
  Validator.acceptsIfAny f.rule v = .ok true

/-- A value that the field may be bounded by. Bounds are brought into canonical form only where they
are moments. -/
structure IsBound (f : Field) (v : Value) : Prop where
  single : v.isSingle = true
  moment : f.kind = .moment → ∃ m, v = .ofMoment m
  accepted : f.Accepts v

/-- The conditions that are right for a field. Excluded values are not put to the field's rule. -/
inductive Admits (f : Field) : Predicate → Prop
  | equals {v : Value} (form : f.kind.HasForm v) (accepted : f.Accepts v) :
      Admits f (.equals f.name v)
  | notEquals {v : Value} (form : f.kind.HasForm v) : Admits f (.notEquals f.name v)
  | isSet : Admits f (.isSet f.name)
  | isAbsent : Admits f (.isAbsent f.name)
  | atLeast {v : Value} (bound : f.IsBound v) : Admits f (.atLeast f.name v)
  | atMost {v : Value} (bound : f.IsBound v) : Admits f (.atMost f.name v)
  | isAmong {vs : List Value} (members : ∀ v ∈ vs, f.kind.HasForm v ∧ f.Accepts v) :
      Admits f (.isAmong f.name vs)
  | matching {w : Wildcard} (kind : f.kind = .text) (ends : w.leading = true ∨ w.trailing = true)
      (inner : Wildcard.mark ∉ w.text.toList) : Admits f (.matching f.name w)

theorem Admits.field {f : Field} {p : Predicate} (h : f.Admits p) : p.field = f.name := by
  cases h <;> rfl

theorem Admits.isSingle {f : Field} {p : Predicate} (h : f.Admits p) :
    ∀ v ∈ p.operands, v.isSingle = true := by
  cases h with
  | equals form => exact List.forall_mem_singleton.mpr form.isSingle
  | notEquals form => exact List.forall_mem_singleton.mpr form.isSingle
  | atLeast bound => exact List.forall_mem_singleton.mpr bound.single
  | atMost bound => exact List.forall_mem_singleton.mpr bound.single
  | isAmong members => exact fun v hv => (members v hv).1.isSingle
  | isSet => exact List.forall_mem_nil _
  | isAbsent => exact List.forall_mem_nil _
  | matching => exact List.forall_mem_nil _

end Field

namespace Predicate

/-- Does the condition leave something out? -/
def isExclusion : Predicate → Bool
  | .notEquals .. | .isSet _ => true
  | _ => false

/-- Does the condition stand alone among those of its field? -/
def isOnly : Predicate → Bool
  | .isAmong .. | .isAbsent _ | .equals .. | .matching .. => true
  | _ => false

/-- The ways in which the conditions on one field stand together. -/
inductive IsGroup : List Predicate → Prop
  | exclusions {ps : List Predicate} (h : ∀ p ∈ ps, p.isExclusion = true) : IsGroup ps
  | lower (field : String) (v : Value) : IsGroup [.atLeast field v]
  | upper (field : String) (v : Value) : IsGroup [.atMost field v]
  | both (field : String) (v w : Value) : IsGroup [.atLeast field v, .atMost field w]
  | only {p : Predicate} (h : p.isOnly = true) : IsGroup [p]

end Predicate

namespace Field

open Predicate (IsGroup)

variable {today : Date} {f : Field}

/-- Conditions that are right for the field and stand together. -/
structure Makes (f : Field) (ps : List Predicate) : Prop where
  admitted : ∀ p ∈ ps, f.Admits p
  group : IsGroup ps

theorem Makes.only {p : Predicate} (admitted : f.Admits p) (h : p.isOnly = true) : f.Makes [p] :=
  ⟨List.forall_mem_singleton.mpr admitted, .only h⟩

theorem accepts_of_check {v : Value} {u : Unit} (h : f.check v = .ok u) : f.Accepts v := by
  unfold check at h
  unfold Accepts
  split at h
  · assumption
  · cases h
  · cases h

theorem accepts_of_checked {v w : Value} (hv : v.isSingle = true)
    (h : f.checked today v = .ok w) : f.kind.HasForm w ∧ f.Accepts w := by
  obtain ⟨made, hmade, h⟩ := Outcome.bind_eq_ok_iff.mp h
  obtain ⟨_, hcheck, h⟩ := Outcome.bind_eq_ok_iff.mp h
  cases h
  exact ⟨Value.hasForm_of_normalize hv hmade, accepts_of_check hcheck⟩

theorem admits_of_excluding {values : List Value} {ps : List Predicate}
    (h : f.excluding today values = .ok ps) : ∀ p ∈ ps, f.Admits p ∧ p.isExclusion = true := by
  induction values generalizing ps with
  | nil =>
      cases h
      exact List.forall_mem_nil _
  | cons v rest ih =>
      simp only [excluding] at h
      split at h
      · obtain ⟨others, hothers, h⟩ := Outcome.bind_eq_ok_iff.mp h
        cases h
        exact List.forall_mem_cons.mpr ⟨⟨.isSet, rfl⟩, ih hothers⟩
      · split at h
        · rename_i hv
          obtain ⟨w, hw, h⟩ := Outcome.bind_eq_ok_iff.mp h
          obtain ⟨others, hothers, h⟩ := Outcome.bind_eq_ok_iff.mp h
          cases h
          have form := Value.hasForm_of_normalize (Value.isSingle_of_isScalar hv) hw
          exact List.forall_mem_cons.mpr ⟨⟨.notEquals form, rfl⟩, ih hothers⟩
        · exact ih h

theorem makes_of_excluding {values : List Value} {ps : List Predicate}
    (h : f.excluding today values = .ok ps) : f.Makes ps :=
  ⟨fun p hp => (admits_of_excluding h p hp).1,
    .exclusions fun p hp => (admits_of_excluding h p hp).2⟩

theorem accepts_of_members {values members : List Value}
    (h : f.members today values = .ok members) :
    ∀ v ∈ members, f.kind.HasForm v ∧ f.Accepts v := by
  induction values generalizing members with
  | nil =>
      cases h
      exact List.forall_mem_nil _
  | cons v rest ih =>
      simp only [Field.members] at h
      split at h
      · rename_i hv
        obtain ⟨w, hw, h⟩ := Outcome.bind_eq_ok_iff.mp h
        obtain ⟨others, hothers, h⟩ := Outcome.bind_eq_ok_iff.mp h
        cases h
        have first := accepts_of_checked (Value.isSingle_of_isScalar hv) hw
        exact List.forall_mem_cons.mpr ⟨first, ih hothers⟩
      · exact ih h

theorem makes_of_among {values : List Value} {ps : List Predicate}
    (h : (do return [← f.among today values]) = Except.ok ps) : f.Makes ps := by
  obtain ⟨p, hp, h⟩ := Outcome.bind_eq_ok_iff.mp h
  cases h
  obtain ⟨members, hmembers, hp⟩ := Outcome.bind_eq_ok_iff.mp hp
  cases hp
  exact .only (.isAmong (accepts_of_members hmembers)) rfl

/-- A bound that is used is accepted by the field's rule, in the form of a moment on a field of that
kind and as it stands on others. -/
theorem cases_of_bound {v : Value} {made : Option Value} (h : f.bound today v = .ok made) :
    (v.isScalar = false ∧ made = none) ∨
      v.isScalar = true ∧ ∃ w, made = some w ∧ f.Accepts w ∧
        ((∃ m, w = .ofMoment m ∧ f.kind = .moment ∧ v.toMoment today f.name = .ok m) ∨
          (w = v ∧ f.kind ≠ .moment)) := by
  unfold bound at h
  split at h
  · rename_i hscalar
    refine .inr ⟨hscalar, ?_⟩
    dsimp only at h
    split at h
    · rename_i hkind
      obtain ⟨w, hw, h⟩ := Outcome.bind_eq_ok_iff.mp h
      obtain ⟨_, hcheck, h⟩ := Outcome.bind_eq_ok_iff.mp h
      cases h
      rw [hkind] at hw
      obtain ⟨m, hm, rfl⟩ := Value.exists_of_normalize_moment hw
      exact ⟨_, rfl, accepts_of_check hcheck, .inl ⟨m, rfl, hkind, hm⟩⟩
    · rename_i hkind
      obtain ⟨w, hw, h⟩ := Outcome.bind_eq_ok_iff.mp h
      obtain ⟨_, hcheck, h⟩ := Outcome.bind_eq_ok_iff.mp h
      cases hw
      cases h
      exact ⟨v, rfl, accepts_of_check hcheck, .inr ⟨rfl, hkind⟩⟩
  · rename_i hscalar
    cases h
    exact .inl ⟨eq_false_of_ne_true hscalar, rfl⟩

theorem isBound_of_bound {v w : Value} (h : f.bound today v = .ok (some w)) : f.IsBound w := by
  rcases cases_of_bound h with ⟨-, h⟩ | ⟨hscalar, _, h, accepted, form⟩
  · cases h
  · cases h
    rcases form with ⟨m, rfl, -, -⟩ | ⟨rfl, hkind⟩
    · exact ⟨rfl, fun _ => ⟨m, rfl⟩, accepted⟩
    · exact ⟨Value.isSingle_of_isScalar hscalar, fun h => absurd h hkind, accepted⟩

theorem makes_of_within {lower upper : Value} {values : List Value} {ps : List Predicate}
    (h : f.within today lower upper values = .ok ps) : f.Makes ps := by
  obtain ⟨least, hleast, h⟩ := Outcome.bind_eq_ok_iff.mp h
  obtain ⟨most, hmost, h⟩ := Outcome.bind_eq_ok_iff.mp h
  cases least with
  | none =>
      cases most with
      | none => exact makes_of_among h
      | some u =>
          cases h
          exact ⟨List.forall_mem_singleton.mpr (.atMost (isBound_of_bound hmost)), .upper _ _⟩
  | some l =>
      have hlower : f.Admits (.atLeast f.name l) := .atLeast (isBound_of_bound hleast)
      cases most with
      | none =>
          cases h
          exact ⟨List.forall_mem_singleton.mpr hlower, .lower _ _⟩
      | some u =>
          cases h
          have hupper : f.Admits (.atMost f.name u) := .atMost (isBound_of_bound hmost)
          exact ⟨List.forall_mem_cons.mpr ⟨hlower, List.forall_mem_singleton.mpr hupper⟩,
            .both _ _ _⟩

theorem admits_of_wildcard {v : Value} {w : Wildcard} (h : f.wildcard? v = some w) :
    f.Admits (.matching f.name w) := by
  cases v with
  | text s =>
      simp only [wildcard?] at h
      split at h
      · rename_i hkind
        obtain ⟨hread, h⟩ := Option.ite_none_right_eq_some.mp h
        obtain ⟨hends, hinner⟩ := Bool.and_eq_true_iff.mp hread
        cases h
        refine .matching hkind (Bool.or_eq_true_iff.mp hends) ?_
        simpa using hinner
      · cases h
  | _ => cases h

theorem makes_of_equalTo {v : Value} {ps : List Predicate} (hv : v.isSingle = true)
    (h : (do return [← f.equalTo today v]) = Except.ok ps) : f.Makes ps := by
  obtain ⟨p, hp, h⟩ := Outcome.bind_eq_ok_iff.mp h
  cases h
  unfold equalTo at hp
  split at hp
  · rename_i w hw
    cases hp
    exact .only (admits_of_wildcard hw) rfl
  · obtain ⟨w, hw, hp⟩ := Outcome.bind_eq_ok_iff.mp hp
    cases hp
    obtain ⟨form, accepted⟩ := accepts_of_checked hv hw
    exact .only (.equals form accepted) rfl

/-- Whatever is asked of a field, its conditions are right for it and stand together. -/
theorem makes_of_predicates {raw : Value} {ps : List Predicate}
    (h : f.predicates today raw = .ok ps) : f.Makes ps := by
  unfold predicates at h
  cases hterm : Term.ofValue raw with
  | negated values =>
      rw [hterm] at h
      exact makes_of_excluding h
  | range lower upper values =>
      rw [hterm] at h
      exact makes_of_within h
  | members values =>
      rw [hterm] at h
      exact makes_of_among h
  | absent =>
      rw [hterm] at h
      cases h
      exact .only .isAbsent rfl
  | single v =>
      rw [hterm] at h
      exact makes_of_equalTo (Term.isSingle_of_single hterm) h

end Field

namespace Filter

variable {today : Date} {registry : Registry}

theorem admits_of_compileFields {es : Entries} {fields : List Field} {ps : List Predicate}
    (h : compileFields today es fields = .ok ps) : ∀ p ∈ ps, ∃ f ∈ fields, f.Admits p := by
  induction fields generalizing ps with
  | nil =>
      cases h
      exact List.forall_mem_nil _
  | cons f rest ih =>
      have later {qs : List Predicate} (hqs : compileFields today es rest = .ok qs) :
          ∀ p ∈ qs, ∃ g ∈ f :: rest, g.Admits p := by
        intro p hp
        obtain ⟨g, hg, hadmits⟩ := ih hqs p hp
        exact ⟨g, .tail _ hg, hadmits⟩
      unfold compileFields at h
      split at h
      · exact later h
      · obtain ⟨first, hfirst, h⟩ := Outcome.bind_eq_ok_iff.mp h
        obtain ⟨others, hothers, h⟩ := Outcome.bind_eq_ok_iff.mp h
        cases h
        have made := Field.makes_of_predicates hfirst
        rw [List.forall_mem_append]
        exact ⟨fun p hp => ⟨f, .head _, made.admitted p hp⟩, later hothers⟩

/-- The conditions on one field are those that its own raw value comes to, as fields have different
names. -/
theorem filter_of_compileFields {es : Entries} {fields : List Field} {ps : List Predicate}
    (nodup : (fields.map Field.name).Nodup) (h : compileFields today es fields = .ok ps)
    {f : Field} (hf : f ∈ fields) :
    match es.get? f.name with
    | none => (ps.filter fun p => p.field == f.name) = []
    | some raw => f.predicates today raw = .ok (ps.filter fun p => p.field == f.name) := by
  induction fields generalizing ps with
  | nil => cases hf
  | cons g rest ih =>
      obtain ⟨hg, hrest⟩ := List.nodup_cons.mp nodup
      -- No field after the first shares its name.
      have absent {qs : List Predicate} (hqs : compileFields today es rest = .ok qs) :
          (qs.filter fun p => p.field == g.name) = [] := by
        rw [List.filter_eq_nil_iff]
        intro p hp hname
        rw [← eq_of_beq hname] at hg
        exact hg (holds_of_compileFields hqs p hp).1
      unfold compileFields at h
      cases hraw : es.get? g.name with
      | none =>
          rw [hraw] at h
          rcases List.mem_cons.mp hf with rfl | hf
          · rw [hraw]
            exact absent h
          · exact ih hrest h hf
      | some raw =>
          rw [hraw] at h
          obtain ⟨first, hfirst, h⟩ := Outcome.bind_eq_ok_iff.mp h
          obtain ⟨others, hothers, h⟩ := Outcome.bind_eq_ok_iff.mp h
          cases h
          have hfield := Field.field_of_predicates hfirst
          rw [List.filter_append]
          rcases List.mem_cons.mp hf with rfl | hf
          · have own : (first.filter fun p => p.field == f.name) = first :=
              List.filter_eq_self.mpr fun p hp => beq_iff_eq.mpr (hfield p hp)
            rw [hraw, absent hothers, own, List.append_nil]
            exact hfirst
          · have none_own : (first.filter fun p => p.field == f.name) = [] := by
              rw [List.filter_eq_nil_iff]
              intro p hp hname
              rw [hfield p hp] at hname
              exact hg (eq_of_beq hname ▸ List.mem_map_of_mem hf)
            rw [none_own, List.nil_append]
            exact ih hrest hothers hf

/-- Each condition that a filter compiles to is right for its field, and the conditions on one field
are exclusions, or bounds, or a single one of another sort. -/
theorem compiled_conditions_fit_their_fields (today : Date) (registry : Registry) {filter : Value}
    {ps : List Predicate} (h : compile today registry filter = .ok ps) :
    (∀ p ∈ ps, ∃ f ∈ registry.fields, p.field = f.name ∧ Holds f.name filter ∧ f.Admits p) ∧
      (∀ p ∈ ps, ∀ v ∈ p.operands, v.isSingle = true) ∧
      ∀ f ∈ registry.fields, Predicate.IsGroup (ps.filter fun p => p.field == f.name) := by
  cases filter with
  | object es =>
      have admitted := admits_of_compileFields h
      refine ⟨?_, ?_, ?_⟩
      · intro p hp
        obtain ⟨f, hf, hadmits⟩ := admitted p hp
        have hname := hadmits.field
        exact ⟨f, hf, hname, hname ▸ (holds_of_compile h p hp).2, hadmits⟩
      · intro p hp
        obtain ⟨f, -, hadmits⟩ := admitted p hp
        exact hadmits.isSingle
      · intro f hf
        have own := filter_of_compileFields registry.names_nodup h hf
        cases hraw : Entries.get? es f.name with
        | none =>
            rw [hraw] at own
            rw [own]
            exact .exclusions (List.forall_mem_nil _)
        | some raw =>
            rw [hraw] at own
            exact (Field.makes_of_predicates own).group
  | _ => cases h

section Rated

def ratedRegistry : Registry where
  fields := [{ name := "title" }, { name := "rating", rule := some (.between (.int 0) (.int 5)) },
    { name := "is_open" }]

def ratedFilter : Value :=
  .object [
    (.text "is_open", .list [.text "Yes ", .null, .int 0]),
    (.text "rating", .object [(.text "to", .int 5), (.text "from", .int 1)]),
    (.text "title", .object [(.text "not", .list [.null, .list [], .text "a%"])]),
    (.text "owner", .int 1)]

/-- Excluded texts are no wildcards, members of a boolean field become truth values, and the lower
bound comes first. -/
theorem conditions_on_rated_articles :
    ∃ ps, compile default ratedRegistry ratedFilter = .ok ps ∧
      ps = [.isSet "title", .notEquals "title" (.text "a%"), .atLeast "rating" (.int 1),
        .atMost "rating" (.int 5), .isAmong "is_open" [.bool true, .bool false]] ∧
      (∀ p ∈ ps, ∃ f ∈ ratedRegistry.fields, p.field = f.name ∧ Holds f.name ratedFilter ∧
        f.Admits p) ∧
      ∀ f ∈ ratedRegistry.fields, Predicate.IsGroup (ps.filter fun p => p.field == f.name) := by
  have hcompiled : compile default ratedRegistry ratedFilter = .ok _ := rfl
  obtain ⟨admitted, -, groups⟩ := compiled_conditions_fit_their_fields default ratedRegistry hcompiled
  exact ⟨_, hcompiled, rfl, admitted, groups⟩

end Rated

end Filter

end Catalogue
