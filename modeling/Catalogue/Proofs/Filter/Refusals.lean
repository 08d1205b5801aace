import Catalogue.Proofs.Field.Validator
import Catalogue.Proofs.Query.ClosedNames
import Catalogue.Proofs.Text.Numeral
import Catalogue.Proofs.Timestamp.Precision

/-!
How a filter is refused: for its form, for a value that it gives a declared field, or for a timestamp
beyond the precision of fractions.
-/

namespace Catalogue

open Calendar (Date)

namespace Validator

/-- A rule that is made of rules of the usual sorts, or that raises nothing but refusals. -/
inductive IsUsual : Validator → Prop
  | ofType (type : TypeName) (strict : Bool) : IsUsual (.ofType type strict)
  | oneOf (choices : List Value) : IsUsual (.oneOf choices)
  | matching (pattern : Pattern) : IsUsual (.matching pattern)
  | length (least : Int) (most : Option Int) : IsUsual (.length least most)
  | between (least most : Value) : IsUsual (.between least most)
  | allOf {rules : List Validator} (h : ∀ rule ∈ rules, IsUsual rule) : IsUsual (.allOf rules)
  | refusing {rule : Validator} (h : ∀ v fault, rule.apply v = .error fault → fault.isRefusal = true) :
      IsUsual rule

/-- A usual rule that there is room for all levels of. -/
structure IsProper (rule : Validator) : Prop where
  usual : rule.IsUsual
  nesting_le : rule.nesting ≤ maxNesting

theorem failsAs_inTurn {P : Fault → Prop} {ask : Validator → Except Fault Bool}
    {rules : List Validator} (h : ∀ rule ∈ rules, FailsAs P (ask rule)) :
    FailsAs P (inTurn ask rules) := by
  induction rules with
  | nil => exact .ok true
  | cons rule rest ih =>
      obtain ⟨hrule, hrest⟩ := List.forall_mem_cons.mp h
      exact .bind hrule fun _ _ => .ite (ih hrest) (.ok false)

theorem failsAs_applyAsPart {v : Value} {rule : Validator}
    (h : FailsAs (fun fault => fault.isRefusal = true) (rule.apply v)) :
    FailsAs (fun fault => fault.isRefusal = true) (applyAsPart v maxNesting rule) := by
  unfold apply at h
  unfold applyAsPart
  cases hcall : call v maxNesting rule with
  | error fault =>
      rw [hcall] at h
      exact .error (fault.isRefusal_passedOn.trans (h fault rfl))
  | ok answer =>
      rw [hcall] at h
      exact h

theorem IsUsual.failsAs {rule : Validator} (usual : rule.IsUsual) (v : Value)
    (h : rule.nesting ≤ maxNesting) :
    FailsAs (fun fault => fault.isRefusal = true) (rule.apply v) := by
  induction usual with
  | ofType type strict => exact .ok _
  | oneOf choices =>
      unfold apply call isAmong
      split
      · exact .ok _
      · exact .error rfl
  | matching pattern => cases v <;> exact .ok _
  | length least most => exact .ok _
  | between least most => exact .ok _
  | allOf _ ih =>
      rw [apply_allOf v h]
      refine failsAs_inTurn fun rule hrule => failsAs_applyAsPart (ih rule hrule ?_)
      exact Nat.le_of_lt (Nat.lt_of_lt_of_le (nesting_lt_allOf hrule) h)
  | refusing hrefusing => exact hrefusing v

theorem exists_acceptsIfAny {rule : Option Validator} (proper : ∀ r ∈ rule, r.IsProper) (v : Value) :
    ∃ b, acceptsIfAny rule v = .ok b := by
  cases rule with
  | none => exact ⟨true, rfl⟩
  | some r =>
      obtain ⟨usual, hnesting⟩ := proper r rfl
      change ∃ b, r.accepts v = .ok b
      unfold accepts
      split
      · exact ⟨true, rfl⟩
      · split
        · exact ⟨_, rfl⟩
        · rename_i fault happly
          rw [if_pos (usual.failsAs v hnesting fault happly)]
          exact ⟨false, rfl⟩

end Validator

/-- The values that a field is compared with in the end, as far as they can be used. -/
def Term.values : Term → List Value
  | .single v => [v]
  | .members vs | .negated vs => vs
  | .absent => []
  | .range lower upper all => lower :: upper :: all

namespace Field

/-- How a field refuses one of the values that it is given. A timestamp beyond the precision is
refused in its own way. -/
inductive Refuses (today : Date) (f : Field) (vs : List Value) : Failure → Prop
  | value (problem : ValueProblem) : Refuses today f vs (.filterValue f.name problem)
  | imprecise {t : String} (given : .text t ∈ vs) (kind : f.kind = .moment)
      (unread : Timestamp.readUniversal today (Text.trim t) = .error .imprecise)
      (long : ∃ token ∈ Timestamp.tokens (Text.trim t).toList, Timestamp.IsLong token) :
      Refuses today f vs (.fault .imprecise)

section Values

variable {today : Date} {f : Field} {vs : List Value}

theorem refuses_normalize {v : Value} (hv : v ∈ vs) :
    FailsAs (Refuses today f vs) (v.normalize today f.name f.kind) := by
  cases hkind : f.kind with
  | text => exact .ok _
  | boolean => exact .ok _
  | moment =>
      have hmoment : FailsAs (Refuses today f vs) (v.toMoment today f.name) := by
        unfold Value.toMoment
        split
        · split
          · exact .ok _
          · exact .error (.value _)
        · exact .ok _
        · refine .ite (.error (.value _)) ?_
          split
          · exact .ok _
          · exact .error (.value _)
          · rename_i hread
            exact .error (.imprecise hv hkind hread (Timestamp.exists_long_of_imprecise hread))
        · exact .error (.value _)
      simp only [Value.normalize]
      cases hmade : v.toMoment today f.name with
      | ok m => exact .ok _
      | error e => exact .error (hmoment e hmade)

variable (proper : ∀ rule ∈ f.rule, rule.IsProper)
include proper

theorem refuses_check (v : Value) : FailsAs (Refuses today f vs) (f.check v) := by
  obtain ⟨b, hb⟩ := Validator.exists_acceptsIfAny proper v
  unfold check
  rw [hb]
  cases b with
  | true => exact .ok _
  | false => exact .error (.value _)

theorem refuses_checked {v : Value} (hv : v ∈ vs) :
    FailsAs (Refuses today f vs) (f.checked today v) :=
  .bind (refuses_normalize hv) fun _ _ => .bind (refuses_check proper _) fun _ _ => .ok _

omit proper in
theorem refuses_excluding {values : List Value} (h : ∀ v ∈ values, v ∈ vs) :
    FailsAs (Refuses today f vs) (f.excluding today values) := by
  induction values with
  | nil => exact .ok _
  | cons v rest ih =>
      obtain ⟨hv, hrest⟩ := List.forall_mem_cons.mp h
      have later := ih hrest
      refine .ite (.bind later fun _ _ => .ok _) (.ite ?_ later)
      exact .bind (refuses_normalize hv) fun _ _ => .bind later fun _ _ => .ok _

theorem refuses_members {values : List Value} (h : ∀ v ∈ values, v ∈ vs) :
    FailsAs (Refuses today f vs) (f.members today values) := by
  induction values with
  | nil => exact .ok _
  | cons v rest ih =>
      obtain ⟨hv, hrest⟩ := List.forall_mem_cons.mp h
      have later := ih hrest
      refine .ite ?_ later
      exact .bind (refuses_checked proper hv) fun _ _ => .bind later fun _ _ => .ok _

theorem refuses_among {values : List Value} (h : ∀ v ∈ values, v ∈ vs) :
    FailsAs (Refuses today f vs) (f.among today values) :=
  .bind (refuses_members proper h) fun _ _ => .ok _

theorem refuses_bound {v : Value} (hv : v ∈ vs) :
    FailsAs (Refuses today f vs) (f.bound today v) := by
  have checked (w : Value) : FailsAs (Refuses today f vs) (do
      f.check w
      return some w) :=
    .bind (refuses_check proper w) fun _ _ => .ok _
  refine .ite (.ite ?_ ?_) (.ok _)
  · exact .bind (refuses_normalize hv) fun w _ => checked w
  · exact .bind (.ok v) fun w _ => checked w

theorem refuses_within {lower upper : Value} {values : List Value} (hlower : lower ∈ vs)
    (hupper : upper ∈ vs) (h : ∀ v ∈ values, v ∈ vs) :
    FailsAs (Refuses today f vs) (f.within today lower upper values) := by
  refine .bind (refuses_bound proper hlower) fun least _ => ?_
  refine .bind (refuses_bound proper hupper) fun most _ => ?_
  cases least with
  | none =>
      cases most with
      | none => exact .bind (refuses_among proper h) fun _ _ => .ok _
      | some u => exact .ok _
  | some l => cases most <;> exact .ok _

theorem refuses_equalTo {v : Value} (hv : v ∈ vs) :
    FailsAs (Refuses today f vs) (f.equalTo today v) := by
  unfold equalTo
  split
  · exact .ok _
  · exact .bind (refuses_checked proper hv) fun _ _ => .ok _

theorem refuses_predicates (raw : Value) :
    FailsAs (Refuses today f (Term.ofValue raw).values) (f.predicates today raw) := by
  unfold predicates
  cases Term.ofValue raw with
  | negated values => exact refuses_excluding fun _ => id
  | range lower upper values =>
      exact refuses_within proper (.head _) (.tail _ (.head _)) fun _ hv => .tail _ (.tail _ hv)
  | members values => exact .bind (refuses_among proper fun _ => id) fun _ _ => .ok _
  | absent => exact .ok _
  | single v => exact .bind (refuses_equalTo proper (.head _)) fun _ _ => .ok _

end Values

end Field

namespace Filter

/-- A filter, or one of its clauses, has a value under a name. -/
inductive HasEntry (name : String) (raw : Value) : Value → Prop
  | object {es : Entries} (h : es.get? name = some raw) : HasEntry name raw (.object es)
  | clause {es : Entries} {clauses : List Value} (hmem : .object es ∈ clauses)
      (h : es.get? name = some raw) : HasEntry name raw (.list clauses)

/-- How a filter is refused: for its form, or for what it gives a declared field. -/
inductive Refuses (today : Date) (registry : Registry) (filter : Value) : Failure → Prop
  | form (problem : ParameterProblem) : Refuses today registry filter (.parameter "filter" problem)
  | entry {f : Field} {raw : Value} {e : Failure} (declared : f ∈ registry.fields)
      (given : HasEntry f.name raw filter) (refused : f.Refuses today (Term.ofValue raw).values e) :
      Refuses today registry filter e

theorem Refuses.mono {today : Date} {registry : Registry} {filter filter' : Value} {e : Failure}
    (h : Refuses today registry filter e)
    (entries : ∀ name raw, HasEntry name raw filter → HasEntry name raw filter') :
    Refuses today registry filter' e := by
  cases h with
  | form problem => exact .form problem
  | entry declared given refused => exact .entry declared (entries _ _ given) refused

section Registry

variable {today : Date} {registry : Registry}
  (proper : ∀ f ∈ registry.fields, ∀ rule ∈ f.rule, rule.IsProper)
include proper

theorem refuses_compileFields {es : Entries} {filter : Value} {fields : List Field}
    (declared : ∀ f ∈ fields, f ∈ registry.fields)
    (entries : ∀ name raw, es.get? name = some raw → HasEntry name raw filter) :
    FailsAs (Refuses today registry filter) (compileFields today es fields) := by
  induction fields with
  | nil => exact .ok _
  | cons f rest ih =>
      obtain ⟨hf, hrest⟩ := List.forall_mem_cons.mp declared
      have later := ih hrest
      unfold compileFields
      cases hraw : es.get? f.name with
      | none => exact later
      | some raw =>
          have own := (Field.refuses_predicates (proper f hf) raw).mono fun e (he : f.Refuses today _ e) =>
            Refuses.entry hf (entries _ _ hraw) he
          exact .bind own fun _ _ => .bind later fun _ _ => .ok _

theorem refuses_compile (filter : Value) :
    FailsAs (Refuses today registry filter) (compile today registry filter) := by
  cases filter with
  | object es => exact refuses_compileFields proper (fun _ => id) fun _ _ => .object
  | _ => exact .error (.form _)

theorem refuses_compileEach {clauses rest : List Value} (h : ∀ v ∈ rest, v ∈ clauses) :
    FailsAs (Refuses today registry (.list clauses)) (compileEach today registry rest) := by
  induction rest with
  | nil => exact .ok _
  | cons v rest ih =>
      obtain ⟨hv, hrest⟩ := List.forall_mem_cons.mp h
      cases v with
      | object es =>
          have own : FailsAs (Refuses today registry (.list clauses))
              (compile today registry (.object es)) :=
            refuses_compileFields proper (fun _ => id) fun _ _ => .clause hv
          exact .bind own fun _ _ => .bind (ih hrest) fun _ _ => .ok _
      | _ => exact .error (.form _)

theorem refuses_compileClauses (filter : Value) :
    FailsAs (Refuses today registry filter) (compileClauses today registry filter) := by
  cases filter with
  | list clauses => exact refuses_compileEach proper fun _ => id
  | _ => exact refuses_compile proper _

end Registry

end Filter

theorem Value.toMoment_of_unreadable {today : Date} {t : String} (field : String)
    (unread : Timestamp.readUniversal today (Text.trim t) = .error .unreadable) :
    (Value.text t).toMoment today field = .error (.filterValue field .notTimestamp) := by
  simp only [toMoment]
  split
  · rfl
  · rw [unread]

theorem Value.toMoment_of_imprecise {today : Date} {t : String} (field : String)
    (unread : Timestamp.readUniversal today (Text.trim t) = .error .imprecise) :
    (Value.text t).toMoment today field = .error (.fault .imprecise) := by
  -- a blank text has no token that could be too long
  have hblank : ¬Text.isAllBlank t = true := by
    intro hblank
    have htrim : Text.trim t = "" := String.isEmpty_iff.mp ((Text.isEmpty_trim t).trans hblank)
    rw [htrim] at unread
    obtain ⟨token, htoken, -⟩ := Timestamp.exists_long_of_imprecise unread
    cases htoken
  simp only [toMoment]
  rw [if_neg hblank, unread]

theorem Filter.compile_of_toMoment {today : Date} {registry : Registry} {f : Field}
    (hf : f ∈ registry.fields) (kind : f.kind = .moment) {t : String} {e : Failure}
    (unread : (Value.text t).toMoment today f.name = .error e) :
    compile today registry (.object [(.text f.name, .text t)]) = .error e := by
  have hwildcard : f.wildcard? (.text t) = none := by
    rw [Field.wildcard?, kind]
    rfl
  have hchecked : f.checked today (.text t) = .error e := by
    rw [Field.checked, kind, Value.normalize, unread]
    rfl
  rw [compile_singleton today hf]
  change (f.equalTo today (.text t)).bind (fun p => .ok [p]) = _
  rw [Field.equalTo, hwildcard]
  dsimp only
  rw [hchecked]
  rfl

namespace Plan

/-- The marker's entry is the only one that a filter loses. -/
theorem hasEntry_of_withoutMarker {settings : Settings} {filter : Value} {name : String} {raw : Value}
    (h : Filter.HasEntry name raw (withoutMarker settings filter)) :
    Filter.HasEntry name raw filter := by
  -- nothing is left under the marker's name, and all else is as it was
  have kept {marker : String} {es : Entries} (h : (es.erase marker).get? name = some raw) :
      es.get? name = some raw := by
    by_cases hname : name = marker
    · rw [hname, Entries.get?_erase_self] at h
      cases h
    · rwa [Entries.get?_erase_of_ne es hname] at h
  unfold withoutMarker at h
  split at h
  · exact h
  · split at h
    · exact h
    · cases filter with
      | object es =>
          cases h with
          | object h => exact .object (kept h)
      | list clauses =>
          cases h with
          | clause hmem h =>
              obtain ⟨v, hv, heq⟩ := List.mem_map.mp hmem
              cases v with
              | object es =>
                  cases heq
                  exact .clause hv (kept h)
              | _ => cases heq
      | _ => exact h

theorem refuses_compileFilter {today : Date} {registry : Registry} (settings : Settings)
    (proper : ∀ f ∈ registry.fields, ∀ rule ∈ f.rule, rule.IsProper) (acceptsClauses : Bool)
    (filter : Value) :
    FailsAs (Filter.Refuses today registry filter)
      (compileFilter today registry acceptsClauses (withoutMarker settings filter)) := by
  have hcompile : FailsAs (Filter.Refuses today registry (withoutMarker settings filter))
      (compileFilter today registry acceptsClauses (withoutMarker settings filter)) :=
    .ite (Filter.refuses_compileClauses proper _) (Filter.refuses_compile proper _)
  exact hcompile.mono fun e he => he.mono fun _ _ => hasEntry_of_withoutMarker

end Plan

end Catalogue
