import Catalogue.Proofs.Field.Validator
import Catalogue.Query.Plan
import Mathlib.Data.List.Forall2

/-!
Rules that are composed of rules. However they are nested, they judge as their leaves do, each on its
own and one after the other up to the first that does not accept. How the rules of its fields are
nested has no part in what a filter compiles to.
-/

namespace Catalogue

open Calendar (Date)

@[simp] theorem Fault.passedOn_passedOn (f : Fault) : f.passedOn.passedOn = f.passedOn := by
  by_cases h : f = sequenceEnd
  · subst h
    rfl
  · have hkept : f.passedOn = f := if_neg h
    rw [hkept, hkept]

namespace Validator

/-- There is room for all levels of the rule, and each of its leaves can be called. -/
structure IsCallable (rule : Validator) : Prop where
  nesting_le : rule.nesting ≤ maxNesting
  ne_nothing : ∀ leaf ∈ rule.leaves, leaf ≠ .nothing

/-- Calling the rule raises a fault, which a rule that it is a part of passes on, or asking its answer
raises one. -/
def Raises (rule : Validator) (v : Value) (fault : Fault) : Prop :=
  (∃ raised, call v maxNesting rule = .error raised ∧ raised.passedOn = fault) ∨
    call v maxNesting rule = .ok (.error fault)

/-- An answer in which a refusing fault counts as no. -/
def guarded : Except Fault Bool → Except Fault Bool
  | .ok b => .ok b
  | .error f => if f.isRefusal then .ok false else .error f

section Guarded

variable {x : Except Fault Bool}

theorem guarded_eq_true_iff : guarded x = .ok true ↔ x = .ok true := by
  cases x with
  | ok b => rfl
  | error f =>
      simp only [guarded]
      split <;> simp

theorem guarded_eq_error_iff {fault : Fault} :
    guarded x = .error fault ↔ x = .error fault ∧ fault.isRefusal = false := by
  cases x with
  | ok b => simp [guarded]
  | error f =>
      simp only [guarded]
      split <;> grind

theorem guarded_passedOn (x : Except Fault Bool) :
    guarded (x.mapError Fault.passedOn) = (guarded x).mapError Fault.passedOn := by
  cases x with
  | ok b => rfl
  | error f =>
      change guarded (.error f.passedOn) = (guarded (.error f)).mapError Fault.passedOn
      simp only [guarded, Fault.isRefusal_passedOn]
      split <;> rfl

theorem guarded_both (x y : Except Fault Bool) :
    guarded (both x y) = both (guarded x) (guarded y) := by
  rcases x with f | b
  · rw [both_error, guarded]
    split <;> rfl
  · cases b <;> rfl

theorem guarded_inTurn (ask : Validator → Except Fault Bool) (rules : List Validator) :
    guarded (inTurn ask rules) = inTurn (fun rule => guarded (ask rule)) rules := by
  induction rules with
  | nil => rfl
  | cons rule rest ih => rw [inTurn_cons, guarded_both, ih, inTurn_cons]

theorem accepts_eq_guarded {rule : Validator} (h : rule ≠ .nothing) (v : Value) :
    rule.accepts v = guarded (rule.apply v) := by
  unfold accepts
  split
  · exact absurd rfl h
  · cases rule.apply v <;> rfl

end Guarded

section Composed

variable {v : Value} {rule : Validator} {rules : List Validator} {fault : Fault}

theorem applyAsPart_eq_true_iff :
    applyAsPart v maxNesting rule = .ok true ↔ rule.apply v = .ok true := by
  unfold applyAsPart apply
  cases call v maxNesting rule with
  | error f => exact iff_of_false nofun nofun
  | ok answer => rfl

theorem applyAsPart_eq_error_iff :
    applyAsPart v maxNesting rule = .error fault ↔ rule.Raises v fault := by
  unfold applyAsPart Raises
  cases call v maxNesting rule with
  | error f =>
      change Except.error f.passedOn = .error fault ↔ _
      simp
  | ok answer =>
      change answer = .error fault ↔ _
      simp

theorem passedOn_applyAsPart (v : Value) (rule : Validator) :
    (applyAsPart v maxNesting rule).mapError Fault.passedOn =
      (rule.apply v).mapError Fault.passedOn := by
  unfold applyAsPart apply
  cases call v maxNesting rule with
  | error f => exact congrArg Except.error f.passedOn_passedOn
  | ok answer => rfl

/-- The guard around a composed rule does what guards around its parts would do. -/
theorem accepts_allOf (v : Value) (h : (allOf rules).nesting ≤ maxNesting) :
    (allOf rules).accepts v = inTurn (fun part => guarded (applyAsPart v maxNesting part)) rules := by
  have hrule : allOf rules ≠ .nothing := nofun
  rw [accepts_eq_guarded hrule, apply_allOf v h, guarded_inTurn]

theorem accepts_allOf_eq_error_iff (h : (allOf rules).nesting ≤ maxNesting) :
    (allOf rules).accepts v = .error fault ↔
      ∃ before part after, rules = before ++ part :: after ∧
        (∀ r ∈ before, r.apply v = .ok true) ∧ part.Raises v fault ∧ fault.isRefusal = false := by
  rw [accepts_allOf v h]
  simp only [inTurn_eq_error_iff, guarded_eq_true_iff, guarded_eq_error_iff, applyAsPart_eq_true_iff,
    applyAsPart_eq_error_iff]

theorem IsCallable.of_mem (h : (allOf rules).IsCallable) (hrule : rule ∈ rules) :
    rule.IsCallable where
  nesting_le := Nat.le_of_lt (Nat.lt_of_lt_of_le (nesting_lt_allOf hrule) h.nesting_le)
  ne_nothing leaf hleaf := h.ne_nothing leaf (mem_leaves_allOf hrule hleaf)

theorem IsCallable.accepts_eq_guarded (h : rule.IsCallable) (v : Value) :
    rule.accepts v = guarded (rule.apply v) := by
  refine Validator.accepts_eq_guarded (fun heq => ?_) v
  subst heq
  exact h.ne_nothing _ (.head _) rfl

theorem passedOn_accepts_allOf (v : Value) (h : (allOf rules).IsCallable) :
    ((allOf rules).accepts v).mapError Fault.passedOn =
      (inTurn (fun part => part.accepts v) rules).mapError Fault.passedOn := by
  rw [accepts_allOf v h.nesting_le, mapError_inTurn, mapError_inTurn]
  refine inTurn_congr fun part hpart => ?_
  rw [(h.of_mem hpart).accepts_eq_guarded, ← guarded_passedOn, passedOn_applyAsPart, guarded_passedOn]

/-- Each rule judges as its leaves do in turn, but for the end of a sequence. -/
theorem passedOn_accepts (v : Value) (h : rule.IsCallable) :
    (rule.accepts v).mapError Fault.passedOn =
      (inTurn (fun leaf => leaf.accepts v) rule.leaves).mapError Fault.passedOn := by
  induction rule using nested_induction with
  | leaf rule hleaf => rw [leaves_of_ne_allOf hleaf, inTurn_cons, inTurn, both_yes_right]
  | allOf rules ih =>
      have hparts : ∀ rule ∈ rules, (rule.accepts v).mapError Fault.passedOn =
          (inTurn (fun leaf => leaf.accepts v) rule.leaves).mapError Fault.passedOn :=
        fun rule hrule => ih rule hrule (h.of_mem hrule)
      rw [passedOn_accepts_allOf v h]
      change _ = (inTurn _ (leaves.leavesOf rules)).mapError Fault.passedOn
      clear h ih
      induction rules with
      | nil => rfl
      | cons rule rest ihrest =>
          obtain ⟨hrule, hrest⟩ := List.forall_mem_cons.mp hparts
          rw [leaves.leavesOf, inTurn_append, inTurn_cons, mapError_both, mapError_both, hrule,
            ihrest hrest]

theorem accepts_eq_true_iff (h : rule.IsCallable) :
    rule.accepts v = .ok true ↔ ∀ leaf ∈ rule.leaves, leaf.apply v = .ok true := by
  rw [← mapError_eq_ok_iff (f := Fault.passedOn), passedOn_accepts v h, mapError_eq_ok_iff,
    inTurn_eq_true_iff]
  refine forall₂_congr fun leaf hleaf => ?_
  rw [Validator.accepts_eq_guarded (h.ne_nothing leaf hleaf), guarded_eq_true_iff]

theorem passedOn_accepts_eq_error_iff (h : rule.IsCallable) :
    (rule.accepts v).mapError Fault.passedOn = .error fault ↔
      ∃ before leaf after raised, rule.leaves = before ++ leaf :: after ∧
        (∀ r ∈ before, r.apply v = .ok true) ∧ leaf.apply v = .error raised ∧
        raised.isRefusal = false ∧ raised.passedOn = fault := by
  have hturn : inTurn (fun leaf => leaf.accepts v) rule.leaves =
      inTurn (fun leaf => guarded (leaf.apply v)) rule.leaves :=
    inTurn_congr fun leaf hleaf => Validator.accepts_eq_guarded (h.ne_nothing leaf hleaf) v
  rw [passedOn_accepts v h, hturn, mapError_eq_error_iff]
  simp only [inTurn_eq_error_iff, guarded_eq_true_iff, guarded_eq_error_iff]
  constructor
  · rintro ⟨raised, ⟨before, leaf, after, heq, hbefore, hraised, hescapes⟩, hpassed⟩
    exact ⟨before, leaf, after, raised, heq, hbefore, hraised, hescapes, hpassed⟩
  · rintro ⟨before, leaf, after, raised, heq, hbefore, hraised, hescapes, hpassed⟩
    exact ⟨raised, ⟨before, leaf, after, heq, hbefore, hraised, hescapes⟩, hpassed⟩

end Composed

end Validator

/-- A failure, with a fault in it as a sequence passes it on. -/
def Failure.passedOn : Failure → Failure
  | .fault f => .fault f.passedOn
  | e => e

/-- Both succeed with the same result or both fail, and in the same way but for the end of a
sequence. -/
def Outcome.Alike {α : Type} (x y : Outcome α) : Prop :=
  x.mapError Failure.passedOn = y.mapError Failure.passedOn

namespace Outcome.Alike

variable {α β : Type} {x y : Outcome α} {f g : α → Outcome β}

theorem refl (x : Outcome α) : x.Alike x := rfl

theorem ok_iff (h : x.Alike y) (a : α) : x = .ok a ↔ y = .ok a := by
  rw [← mapError_eq_ok_iff, h, mapError_eq_ok_iff]

theorem bind (h : x.Alike y) (hf : ∀ a, (f a).Alike (g a)) : (x >>= f).Alike (y >>= g) := by
  cases x with
  | ok a =>
      rw [(h.ok_iff a).mp rfl]
      exact hf a
  | error e =>
      cases y with
      | ok b => cases h
      | error e' => exact congrArg Except.error (Except.error.inj h)

theorem of_faults {a b : Except Fault α}
    (h : a.mapError Fault.passedOn = b.mapError Fault.passedOn) :
    Alike (a.mapError Failure.fault) (b.mapError Failure.fault) := by
  have hcomm (c : Except Fault α) : (c.mapError Failure.fault).mapError Failure.passedOn =
      (c.mapError Fault.passedOn).mapError Failure.fault := by
    cases c <;> rfl
  rw [Alike, hcomm, hcomm, h]

end Outcome.Alike

namespace Field

def leaves (f : Field) : List Validator :=
  f.rule.elim [] Validator.leaves

/-- Fields of one name whose rules can be called and have the same leaves, however they are nested. -/
structure Regrouped (f g : Field) : Prop where
  name_eq : f.name = g.name
  leaves_eq : f.leaves = g.leaves
  callable : ∀ rule ∈ f.rule, rule.IsCallable
  callable' : ∀ rule ∈ g.rule, rule.IsCallable

theorem passedOn_acceptsIfAny {f : Field} (callable : ∀ rule ∈ f.rule, rule.IsCallable) (v : Value) :
    (Validator.acceptsIfAny f.rule v).mapError Fault.passedOn =
      (Validator.inTurn (fun leaf => leaf.accepts v) f.leaves).mapError Fault.passedOn := by
  cases hrule : f.rule with
  | none =>
      rw [leaves, hrule]
      rfl
  | some rule =>
      rw [leaves, hrule]
      exact Validator.passedOn_accepts v (callable rule hrule)

theorem check_eq_bind (f : Field) (v : Value) : f.check v =
    ((Validator.acceptsIfAny f.rule v).mapError Failure.fault >>= fun accepted =>
      if accepted then .ok () else .error (.filterValue f.name .refused)) := by
  unfold Field.check
  rcases Validator.acceptsIfAny f.rule v with fault | b
  · rfl
  · cases b <;> rfl

section Regrouped

variable {today : Date} {f g : Field} (h : f.Regrouped g)
include h

theorem Regrouped.check (v : Value) : (f.check v).Alike (g.check v) := by
  have hanswer : (Validator.acceptsIfAny f.rule v).mapError Fault.passedOn =
      (Validator.acceptsIfAny g.rule v).mapError Fault.passedOn := by
    rw [passedOn_acceptsIfAny h.callable, passedOn_acceptsIfAny h.callable', h.leaves_eq]
  rw [check_eq_bind, check_eq_bind, h.name_eq]
  exact .bind (.of_faults hanswer) fun _ => .refl _

theorem Regrouped.kind_eq : f.kind = g.kind :=
  congrArg FieldKind.ofName h.name_eq

theorem Regrouped.checked (v : Value) : (f.checked today v).Alike (g.checked today v) := by
  unfold Field.checked
  rw [h.name_eq, h.kind_eq]
  exact .bind (.refl _) fun v => .bind (h.check v) fun _ => .refl _

theorem Regrouped.excluding (values : List Value) :
    (f.excluding today values).Alike (g.excluding today values) := by
  induction values with
  | nil => exact .refl _
  | cons v rest ih =>
      unfold Field.excluding
      rw [h.name_eq, h.kind_eq]
      split
      · exact .bind ih fun _ => .refl _
      · split
        · exact .bind (.refl _) fun _ => .bind ih fun _ => .refl _
        · exact ih

theorem Regrouped.members (values : List Value) :
    (f.members today values).Alike (g.members today values) := by
  induction values with
  | nil => exact .refl _
  | cons v rest ih =>
      unfold Field.members
      split
      · exact .bind (h.checked v) fun _ => .bind ih fun _ => .refl _
      · exact ih

theorem Regrouped.among (values : List Value) :
    (f.among today values).Alike (g.among today values) := by
  unfold Field.among
  rw [h.name_eq]
  exact .bind (h.members values) fun _ => .refl _

theorem Regrouped.bound (v : Value) : (f.bound today v).Alike (g.bound today v) := by
  have checked (w : Value) : Outcome.Alike (do
      f.check w
      return some w) (do
      g.check w
      return some w) :=
    .bind (h.check w) fun _ => .refl _
  unfold Field.bound
  rw [h.name_eq, h.kind_eq]
  split
  · dsimp only
    split
    · exact .bind (.refl _) checked
    · exact .bind (.refl _) checked
  · exact .refl _

theorem Regrouped.within (lower upper : Value) (values : List Value) :
    (f.within today lower upper values).Alike (g.within today lower upper values) := by
  unfold Field.within
  rw [h.name_eq]
  refine .bind (h.bound lower) fun least => .bind (h.bound upper) fun most => ?_
  cases least with
  | none =>
      cases most with
      | none => exact .bind (h.among values) fun _ => .refl _
      | some u => exact .refl _
  | some l => cases most <;> exact .refl _

theorem Regrouped.equalTo (v : Value) : (f.equalTo today v).Alike (g.equalTo today v) := by
  have hwildcard : f.wildcard? v = g.wildcard? v := by
    unfold Field.wildcard?
    rw [h.kind_eq]
  unfold Field.equalTo
  rw [hwildcard, h.name_eq]
  split
  · exact .refl _
  · exact .bind (h.checked v) fun _ => .refl _

theorem Regrouped.predicates (raw : Value) :
    (f.predicates today raw).Alike (g.predicates today raw) := by
  unfold Field.predicates
  cases Term.ofValue raw with
  | negated values => exact h.excluding values
  | range lower upper values => exact h.within lower upper values
  | members values => exact .bind (h.among values) fun _ => .refl _
  | absent =>
      dsimp only
      rw [h.name_eq]
      exact .refl _
  | single v => exact .bind (h.equalTo v) fun _ => .refl _

end Regrouped

end Field

/-- Registries of the same names in the same order, whose fields differ only in how their rules are
nested. -/
def Registry.Regrouped (registry registry' : Registry) : Prop :=
  List.Forall₂ Field.Regrouped registry.fields registry'.fields

namespace Filter

variable {today : Date}

theorem alike_compileFields {fields fields' : List Field}
    (h : List.Forall₂ Field.Regrouped fields fields') (es : Entries) :
    (compileFields today es fields).Alike (compileFields today es fields') := by
  induction h with
  | nil => exact .refl _
  | cons hf _ ih =>
      unfold compileFields
      rw [hf.name_eq]
      split
      · exact ih
      · exact .bind (hf.predicates _) fun _ => .bind ih fun _ => .refl _

variable {registry registry' : Registry} (h : registry.Regrouped registry')
include h

theorem alike_compile (filter : Value) :
    (compile today registry filter).Alike (compile today registry' filter) := by
  cases filter with
  | object es => exact alike_compileFields h es
  | _ => exact .refl _

theorem alike_compileEach (clauses : List Value) :
    (compileEach today registry clauses).Alike (compileEach today registry' clauses) := by
  induction clauses with
  | nil => exact .refl _
  | cons v rest ih =>
      cases v with
      | object es => exact .bind (alike_compile h _) fun _ => .bind ih fun _ => .refl _
      | _ => exact .refl _

theorem alike_compileClauses (filter : Value) :
    (compileClauses today registry filter).Alike (compileClauses today registry' filter) := by
  unfold compileClauses
  split
  · exact alike_compileEach h _
  · exact alike_compile h _

end Filter

namespace Plan

theorem alike_compileFilter (today : Date) {registry registry' : Registry}
    (h : registry.Regrouped registry') (acceptsClauses : Bool) (filter : Value) :
    (compileFilter today registry acceptsClauses filter).Alike
      (compileFilter today registry' acceptsClauses filter) := by
  cases acceptsClauses with
  | false => exact Filter.alike_compile h filter
  | true => exact Filter.alike_compileClauses h filter

end Plan

namespace Validator

section Titles

def titleRegistry (rule : Validator) : Registry where
  fields := [{ name := "title", rule := some rule }]
  names_nodup := List.pairwise_singleton _ _

end Titles

end Validator

end Catalogue
