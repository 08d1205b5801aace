import Catalogue.Field.Validator
import Catalogue.Proofs.Failing

/-!
How rules are composed, and what their parts say in turn. As long as there is room for all levels of a
rule, what it says is the same however much room there is.
-/

namespace Catalogue

namespace Validator

/-- The rules that a rule is composed of in the end, from left to right. -/
def leaves : Validator → List Validator
  | .allOf rules => leavesOf rules
  | rule => [rule]
where
  leavesOf : List Validator → List Validator
    | [] => []
    | rule :: rest => leaves rule ++ leavesOf rest

/-- How deep composed rules are nested in a rule, itself counted. -/
def nesting : Validator → Nat
  | .allOf rules => nestingOf rules + 1
  | _ => 0
where
  nestingOf : List Validator → Nat
    | [] => 0
    | rule :: rest => max (nesting rule) (nestingOf rest)

/-- A rule as the only part of another, and that as the only part of the next, and so on. -/
def wrapped (rule : Validator) : Nat → Validator
  | 0 => rule
  | levels + 1 => .allOf [wrapped rule levels]

/-- What holds of every rule that has no parts, and of a composed one if it holds of its parts, holds
of all rules. -/
theorem nested_induction {P : Validator → Prop}
    (leaf : ∀ rule, (∀ rules, rule ≠ .allOf rules) → P rule)
    (allOf : ∀ rules, (∀ rule ∈ rules, P rule) → P (.allOf rules)) (rule : Validator) : P rule := by
  match rule with
  | .allOf rules => exact allOf rules fun rule _ => nested_induction leaf allOf rule
  | .ofType .. | .oneOf .. | .matching .. | .length .. | .between .. | .itself | .raising ..
  | .judging .. | .nothing => exact leaf _ nofun

section Nesting

variable {rule : Validator} {rules : List Validator}

theorem leaves_of_ne_allOf (h : ∀ rules, rule ≠ .allOf rules) : rule.leaves = [rule] := by
  cases rule with
  | allOf rules => exact absurd rfl (h rules)
  | _ => rfl

theorem mem_leaves_allOf {leaf : Validator} (hrule : rule ∈ rules) (hleaf : leaf ∈ rule.leaves) :
    leaf ∈ (allOf rules).leaves := by
  change leaf ∈ leaves.leavesOf rules
  induction rules with
  | nil => cases hrule
  | cons first rest ih =>
      rw [leaves.leavesOf, List.mem_append]
      rcases List.mem_cons.mp hrule with rfl | hrest
      · exact .inl hleaf
      · exact .inr (ih hrest)

theorem nesting_lt_allOf (hrule : rule ∈ rules) : rule.nesting < (allOf rules).nesting := by
  suffices h : rule.nesting ≤ nesting.nestingOf rules from Nat.lt_succ_of_le h
  induction rules with
  | nil => cases hrule
  | cons first rest ih =>
      rcases List.mem_cons.mp hrule with rfl | hrest
      · exact Nat.le_max_left _ _
      · exact Nat.le_trans (ih hrest) (Nat.le_max_right _ _)

theorem nesting_wrapped (rule : Validator) (levels : Nat) :
    (rule.wrapped levels).nesting = rule.nesting + levels := by
  induction levels with
  | zero => rfl
  | succ levels ih =>
      change max (rule.wrapped levels).nesting 0 + 1 = _
      rw [Nat.max_zero, ih, Nat.add_assoc]

theorem leaves_wrapped (rule : Validator) (levels : Nat) :
    (rule.wrapped levels).leaves = rule.leaves := by
  induction levels with
  | zero => rfl
  | succ levels ih =>
      change (rule.wrapped levels).leaves ++ [] = _
      rw [List.append_nil, ih]

end Nesting

section Answers

def both (x y : Except Fault Bool) : Except Fault Bool := do
  if ← x then y else return false

@[simp] theorem both_yes (y : Except Fault Bool) : both (.ok true) y = y := rfl

@[simp] theorem both_no (y : Except Fault Bool) : both (.ok false) y = .ok false := rfl

@[simp] theorem both_error (f : Fault) (y : Except Fault Bool) : both (.error f) y = .error f := rfl

theorem both_yes_right (x : Except Fault Bool) : both x (.ok true) = x := by
  rcases x with f | b
  · rfl
  · cases b <;> rfl

theorem both_assoc (x y z : Except Fault Bool) : both (both x y) z = both x (both y z) := by
  rcases x with f | b
  · rfl
  · cases b <;> rfl

theorem mapError_both (f : Fault → Fault) (x y : Except Fault Bool) :
    (both x y).mapError f = both (x.mapError f) (y.mapError f) := by
  rcases x with f | b
  · rfl
  · cases b <;> rfl

end Answers

/-- What rules say that are asked one after the other, up to the first no. -/
def inTurn (ask : Validator → Except Fault Bool) : List Validator → Except Fault Bool
  | [] => .ok true
  | rule :: rest => do
    if ← ask rule then inTurn ask rest else return false

section InTurn

variable {ask ask' : Validator → Except Fault Bool} {rules : List Validator}

theorem inTurn_cons (ask : Validator → Except Fault Bool) (rule : Validator)
    (rest : List Validator) : inTurn ask (rule :: rest) = both (ask rule) (inTurn ask rest) := rfl

theorem inTurn_append (ask : Validator → Except Fault Bool) (first second : List Validator) :
    inTurn ask (first ++ second) = both (inTurn ask first) (inTurn ask second) := by
  induction first with
  | nil => rfl
  | cons rule rest ih => rw [List.cons_append, inTurn_cons, ih, inTurn_cons, both_assoc]

theorem inTurn_congr (h : ∀ rule ∈ rules, ask rule = ask' rule) :
    inTurn ask rules = inTurn ask' rules := by
  induction rules with
  | nil => rfl
  | cons rule rest ih =>
      obtain ⟨hrule, hrest⟩ := List.forall_mem_cons.mp h
      rw [inTurn_cons, inTurn_cons, hrule, ih hrest]

theorem mapError_inTurn (f : Fault → Fault) (ask : Validator → Except Fault Bool)
    (rules : List Validator) :
    (inTurn ask rules).mapError f = inTurn (fun rule => (ask rule).mapError f) rules := by
  induction rules with
  | nil => rfl
  | cons rule rest ih => rw [inTurn_cons, mapError_both, ih, inTurn_cons]

theorem inTurn_eq_true_iff :
    inTurn ask rules = .ok true ↔ ∀ rule ∈ rules, ask rule = .ok true := by
  induction rules with
  | nil => simp [inTurn]
  | cons rule rest ih =>
      rw [inTurn_cons, List.forall_mem_cons, ← ih]
      rcases ask rule with f | b
      · simp
      · cases b <;> simp

theorem inTurn_eq_error_iff {fault : Fault} : inTurn ask rules = .error fault ↔
    ∃ before rule after, rules = before ++ rule :: after ∧
      (∀ r ∈ before, ask r = .ok true) ∧ ask rule = .error fault := by
  constructor
  · intro h
    induction rules with
    | nil => cases h
    | cons rule rest ih =>
        rw [inTurn_cons] at h
        cases hrule : ask rule with
        | error f =>
            rw [hrule, both_error] at h
            exact ⟨[], rule, rest, rfl, List.forall_mem_nil _, hrule.trans h⟩
        | ok b =>
            rw [hrule] at h
            cases b with
            | false => cases h
            | true =>
                obtain ⟨before, r, after, rfl, hbefore, hr⟩ := ih h
                exact ⟨rule :: before, r, after, rfl,
                  List.forall_mem_cons.mpr ⟨hrule, hbefore⟩, hr⟩
  · rintro ⟨before, rule, after, rfl, hbefore, hrule⟩
    rw [inTurn_append, inTurn_eq_true_iff.mpr hbefore, inTurn_cons, hrule]
    rfl

end InTurn

/-- What a rule says as a part of another, which passes on what calling it raises. -/
def applyAsPart (v : Value) (room : Nat) (rule : Validator) : Except Fault Bool := do
  let answer ← (call v room rule).mapError Fault.passedOn
  answer

section Call

variable {v : Value} {room room' : Nat} {rule : Validator} {rules : List Validator}

theorem callAll_eq_inTurn (v : Value) (room : Nat) (rules : List Validator) :
    call.callAll v room rules = inTurn (applyAsPart v room) rules := by
  induction rules with
  | nil => rfl
  | cons rule rest ih =>
      rw [inTurn_cons, ← ih, call.callAll, applyAsPart]
      cases call v room rule <;> rfl

theorem call_allOf (v : Value) (room : Nat) (rules : List Validator) :
    call v (room + 1) (.allOf rules) = (inTurn (applyAsPart v room) rules).map .ok := by
  rw [← callAll_eq_inTurn]
  rfl

/-- With room for all levels of a rule, it does not matter how much there is. -/
theorem call_eq_of_nesting_le (h : rule.nesting ≤ room) (h' : rule.nesting ≤ room') :
    call v room rule = call v room' rule := by
  induction rule using nested_induction generalizing room room' with
  | leaf rule hleaf =>
      cases rule with
      | allOf rules => exact absurd rfl (hleaf rules)
      | _ => rfl
  | allOf rules ih =>
      obtain ⟨room, rfl⟩ := Nat.exists_eq_add_of_le' (Nat.le_of_add_left_le h)
      obtain ⟨room', rfl⟩ := Nat.exists_eq_add_of_le' (Nat.le_of_add_left_le h')
      have hparts : ∀ rule ∈ rules, applyAsPart v room rule = applyAsPart v room' rule := by
        intro rule hrule
        have hlt := nesting_lt_allOf hrule
        unfold applyAsPart
        rw [ih rule hrule (Nat.le_of_lt_succ (Nat.lt_of_lt_of_le hlt h))
          (Nat.le_of_lt_succ (Nat.lt_of_lt_of_le hlt h'))]
      rw [call_allOf, call_allOf, inTurn_congr hparts]

theorem call_wrapped (v : Value) (rule : Validator) (room : Nat) :
    call v room (rule.wrapped (room + 1)) = .error .tooDeep := by
  induction room with
  | zero => rfl
  | succ room ih =>
      rw [wrapped, call_allOf, inTurn_cons, applyAsPart, ih]
      rfl

theorem apply_allOf (v : Value) (h : (allOf rules).nesting ≤ maxNesting) :
    (allOf rules).apply v = inTurn (applyAsPart v maxNesting) rules := by
  have hcall : call v maxNesting (.allOf rules) = call v (maxNesting + 1) (.allOf rules) :=
    call_eq_of_nesting_le h (Nat.le_succ_of_le h)
  rw [apply, hcall, call_allOf]
  cases inTurn (applyAsPart v maxNesting) rules <;> rfl

end Call

end Validator

end Catalogue
