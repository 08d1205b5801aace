import Catalogue.Filter.Term

/-!
Filters to predicates. The fields are visited in the order of the registry, and a filter compiles as
a whole or not at all.
-/

namespace Catalogue

open Calendar (Date)

namespace Field

def check (f : Field) (v : Value) : Outcome Unit :=
  match Validator.acceptsIfAny f.rule v with
  | .ok true => .ok ()
  | .ok false => .error (.filterValue f.name .refused)
  | .error fault => .error (.fault fault)

/-- The canonical form of a value, accepted by the field's rule. -/
def checked (today : Date) (f : Field) (v : Value) : Outcome Value := do
  let v ← v.normalize today f.name f.kind
  f.check v
  return v

/-- Each value is excluded; null demands that the field is set. Lists and objects say nothing. -/
def excluding (today : Date) (f : Field) : List Value → Outcome (List Predicate)
  | [] => .ok []
  | v :: rest =>
    if v.isNull then return .isSet f.name :: (← f.excluding today rest)
    else if v.isScalar then do
      let v ← v.normalize today f.name f.kind
      return .notEquals f.name v :: (← f.excluding today rest)
    else f.excluding today rest

/-- The canonical members among values; nulls, lists and objects are passed over. -/
def members (today : Date) (f : Field) : List Value → Outcome (List Value)
  | [] => .ok []
  | v :: rest =>
    if v.isScalar then do
      let v ← f.checked today v
      return v :: (← f.members today rest)
    else f.members today rest

def among (today : Date) (f : Field) (values : List Value) : Outcome Predicate := do
  return .isAmong f.name (← f.members today values)

/-- A bound in canonical form, if it can be one. Only moments are read; other bounds stay as they
are. -/
def bound (today : Date) (f : Field) (v : Value) : Outcome (Option Value) :=
  if v.isScalar then do
    let v ← if f.kind = .moment then v.normalize today f.name f.kind else .ok v
    f.check v
    return some v
  else return none

/-- The field lies within the bounds; without a usable bound it is one of the values. -/
def within (today : Date) (f : Field) (lower upper : Value) (values : List Value) :
    Outcome (List Predicate) := do
  let least ← f.bound today lower
  let most ← f.bound today upper
  match least, most with
  | none, none => return [← f.among today values]
  | some l, none => return [.atLeast f.name l]
  | none, some u => return [.atMost f.name u]
  | some l, some u => return [.atLeast f.name l, .atMost f.name u]

/-- The wildcard that a value writes on a field of kind text. -/
def wildcard? (f : Field) : Value → Option Wildcard
  | .text s => if f.kind = .text then Wildcard.ofText? s else none
  | _ => none

/-- The field equals the value, or matches it as a wildcard. -/
def equalTo (today : Date) (f : Field) (v : Value) : Outcome Predicate :=
  match f.wildcard? v with
  | some w => .ok (.matching f.name w)
  | none => do return .equals f.name (← f.checked today v)

def predicates (today : Date) (f : Field) (raw : Value) : Outcome (List Predicate) :=
  match Term.ofValue raw with
  | .negated values => f.excluding today values
  | .range lower upper values => f.within today lower upper values
  | .members values => do return [← f.among today values]
  | .absent => .ok [.isAbsent f.name]
  | .single v => do return [← f.equalTo today v]

end Field

namespace Filter

def refusal (problem : ParameterProblem) : Failure :=
  .parameter "filter" problem

def compileFields (today : Date) (filter : Entries) : List Field → Outcome (List Predicate)
  | [] => .ok []
  | f :: rest =>
    match filter.get? f.name with
    | none => compileFields today filter rest
    | some raw => do
      let first ← f.predicates today raw
      return first ++ (← compileFields today filter rest)

def compile (today : Date) (registry : Registry) : Value → Outcome (List Predicate)
  | .object entries => compileFields today entries registry.fields
  | _ => .error (refusal .notObject)

/-- Compiles clauses one after the other; all of them have to hold. -/
def compileEach (today : Date) (registry : Registry) : List Value → Outcome (List Predicate)
  | [] => .ok []
  | .object entries :: rest => do
    let first ← compile today registry (.object entries)
    return first ++ (← compileEach today registry rest)
  | _ :: _ => .error (refusal .clauseNotObject)

def compileClauses (today : Date) (registry : Registry) : Value → Outcome (List Predicate)
  | .list clauses => compileEach today registry clauses
  | filter => compile today registry filter

end Filter

end Catalogue
