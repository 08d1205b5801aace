import Catalogue.Field.Conversion
import Catalogue.Field.Pattern
import Catalogue.Field.TimeForm
import Catalogue.Value.Order

/-!
Rules that a field's values have to satisfy. A rule is called with a value and its answer is asked
whether it is yes, and either may raise a fault. Faults that say that a value cannot be judged count
as a refusal, all others escape. Bounds and types that no `Value` has, such as decimals, lie outside
the model.
-/

namespace Catalogue

inductive TypeName where
  | integer
  | number
  | text
  | boolean
  | moment
  | date
  deriving DecidableEq, Repr

/-- What a rule answers: whether that is yes shows when it is asked, which may fail. -/
abbrev Answer := Except Fault Bool

inductive Validator where
  /-- The value has the type, or can be read as it unless the rule is strict. -/
  | ofType (type : TypeName) (strict : Bool)
  | oneOf (choices : List Value)
  /-- The value is a text that the expression matches as a whole. -/
  | matching (pattern : Pattern)
  /-- The value is a text whose length lies within the bounds. -/
  | length (least : Int) (most : Option Int)
  /-- The value lies within the bounds; a null bound is none. -/
  | between (least most : Value)
  | allOf (rules : List Validator)
  /-- The value itself counts as the answer. -/
  | itself
  | raising (fault : Fault)
  /-- Whatever a caller judges by. -/
  | judging (judge : Value → Except Fault Answer)
  /-- Nothing that could be called. -/
  | nothing
  deriving Inhabited

namespace Validator

/-- Does the value have the type? Integers count as numbers. -/
def hasType : TypeName → Value → Bool
  | .integer, .int _ => true
  | .number, .float _ => true
  | .number, .int n => (Number.Binary64.ofInt n).isFinite
  | .text, .text _ => true
  | .boolean, .bool _ => true
  | .moment, .stamp _ => true
  | .date, .date _ => true
  | _, _ => false

def readsAsNumber : Value → Bool
  | .float _ | .bool _ => true
  | .int n => (Number.Binary64.ofInt n).isFinite
  | .text s => (Conversion.numberOfText? s).isSome
  | .bytes octets => ((Conversion.textOf? octets).bind Conversion.numberOfText?).isSome
  | _ => false

def readsAs (type : TypeName) (v : Value) : Bool :=
  match type with
  | .integer => (Conversion.integer v).toOption.isSome
  | .number => readsAsNumber v
  | .text => (Conversion.text v).toOption.isSome
  | .boolean => (Conversion.boolean v).toOption.isSome
  | .moment => TimeForm.isMoment v
  | .date => TimeForm.isDate v

/-- Is the value not before the bound? A null bound has nothing before it; a value without an order
to the bound fails. -/
def isAtLeast (bound v : Value) : Bool :=
  bound.isNull || ((v.before? bound).map not).getD false

def isAtMost (bound v : Value) : Bool :=
  bound.isNull || ((bound.before? v).map not).getD false

def isKey : Value → Bool
  | .list _ | .object _ => false
  | _ => true

/-- The rule that a value is one of the choices, all of which have to be keys. -/
def choosing (choices : List Value) : Except Fault Validator :=
  if choices.all isKey then .ok (.oneOf choices) else .error .badType

def isAmong (choices : List Value) (v : Value) : Except Fault Bool :=
  if isKey v then .ok (choices.any v.same) else .error .badType

def hasLength (least : Int) (most : Option Int) : Value → Bool
  | .text s => least ≤ s.length && most.all fun n => (s.length : Int) ≤ n
  | _ => false

/-- How deep composed rules may be nested in each other. An interpreter has room for a thousand calls,
of which each of them takes three. -/
def maxNesting : Nat := 330

/-- What a rule answers when it is called with a value. The parts of a composed rule are a sequence,
which passes on what a call raises; its answer is that of all of them, up to the first no. -/
def call (v : Value) (room : Nat) : Validator → Except Fault Answer
  | .ofType type strict => .ok (.ok (if strict then hasType type v else readsAs type v))
  | .oneOf choices => (isAmong choices v).map .ok
  | .matching pattern =>
    match v with
    | .text s => .ok (.ok (pattern.matchesAll s.toList))
    | _ => .ok (.ok false)
  | .length least most => .ok (.ok (hasLength least most v))
  | .between least most => .ok (.ok (isAtLeast least v && isAtMost most v))
  | .allOf rules =>
    match room with
    | 0 => .error .tooDeep
    | room + 1 => (callAll room rules).map .ok
  | .itself => .ok (.ok v.isTruthy)
  | .raising fault => .error fault
  | .judging judge => judge v
  | .nothing => .error .badType
where
  callAll (room : Nat) : List Validator → Except Fault Bool
    | [] => .ok true
    | rule :: rest => do
      let answer ← (call v room rule).mapError Fault.passedOn
      if ← answer then callAll room rest else return false

def apply (v : Value) (rule : Validator) : Except Fault Bool := do
  let answer ← call v maxNesting rule
  answer

/-- Does a rule accept a value? A refusing fault counts as no. Without a rule every value is
accepted. -/
def accepts (rule : Validator) (v : Value) : Except Fault Bool :=
  match rule with
  | .nothing => .ok true
  | rule =>
    match rule.apply v with
    | .ok b => .ok b
    | .error f => if f.isRefusal then .ok false else .error f

def acceptsIfAny (rule : Option Validator) (v : Value) : Except Fault Bool :=
  match rule with
  | none => .ok true
  | some rule => rule.accepts v

end Validator

end Catalogue
