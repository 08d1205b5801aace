import Catalogue.Text.Numeral
import Catalogue.Text.Quoted

/-!
How a request can fail: the causes, the family that each belongs to, and its wording.
-/

namespace Catalogue

/-- A fault that is not one of the listing's own failures. Validators absorb the first three. -/
inductive Fault where
  | badValue
  | badType
  | missingAttribute
  | missingKey
  | overflow
  | imprecise
  | badArgument
  | unsupported
  | named (name : String)
  deriving DecidableEq, Repr

/-- Is the fault taken for a refusal when a validator raises it? -/
def Fault.isRefusal : Fault → Bool
  | .badValue | .badType | .missingAttribute => true
  | _ => false

/-- Raised where a sequence has no further element. -/
def Fault.sequenceEnd : Fault :=
  .named "StopIteration"

def Fault.brokenSequence : Fault :=
  .named "RuntimeError"

/-- Raised where calls go deeper than an interpreter has room for. -/
def Fault.tooDeep : Fault :=
  .named "RecursionError"

/-- A fault that an element of a sequence raises, as the sequence passes it on. The end of another
sequence would be taken for its own end, so it is passed on as a broken one. -/
def Fault.passedOn (f : Fault) : Fault :=
  if f = sequenceEnd then brokenSequence else f

@[simp] theorem Fault.isRefusal_passedOn (f : Fault) : f.passedOn.isRefusal = f.isRefusal := by
  unfold passedOn
  split
  · rename_i h
    subst h
    rfl
  · rfl

inductive ParameterProblem where
  | notInteger
  | aboveMaximum (maximum : Int)
  | negative
  | malformed
  | notObject
  | clauseNotObject
  | malformedOrder
  | other (wording : String)
  deriving DecidableEq, Repr

def inQuotes (name : String) : String :=
  "'" ++ name ++ "'"

def ParameterProblem.message (parameter : String) : ParameterProblem → String
  | .notInteger => inQuotes parameter ++ " should be an integer"
  | .aboveMaximum n =>
    "Value of parameter " ++ inQuotes parameter ++ " exceeds configured maximum " ++
      .ofList (Text.signed n)
  | .negative => inQuotes parameter ++ " should be positive or 0"
  | .malformed => inQuotes parameter ++ " JSON data is invalid!"
  | .notObject => inQuotes parameter ++ " JSON should be object"
  | .clauseNotObject => inQuotes parameter ++ " clauses should be JSON objects"
  | .malformedOrder => "Wrong " ++ inQuotes parameter ++ " parameter"
  | .other wording => wording

inductive ValueProblem where
  | missing
  | notTimestamp
  | refused
  | other (wording : String)
  deriving DecidableEq, Repr

def ValueProblem.message (field : String) : ValueProblem → String
  | .missing => "Missing or invalid value"
  | .notTimestamp => "Wrong format of datetime value"
  | .refused => "Wrong " ++ inQuotes field ++ " parameter"
  | .other wording => wording

inductive SettingProblem where
  | notPositive
  | notInteger
  | unreadableInteger
  | integerTooLong
  | fractional
  | notFinite
  | notText
  | notUnicode
  | notSequence
  | notBoolean
  | unreadableBoolean
  deriving DecidableEq, Repr

def SettingProblem.tag : SettingProblem → String
  | .notPositive => "greater_than"
  | .notInteger => "int_type"
  | .unreadableInteger => "int_parsing"
  | .integerTooLong => "int_parsing_size"
  | .fractional => "int_from_float"
  | .notFinite => "finite_number"
  | .notText => "string_type"
  | .notUnicode => "string_unicode"
  | .notSequence => "tuple_type"
  | .notBoolean => "bool_type"
  | .unreadableBoolean => "bool_parsing"

inductive FailureKind where
  | listing
  | validation
  | parameter
  | filterValue
  | adapterState
  | backend
  | unavailable
  | rejected
  deriving DecidableEq, Repr

inductive Failure where
  | parameter (name : String) (problem : ParameterProblem)
  /-- A filter value is malformed or refused by the field's validator. -/
  | filterValue (field : String) (problem : ValueProblem)
  | adapterSpent
  | unreachable
  | notConnected
  | queryRejected
  | deletionRejected
  | unknownColumn (table column : String)
  | noMarkerColumn (table : String)
  /-- Settings are malformed; each problem stands with its place. -/
  | settings (problems : List (String × SettingProblem))
  /-- Input is refused for reasons given by name. -/
  | invalid (errors : List (String × List String))
  /-- A failure in the caller's words. -/
  | worded (kind : FailureKind) (wording : String)
  | fault (f : Fault)
  deriving DecidableEq, Repr

abbrev Outcome (α : Type) := Except Failure α

theorem Outcome.bind_eq_ok_iff {α β : Type} {x : Outcome α} {f : α → Outcome β} {b : β} :
    x >>= f = .ok b ↔ ∃ a, x = .ok a ∧ f a = .ok b := by
  cases x with
  | error e => simp [bind, Except.bind]
  | ok a => simp [bind, Except.bind]

namespace Failure

def kind? : Failure → Option FailureKind
  | .parameter .. => some .parameter
  | .filterValue .. => some .filterValue
  | .adapterSpent => some .adapterState
  | .unreachable | .notConnected => some .unavailable
  | .queryRejected | .deletionRejected | .unknownColumn .. | .noMarkerColumn _ => some .rejected
  | .invalid _ => some .validation
  | .worded kind _ => some kind
  | .settings _ | .fault _ => none

/-- The reasons of a validation failure, by parameter or field. -/
def errors? : Failure → Option (List (String × List String))
  | .parameter name problem => some [(name, [problem.message name])]
  | .filterValue field problem => some [(field, [problem.message field])]
  | .invalid errors => some errors
  | _ => none

def errorsText (errors : List (String × List String)) : String :=
  let entry := fun (name, messages) =>
    Text.quoted name ++ ": [" ++ ", ".intercalate (messages.map Text.quoted) ++ "]"
  "\x7b" ++ ", ".intercalate (errors.map entry) ++ "\x7d"

def message : Failure → String
  | .parameter name problem => errorsText [(name, [problem.message name])]
  | .filterValue field problem => errorsText [(field, [problem.message field])]
  | .adapterSpent => "Listing adapter has already been executed"
  | .unreachable => "Listing backend is unavailable"
  | .notConnected => "Not connected; call connect() first"
  | .queryRejected => "Listing query failed"
  | .deletionRejected => "Soft delete failed"
  | .unknownColumn table column =>
    "Table " ++ Text.quoted table ++ " has no column " ++ Text.quoted column
  | .noMarkerColumn table => "Table " ++ Text.quoted table ++ " has no soft-delete marker column"
  | .settings problems =>
    "; ".intercalate (problems.map fun (place, problem) => place ++ ":" ++ problem.tag)
  | .invalid errors => errorsText errors
  | .worded _ wording => wording
  | .fault _ => ""

end Failure

end Catalogue
