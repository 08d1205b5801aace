import Catalogue.Query.Plan

/-!
Adapters: what a store is told, call by call, and the one execution that answers.
-/

namespace Catalogue

inductive Call where
  | equality (field : String) (value : Value)
  | negatedEquality (field : String) (value : Value)
  | range (field : String) (lower upper : Value)
  | membership (field : String) (values : List Value)
  | pattern (field : String) (pattern : Wildcard)
  | absence (field : String)
  | existence (field : String)
  | sort (field : String) (direction : Direction)
  | randomSort (seed : String)
  | pagination (offset limit : Option Int)
  | textSearch (text : String)

def Predicate.call : Predicate → Call
  | .equals f v => .equality f v
  | .notEquals f v => .negatedEquality f v
  | .isSet f => .existence f
  | .isAbsent f => .absence f
  | .atLeast f v => .range f v .null
  | .atMost f v => .range f .null v
  | .isAmong f vs => .membership f vs
  | .matching f w => .pattern f w

/-- The call for a directive: the seed decides. -/
def SortDirective.call (d : SortDirective) : Call :=
  match d.seed with
  | some seed => .randomSort seed
  | none => .sort d.field d.direction

/-- The calls that a request makes once it is compiled: predicates, order, page and free text. -/
def Plan.calls (plan : Plan) (request : Request) : List Call :=
  plan.predicates.map Predicate.call ++ plan.sort.map SortDirective.call ++
    .pagination request.offset (some request.limit) ::
      match request.text with
      | some text => if text.isEmpty then [] else [.textSearch text]
      | none => []

structure Page where
  rows : List Entries
  total : Int
  deriving Inhabited

/-- An adapter in a state: what it does on a call and on its execution. A step that fails may still
change the state. -/
structure Adapter (σ : Type) where
  acceptsClauses : Bool
  apply : σ → Call → σ × Outcome Unit
  execute : σ → σ × Outcome Page

namespace Adapter

variable {σ : Type}

/-- Makes calls in order and stops at the first that fails. -/
def applyAll (a : Adapter σ) : σ → List Call → σ × Outcome Unit
  | s, [] => (s, .ok ())
  | s, call :: rest =>
    match a.apply s call with
    | (s, .ok ()) => a.applyAll s rest
    | (s, .error e) => (s, .error e)

@[simp] theorem applyAll_nil (a : Adapter σ) (s : σ) : a.applyAll s [] = (s, .ok ()) := rfl

def run (a : Adapter σ) (s : σ) (calls : List Call) : σ × Outcome Page :=
  match a.applyAll s calls with
  | (s, .ok ()) => a.execute s
  | (s, .error e) => (s, .error e)

end Adapter

end Catalogue
