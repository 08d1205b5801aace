import Catalogue.Document.Collection
import Catalogue.Store.Adapter

/-!
The adapter for collections of documents. It collects calls into a pipeline, sends it once, and
reads page and total from the one answer.
-/

namespace Catalogue.Document

structure Session where
  collection : Collection
  pipeline : Pipeline := {}
  /-- The number of matches that was read last. -/
  total : Int := 0
  executed : Bool := false
  /-- The pipelines that the collection has been asked. -/
  sent : List Pipeline := []

def pathOf (registry : Registry) (field : String) : String :=
  if field = registry.idField then idPath else field

def conditionsOf (registry : Registry) : Call → List Condition
  | .equality f v => [.equals (pathOf registry f) v]
  | .negatedEquality f v => [.notEquals (pathOf registry f) v]
  | .range f lower upper =>
    (if lower.isNull then [] else [.atLeast (pathOf registry f) lower]) ++
      if upper.isNull then [] else [.atMost (pathOf registry f) upper]
  | .membership f vs => [.isAmong (pathOf registry f) vs]
  | .pattern f w => [.found (pathOf registry f) (.ofWildcard w)]
  | .absence f => [.isAbsent (pathOf registry f)]
  | .existence f => [.isSet (pathOf registry f)]
  | _ => []

def searchText (s : String) : Option String :=
  let t := Search.neutral s
  if t.isEmpty then none else some t

def Pipeline.add (registry : Registry) (p : Pipeline) (call : Call) : Pipeline :=
  match call with
  | .sort f d => { p with sort := p.sort ++ [(pathOf registry f, d)] }
  | .randomSort seed => { p with seed := some seed, sort := p.sort ++ [(randomPath, .descending)] }
  | .pagination offset limit => { p with offset, limit }
  | .textSearch text => { p with text := searchText text }
  | call => { p with conditions := p.conditions ++ conditionsOf registry call }

/-- Sort keys that end with the identifier, unless they hold it already. -/
def withTiebreaker (sort : List (String × Direction)) : List (String × Direction) :=
  if sort.any (·.1 == idPath) then sort else sort ++ [(idPath, .ascending)]

def defaultSort (registry : Registry) : List (String × Direction) :=
  registry.defaultOrder.map fun d => (pathOf registry d.field, d.direction)

/-- The pipeline as it is sent, with default order and tiebreaker. -/
def Pipeline.completed (registry : Registry) (p : Pipeline) : Pipeline :=
  { p with sort := withTiebreaker (if p.sort.isEmpty then defaultSort registry else p.sort) }

/-- Does the call do nothing at all, whatever the state? -/
def isIdle : Call → Bool
  | .range _ lower upper => lower.isNull && upper.isNull
  | _ => false

/-- Makes a call. A spent adapter refuses every call that would do something. -/
def apply (registry : Registry) (s : Session) (call : Call) : Session × Outcome Unit :=
  if isIdle call then (s, .ok ())
  else if s.executed then (s, .error .adapterSpent)
  else ({ s with pipeline := s.pipeline.add registry call }, .ok ())

def countOf : Value → Except Fault Int
  | .int n => .ok n
  | .bool b => .ok (if b then 1 else 0)
  | .float x =>
    match x, x.truncate? with
    | _, some n => .ok n
    | .nan, none => .error .badValue
    | _, none => .error .overflow
  | .text s =>
    match Text.integerIn? s with
    | some n => .ok n
    | none => .error .badValue
  | .bytes octets =>
    match (String.fromUTF8? octets).bind Text.integerIn? with
    | some n => .ok n
    | none => .error .badValue
  | _ => .error .badType

def totalOf (answer : Entries) : Except Fault Int :=
  match answer.get? "total" with
  | none => .ok 0
  | some v =>
    if !v.isTruthy then .ok 0
    else match v with
      | .list (.object first :: _) =>
        match Entries.get? first "count" with
        | some c => countOf c
        | none => .error .missingKey
      | .object _ => .error .missingKey
      | _ => .error .badType

/-- A row: the identifier moves from its path to the identifier field, as text, unless the document
holds that field already. -/
def rowOf (registry : Registry) (doc : Entries) : Except Fault Entries :=
  match doc.get? idPath with
  | none => .ok doc
  | some id =>
    match id.text? with
    | none => .error .badValue
    | some s =>
      let row := doc.erase idPath
      .ok (if row.has registry.idField then row
        else row ++ [(.text registry.idField, .text s)])

def rowOfValue (registry : Registry) : Value → Except Fault Entries
  | .object doc => rowOf registry doc
  | .list [] => .ok []
  | .text s => if s.isEmpty then .ok [] else .error .badValue
  | _ => .error .badType

def rowsOf (registry : Registry) (answer : Entries) : Except Fault (List Entries) :=
  match answer.get? "rows" with
  | none => .ok []
  | some (.list docs) => docs.mapM (rowOfValue registry)
  | some (.object entries) => entries.mapM fun (k, _) => rowOfValue registry k
  | some (.text s) => if s.isEmpty then .ok [] else .error .badValue
  | some _ => .error .badType

def failureOf : StoreFault → Failure
  | .unreachable => .unreachable
  | .rejected => .queryRejected
  | .foreign fault => .fault fault

/-- Sends the pipeline and reads the answer. The adapter is spent even when this fails. -/
def execute (registry : Registry) (s : Session) : Session × Outcome Page :=
  if s.executed then (s, .error .adapterSpent)
  else
    let pipeline := s.pipeline.completed registry
    let s := { s with executed := true, sent := s.sent ++ [pipeline] }
    match s.collection.ask pipeline with
    | .error fault => (s, .error (failureOf fault))
    | .ok answers =>
      let answer := answers.head?.getD []
      match totalOf answer with
      | .error fault => (s, .error (.fault fault))
      | .ok total =>
        let s := { s with total }
        match rowsOf registry answer with
        | .error fault => (s, .error (.fault fault))
        | .ok rows => (s, .ok { rows, total })

def adapter (registry : Registry) : Adapter Session where
  acceptsClauses := true
  apply := apply registry
  execute := execute registry

end Catalogue.Document
