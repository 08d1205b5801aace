import Catalogue.Document.Condition
import Catalogue.Query.Predicate

/-!
The pipeline that answers a listing: matching, an order, and in one answer the page and the number
of matches.
-/

namespace Catalogue.Document

def idPath : String := "_id"

def randomPath : String := "_random_sort"

structure Pipeline where
  /-- The free text; none when absent or empty. -/
  text : Option String := none
  conditions : List Condition := []
  sort : List (String × Direction) := []
  seed : Option String := none
  offset : Option Int := none
  limit : Option Int := none

namespace Search

def isSeparator (c : Char) : Bool :=
  Text.isBlank c || c == '"' || c == '\\'

/-- The terms of a free text: the runs between separators without the hyphens in front. -/
def terms (s : List Char) : List (List Char) :=
  ((Text.wordsBy isSeparator s).map fun w => w.dropWhile (· == '-')).filter fun w => !w.isEmpty

/-- A free text reduced to its terms, so that none of it is taken for an operator. -/
def neutral (s : String) : String :=
  .ofList ([' '].intercalate (terms s.toList))

end Search

def directionKey : Direction → Int
  | .ascending => 1
  | .descending => -1

/-- Sorts by a path: one that is sorted by already keeps its place and takes the new direction. -/
def putKey (keys : List (String × Direction)) (path : String) (d : Direction) :
    List (String × Direction) :=
  if keys.any (·.1 == path) then keys.map fun k => if k.1 == path then (path, d) else k
  else keys ++ [(path, d)]

def distinctKeys (sort : List (String × Direction)) : List (String × Direction) :=
  sort.foldl (fun keys (path, d) => putKey keys path d) []

def randomStage (seed : String) : Value :=
  let hashed := Value.list [.text seed, single "$toString" (.text "$_id")]
  single "$addFields" (single randomPath (single "$toHashedIndexKey" (single "$concat" hashed)))

def isNonZero (n : Option Int) : Bool :=
  (n.map (· != 0)).getD false

/-- The stages that cut the page out of the matches. -/
def pageStages (sort : List (String × Direction)) (seed : Option String)
    (offset limit : Option Int) : List Value :=
  let keys := (distinctKeys sort).map fun (path, d) => (Value.text path, .int (directionKey d))
  let skip := if isNonZero offset then offset.toList.map fun n => single "$skip" (.int n) else []
  let cut := limit.toList.map fun n => single "$limit" (.int n)
  let project := if seed.isSome then [single "$project" (single randomPath (.int 0))] else []
  single "$sort" (.object keys) :: (skip ++ cut ++ project)

def stages (text : Option String) (conditions : List Value) (sort : List (String × Direction))
    (seed : Option String) (offset limit : Option Int) : List Value :=
  let search := match text with
    | some t => if t.isEmpty then [] else [(Value.text "$text", single "$search" (.text t))]
    | none => []
  let required := if conditions.isEmpty then [] else [(Value.text "$and", Value.list conditions)]
  let condition := search ++ required
  let first := if condition.isEmpty then [] else [single "$match" (.object condition)]
  let total := Value.list [single "$count" (.text "count")]
  let facet := Value.object
    [(.text "rows", .list (pageStages sort seed offset limit)), (.text "total", total)]
  first ++ seed.toList.map randomStage ++ [single "$facet" facet]

def Pipeline.documents (p : Pipeline) : List Value :=
  stages p.text (p.conditions.map Condition.document) p.sort p.seed p.offset p.limit

end Catalogue.Document
